/-
Byte writes in both firmwares: `write_byte` of the Rust handler against
`write_cv_handler` of the C firmware.

The two switch over the same CVs, one by number and one by index.  They differ
in what follows a write: the Rust firmware clears the long address and the
consist behind a short address, and reboots where the C firmware calibrates or
resets in place.

* `Core0.writeCvHandler_accepted` and so on — the arms of the C switch;
* `matches_accepted` and so on — the arms of both;
* `Handler.byteWrite_matches_iff` — the two match except on CV7 with another
  value than 7.
-/
import Rp2040Decoder.Core0
import Rp2040Decoder.ServiceInstruction

namespace Rp2040

/-! ### The C firmware -/

namespace Core0

variable {self : Core0} {board : Board} {overallAvgOffset : UInt8} {a : ℕ} {cvData : UInt8}

/-- The content of CV `n`. -/
def cv (self : Core0) (n : ℕ) : UInt8 := self.cvArrayFlash (n - 1)

/-- No flash operation goes wrong. -/
def Faultless (self : Core0) : Prop := ∀ n, self.flash.faults n = none

theorem flashSafeExecute_run {func : Proc RpFlash Unit Unit} {flash : RpFlash}
    (h : func.run self.flash = (.ok (), flash)) :
    (flashSafeExecute func).run self = (.ok true, { self with flash }) := by
  have h' : ExceptT.run func self.flash = (.ok (), flash) := h
  simp only [flashSafeExecute, Proc.run, ExceptT.run_mk, StateT.run]
  rw [h']

/-- The sector is left with the array that was programmed. -/
theorem eraseAndProgram_run (h : self.Faultless) (cvArray : CvArray) :
    ∃ flash, (eraseAndProgram cvArray).run self = (.ok true, { self with flash }) ∧
      flash.stored = cvArray := by
  have herase := @flashSafeExecute_run self RpFlash.blockingErase _
    (RpFlash.operation_run_of_none (h _))
  refine ⟨_, ?_, Flash.stored_blockingWrite cvArray ⟨fun _ => 0xFF, self.flash.faults, 0⟩
    (self.flash.operations + 1 + 1) self.flash.faults⟩
  rw [eraseAndProgram, Proc.run_bind_of_ok herase, if_pos rfl]
  exact flashSafeExecute_run (RpFlash.operation_run_of_none (h _))

/-- The CVs, once the array with one of them changed is in flash. -/
theorem cv_of_stored {flash : RpFlash} (h₁ : 1 ≤ a) (h₂ : a ≤ CV_SIZE)
    (h : flash.stored = self.withCv (a - 1) cvData) :
    SameCvs { self with flash }.cv (Function.update self.cv a cvData) := by
  rintro n ⟨hn₁, hn₂⟩
  have hlt : n - 1 < CV_SIZE := by omega
  rw [cv, cvArrayFlash, dif_pos hlt, h, withCv]
  by_cases hn : n = a
  · subst hn
    rw [if_pos rfl, Function.update_self]
  · rw [if_neg (by simp only; omega), Function.update_of_ne hn, cv, cvArrayFlash, dif_pos hlt]

/-- One CV is written and acknowledged. -/
theorem writeCvByte_run (h : self.Faultless) (h₁ : 1 ≤ a) (h₂ : a ≤ CV_SIZE) (cvData : UInt8) :
    ∃ self', (writeCvByte (a - 1) cvData).run self = (.ok (), self') ∧
      self'.acknowledged = self.acknowledged + 1 ∧
      SameCvs self'.cv (Function.update self.cv a cvData) := by
  obtain ⟨flash, hrun, hstored⟩ := eraseAndProgram_run h (self.withCv (a - 1) cvData)
  refine ⟨{ self with flash, acknowledged := self.acknowledged + 1 }, ?_, rfl,
    cv_of_stored h₁ h₂ hstored⟩
  rw [writeCvByte, Proc.run_gets_bind, Proc.run_bind_of_ok hrun, if_pos rfl]
  rfl

/-- The CV with the ADC offset is written, without an acknowledgement. -/
theorem adcOffsetAdjustment_run (h : self.Faultless) (overallAvgOffset : UInt8) :
    ∃ self', (adcOffsetAdjustment overallAvgOffset).run self = (.ok (), self') ∧
      self'.acknowledged = self.acknowledged ∧
      SameCvs self'.cv (Function.update self.cv 172 overallAvgOffset) := by
  obtain ⟨flash, hrun, hstored⟩ := eraseAndProgram_run h (self.withCv 171 overallAvgOffset)
  refine ⟨{ self with flash }, ?_, rfl, cv_of_stored (a := 172) (by decide) (by decide) hstored⟩
  rw [adcOffsetAdjustment, Proc.run_gets_bind, Proc.run_bind_of_ok hrun]
  rfl

theorem resetCvArrayToDefault_run (h : self.Faultless) (board : Board) :
    ∃ self', (resetCvArrayToDefault board).run self = (.ok (), self') ∧
      self'.acknowledged = self.acknowledged ∧
      SameCvs self'.cv (cvDefault board.decoderId) := by
  obtain ⟨flash, hrun, hstored⟩ := eraseAndProgram_run h (CV_ARRAY_DEFAULT board)
  refine ⟨{ self with flash }, ?_, rfl, ?_⟩
  · rw [resetCvArrayToDefault, Proc.run_bind_of_ok hrun]
    rfl
  · rintro n ⟨hn₁, hn₂⟩
    have hlt : n - 1 < CV_SIZE := by omega
    rw [cv, cvArrayFlash, dif_pos hlt, hstored, CV_ARRAY_DEFAULT]
    exact congrArg (cvDefault board.decoderId) (Nat.sub_add_cancel hn₁)

/-! ### The arms of `write_cv_handler` -/

theorem notShort_iff : cvData = 0 ∨ 127 < cvData ↔ ¬ (1 ≤ cvData ∧ cvData ≤ 127) := by
  simp only [← UInt8.toNat_inj, UInt8.lt_iff_toNat_lt, UInt8.le_iff_toNat_le, UInt8.reduceToNat]
  omega

theorem notLong_iff : cvData < 192 ∨ 231 < cvData ↔ ¬ (192 ≤ cvData ∧ cvData ≤ 231) := by
  simp only [UInt8.lt_iff_toNat_lt, UInt8.le_iff_toNat_le, UInt8.reduceToNat]
  omega

/-- An accepted value is one write. -/
theorem writeCvHandler_accepted (h₁ : 1 ≤ a) (ha : WriteAccepted self.cv a cvData) :
    (writeCvHandler board overallAvgOffset (a - 1) cvData).run self =
      (writeCvByte (a - 1) cvData).run self := by
  obtain ⟨⟨h7, h8, h31, h32⟩, hr⟩ := ha
  rw [writeCvHandler, Proc.run_gets_bind]
  simp only [id_eq]
  split
  · rename_i hi
    rw [if_neg fun hv => hr (Or.inl ⟨by omega, notShort_iff.mp hv⟩)]
  · omega
  · omega
  · rename_i hi
    have hv : ¬ ((cvData < 192 ∨ 231 < cvData) ∨ (self.cvArrayFlash 17 = 0 ∧ cvData = 192)) :=
      fun hv => hr (Or.inr (Or.inl ⟨by omega, hv.imp_left notLong_iff.mp⟩))
    rw [if_neg hv]
  · rename_i hi
    have hv : ¬ (self.cvArrayFlash 16 = 192 ∧ cvData = 0) := fun hv =>
      hr (Or.inr (Or.inr ⟨by omega, hv⟩))
    rw [if_neg hv]
  · omega
  · omega
  · rfl

/-- A rejected value is dropped. -/
theorem writeCvHandler_rejected (hr : Handler.Rejected self.cv a cvData) :
    (writeCvHandler board overallAvgOffset (a - 1) cvData).run self = (.ok (), self) := by
  rcases hr with ⟨rfl, hv⟩ | ⟨rfl, hv⟩ | ⟨rfl, hv⟩
  · rw [writeCvHandler, Proc.run_gets_bind]
    exact congrArg (fun x : Firmware Unit => x.run self) (if_pos (notShort_iff.mpr hv))
  · have hv' : (cvData < 192 ∨ 231 < cvData) ∨ (self.cvArrayFlash 17 = 0 ∧ cvData = 192) :=
      hv.imp_left notLong_iff.mpr
    rw [writeCvHandler, Proc.run_gets_bind]
    exact congrArg (fun x : Firmware Unit => x.run self) (if_pos hv')
  · have hv' : self.cvArrayFlash 16 = 192 ∧ cvData = 0 := hv
    rw [writeCvHandler, Proc.run_gets_bind]
    exact congrArg (fun x : Firmware Unit => x.run self) (if_pos hv')

theorem writeCvHandler_ignored (ha : a = 31 ∨ a = 32) :
    (writeCvHandler board overallAvgOffset (a - 1) cvData).run self = (.ok (), self) := by
  rcases ha with rfl | rfl <;> rfl

theorem writeCvHandler_version :
    (writeCvHandler board overallAvgOffset (7 - 1) cvData).run self =
      (if cvData = 7 then adcOffsetAdjustment overallAvgOffset else pure ()).run self := rfl

theorem writeCvHandler_id :
    (writeCvHandler board overallAvgOffset (8 - 1) cvData).run self =
      (if cvData = 8 then resetCvArrayToDefault board else pure ()).run self := rfl

end Core0

/-! ### Side by side -/

/-- Without the long address and the consist. -/
def shortAddress (cvs : ℕ → UInt8) : ℕ → UInt8 :=
  Function.update (Function.update cvs 29 (cvs 29 &&& ~~~0b00100000)) 19 0

/-- What a byte write of `value` to CV `a` in the Rust firmware, with result
`r` and CVs `cvs`, has to do beside `write_cv_handler` from `core` to `core'`. -/
structure Matches (board : Board) (a : ℕ) (value : UInt8)
    (r : Except (Fault HandlerError) (Option Op)) (cvs : ℕ → UInt8) (core core' : Core0) :
    Prop where
  content : ¬ (a = 1 ∧ WriteAccepted core.cv a value) → ¬ (a = 8 ∧ value = 8) → SameCvs cvs core'.cv
  primaryAddress : a = 1 → WriteAccepted core.cv a value → SameCvs cvs (shortAddress core'.cv)
  factoryReset : a = 8 → value = 8 →
    SameCvs cvs defaultValue ∧ SameCvs core'.cv (Core0.cvDefault board.decoderId)
  acknowledged : r = .ok (some .acknowledgeCv) ↔ WriteAccepted core.cv a value
  acknowledged_core : core'.acknowledged = core.acknowledged + 1 ↔ WriteAccepted core.cv a value
  reboot : r = .ok (some .reboot) ↔ (a = 7 ∧ value = 7) ∨ (a = 8 ∧ value = 8)

theorem SameCvs.update {cvs cvs' : ℕ → UInt8} (h : SameCvs cvs cvs') (a : ℕ) (value : UInt8) :
    SameCvs (Function.update cvs a value) (Function.update cvs' a value) := by
  intro n hn
  by_cases hna : n = a
  · rw [hna, Function.update_self, Function.update_self]
  · rw [Function.update_of_ne hna, Function.update_of_ne hna, h hn]

theorem SameCvs.shortAddress {cvs cvs' : ℕ → UInt8} (h : SameCvs cvs cvs') :
    SameCvs (shortAddress cvs) (shortAddress cvs') := by
  have h29 : cvs 29 = cvs' 29 := h ⟨by decide, by decide⟩
  rw [Rp2040.shortAddress, Rp2040.shortAddress, h29]
  exact (h.update _ _).update _ _

theorem SameCvs.accepted_iff {cvs cvs' : ℕ → UInt8} (h : SameCvs cvs cvs') (a : ℕ)
    (value : UInt8) : WriteAccepted cvs a value ↔ WriteAccepted cvs' a value := by
  have h17 : cvs 17 = cvs' 17 := h ⟨by decide, by decide⟩
  have h18 : cvs 18 = cvs' 18 := h ⟨by decide, by decide⟩
  rw [WriteAccepted, WriteAccepted, Handler.Rejected, Handler.Rejected, h17, h18]

section Matches

open ReadableStore ReliableStore

variable {S : Type} [Store S] [ReliableStore S] {s s' : S} {core core' : Core0} {board : Board}
  {packet : Packet} {a : ℕ} {value : UInt8} {r : Except (Fault HandlerError) (Option Op)}
  {rc : Except (Fault Empty) Unit}

theorem matches_accepted (hs : Good s) (hf : core.Faultless) (hsame : SameCvs (cvs s) core.cv)
    (h : packet.Carries (.writeByte a value)) (h₁ : 1 ≤ a) (h₂ : a ≤ CV_SIZE)
    (ha : WriteAccepted core.cv a value) (hr : (executeServicePacket packet).run s = (r, s'))
    (hc : (Core0.writeCvHandler board 255 (a - 1) value).run core = (rc, core')) :
    Matches board a value r (cvs s') core core' := by
  have ha' := (hsame.accepted_iff a value).mpr ha
  obtain ⟨core₁, hrun₁, hack, hcv⟩ := Core0.writeCvByte_run hf h₁ h₂ value
  rw [Core0.writeCvHandler_accepted h₁ ha, hrun₁, Prod.mk.injEq] at hc
  obtain ⟨-, rfl⟩ := hc
  have hcontent : SameCvs (Function.update (cvs s) a value) core₁.cv :=
    (hsame.update a value).trans hcv.symm
  have h78 : ¬ ((a = 7 ∧ value = 7) ∨ (a = 8 ∧ value = 8)) := by
    rintro (h7 | h8)
    · exact ha.1.1 h7.1
    · exact ha.1.2.1 h8.1
  by_cases hne : a = 1
  · subst hne
    obtain ⟨s₁, hrun, hcvs⟩ := run_writeByte_primary hs h ha'
    rw [hrun, Prod.mk.injEq] at hr
    obtain ⟨rfl, rfl⟩ := hr
    have hshort : cvs s₁ = shortAddress (Function.update (cvs s) 1 value) := by
      rw [hcvs, shortAddress, Function.update_of_ne (show (29 : ℕ) ≠ 1 by decide)]
    refine ⟨fun hn => absurd ⟨rfl, ha⟩ hn, fun _ _ => ?_, fun h8 => absurd h8 (by decide),
      iff_of_true rfl ha, iff_of_true hack ha, iff_of_false (fun hn => by cases hn) h78⟩
    rw [hshort]
    exact hcontent.shortAddress
  · obtain ⟨s₁, hrun, hcvs⟩ := run_writeByte_plain hs h h₁ h₂ hne ha'
    rw [hrun, Prod.mk.injEq] at hr
    obtain ⟨rfl, rfl⟩ := hr
    refine ⟨fun _ _ => ?_, fun h1 => absurd h1 hne, fun h8 => absurd h8 ha.1.2.1,
      iff_of_true rfl ha, iff_of_true hack ha, iff_of_false (fun hn => by cases hn) h78⟩
    rw [hcvs]
    exact hcontent

/-- Where neither firmware changes anything or acknowledges. -/
theorem matches_unchanged (hsame : SameCvs (cvs s) core.cv) (ha : ¬ WriteAccepted core.cv a value)
    (h7 : a ≠ 7) (h8 : ¬ (a = 8 ∧ value = 8)) (hack : r ≠ .ok (some .acknowledgeCv))
    (hreboot : r ≠ .ok (some .reboot)) : Matches board a value r (cvs s) core core :=
  ⟨fun _ _ => hsame, fun _ hn => absurd hn ha, fun h h' => absurd ⟨h, h'⟩ h8,
    iff_of_false hack ha, iff_of_false (by omega) ha,
    iff_of_false hreboot fun hn => hn.elim (fun hn => h7 hn.1) h8⟩

/-- CV7 is the difference: the Rust firmware reboots on every value. -/
theorem matches_version_iff (hs : Good s) (hf : core.Faultless) (hsame : SameCvs (cvs s) core.cv)
    (h : packet.Carries (.writeByte 7 value))
    (hr : (executeServicePacket packet).run s = (r, s'))
    (hc : (Core0.writeCvHandler board 255 (7 - 1) value).run core = (rc, core')) :
    Matches board 7 value r (cvs s') core core' ↔ value = 7 := by
  have ha : ¬ WriteAccepted core.cv 7 value := fun ha => ha.1.1 rfl
  obtain ⟨s₁, hrun, hcvs⟩ := run_writeByte_version hs h
  rw [hrun, Prod.mk.injEq] at hr
  obtain ⟨rfl, rfl⟩ := hr
  constructor
  · intro hm
    rcases hm.reboot.mp rfl with hv | hv
    · exact hv.2
    · exact absurd hv.1 (by decide)
  · rintro rfl
    obtain ⟨core₁, hrun₁, hack, hcv⟩ := Core0.adcOffsetAdjustment_run hf 255
    rw [Core0.writeCvHandler_version, if_pos rfl, hrun₁, Prod.mk.injEq] at hc
    obtain ⟨-, rfl⟩ := hc
    refine ⟨fun _ _ => ?_, fun h1 => absurd h1 (by decide), fun h8 => absurd h8 (by decide),
      iff_of_false (fun hn => by cases hn) ha, iff_of_false (by omega) ha,
      iff_of_true rfl (Or.inl ⟨rfl, rfl⟩)⟩
    rw [hcvs, if_pos rfl]
    exact (hsame.update 172 255).trans hcv.symm

theorem matches_id (hs : Good s) (hf : core.Faultless) (hsame : SameCvs (cvs s) core.cv)
    (h : packet.Carries (.writeByte 8 value))
    (hr : (executeServicePacket packet).run s = (r, s'))
    (hc : (Core0.writeCvHandler board 255 (8 - 1) value).run core = (rc, core')) :
    Matches board 8 value r (cvs s') core core' := by
  have ha : ¬ WriteAccepted core.cv 8 value := fun ha => ha.1.2.1 rfl
  obtain ⟨s₁, hrun, hcvs⟩ := run_writeByte_id hs h
  rw [hrun, Prod.mk.injEq] at hr
  obtain ⟨rfl, rfl⟩ := hr
  rw [Core0.writeCvHandler_id] at hc
  by_cases hv : value = 8
  · subst hv
    obtain ⟨core₁, hrun₁, hack, hcv⟩ := Core0.resetCvArrayToDefault_run hf board
    rw [if_pos rfl, hrun₁, Prod.mk.injEq] at hc
    obtain ⟨-, rfl⟩ := hc
    refine ⟨fun _ hn => absurd ⟨rfl, rfl⟩ hn, fun h1 => absurd h1 (by decide),
      fun _ _ => ⟨fun n hn => ?_, hcv⟩, iff_of_false (fun hn => by cases hn) ha,
      iff_of_false (by omega) ha, iff_of_true rfl (Or.inr ⟨rfl, rfl⟩)⟩
    rw [hcvs, if_pos rfl, overwrite_DEFAULT_VALUES]
    exact if_pos hn
  · rw [if_neg hv, Proc.run_pure, Prod.mk.injEq] at hc
    obtain ⟨-, rfl⟩ := hc
    rw [hcvs, if_neg hv, if_neg hv]
    exact matches_unchanged hsame ha (by decide) (fun h8 => hv h8.2) (fun hn => by cases hn)
      (fun hn => by cases hn)

theorem execute_matches_iff (hs : Good s) (hf : core.Faultless)
    (hsame : SameCvs (cvs s) core.cv) (h : packet.Carries (.writeByte a value)) (h₁ : 1 ≤ a)
    (h₂ : a ≤ CV_SIZE) (hr : (executeServicePacket packet).run s = (r, s'))
    (hc : (Core0.writeCvHandler board 255 (a - 1) value).run core = (rc, core')) :
    Matches board a value r (cvs s') core core' ↔ ¬ (a = 7 ∧ value ≠ 7) := by
  by_cases h7 : a = 7
  · subst h7
    rw [matches_version_iff hs hf hsame h hr hc]
    tauto
  refine iff_of_true ?_ fun hn => h7 hn.1
  by_cases ha : WriteAccepted core.cv a value
  · exact matches_accepted hs hf hsame h h₁ h₂ ha hr hc
  have ha' : ¬ WriteAccepted (cvs s) a value := fun ha' => ha ((hsame.accepted_iff a value).mp ha')
  by_cases h8 : a = 8
  · subst h8
    exact matches_id hs hf hsame h hr hc
  -- CV31, CV32 and the values that both reject are left
  rw [not_writeAccepted_iff] at ha'
  have hrust : ∃ r', (executeServicePacket packet).run s = (r', s) ∧
      r' ≠ .ok (some .acknowledgeCv) ∧ r' ≠ .ok (some .reboot) := by
    rcases ha' with hrej | h' | h' | hign
    · exact ⟨_, execute_writeByte_rejected h hrej, (fun hn => by cases hn),
        fun hn => by cases hn⟩
    · exact absurd h' h7
    · exact absurd h' h8
    · exact ⟨_, execute_writeByte_ignored h hign, (fun hn => by cases hn), fun hn => by cases hn⟩
  have hcore : (Core0.writeCvHandler board 255 (a - 1) value).run core = (.ok (), core) := by
    rcases not_writeAccepted_iff.mp ha with hrej | h' | h' | hign
    · exact Core0.writeCvHandler_rejected hrej
    · exact absurd h' h7
    · exact absurd h' h8
    · exact Core0.writeCvHandler_ignored hign
  obtain ⟨r', hrust, hack, hreboot⟩ := hrust
  rw [hrust, Prod.mk.injEq] at hr
  rw [hcore, Prod.mk.injEq] at hc
  obtain ⟨rfl, rfl⟩ := hr
  obtain ⟨-, rfl⟩ := hc
  exact matches_unchanged hsame ha h7 (fun hn => h8 hn.1) hack hreboot

end Matches

/-! ### Two firmwares -/

namespace Handler

open ReadableStore ReliableStore

variable {T S : Type} [Timer T] [Store S] [ReliableStore S]

/-- **Byte writes in both firmwares.**  From the same CVs, and where no flash
operation fails, a confirmed byte write matches `write_cv_handler` if and only
if it is not one of a value other than 7 to CV7. -/
theorem byteWrite_matches_iff {self self' : Handler T S} {packet : Packet} {a : ℕ}
    {value : UInt8} {r : Except (Fault HandlerError) (Option Op)} {board : Board}
    {core core' : Core0} {rc : Except (Fault Empty) Unit} (hs : Good self.store)
    (hf : core.Faultless) (hsame : SameCvs (cvs self.store) core.cv)
    (h : packet.Carries (.writeByte a value)) (h₁ : 1 ≤ a) (h₂ : a ≤ CV_SIZE)
    (hr : self.Confirmed packet r self')
    (hc : (Core0.writeCvHandler board 255 (a - 1) value).run core = (rc, core')) :
    Matches board a value r (cvs self'.store) core core' ↔ ¬ (a = 7 ∧ value ≠ 7) :=
  execute_matches_iff hs hf hsame h h₁ h₂ (run_of_confirmed hr) hc

/-- The C firmware with the CVs of `programming`. -/
def programmingCore : Core0 :=
  Core0.boot ⟨fun i => defaultValue (i.val + 1), fun _ => none, 0⟩

theorem sameCvs_programming : SameCvs (cvs programming.store) programmingCore.cv := by
  rintro n ⟨hn₁, hn₂⟩
  have hlt : n - 1 < CV_SIZE := by omega
  refine (cvs_defaultFlash n hn₁ hn₂).trans ?_
  rw [Core0.cv, Core0.cvArrayFlash, dif_pos hlt]
  show defaultValue n = defaultValue (n - 1 + 1)
  rw [Nat.sub_add_cancel hn₁]

/-- A short address is written in both. -/
theorem byteWrite_primaryAddress :
    ∃ r self' rc core',
      programming.Confirmed (ServiceInstruction.writeByte 1 42).packet r self' ∧
      (Core0.writeCvHandler Core0.board₀ 255 0 42).run programmingCore = (rc, core') ∧
      Matches Core0.board₀ 1 42 r (cvs self'.store) programmingCore core' := by
  have hr : programming.Confirmed (ServiceInstruction.writeByte 1 42).packet _ _ :=
    ⟨1000, 2000, _, ⟨⟨rfl, rfl⟩, by decide⟩, rfl, ⟨rfl, rfl⟩, rfl⟩
  refine ⟨_, _, _, _, hr, rfl, (byteWrite_matches_iff (a := 1) (fun _ => rfl) (fun _ => rfl)
    sameCvs_programming (ServiceInstruction.carries_packet _) (by decide) (by decide) hr rfl).mpr
    (by omega)⟩

/-- Writing 5 to CV7 reboots the Rust firmware. -/
theorem byteWrite_versionNumber :
    ∃ r self' rc core',
      programming.Confirmed (ServiceInstruction.writeByte 7 5).packet r self' ∧
      (Core0.writeCvHandler Core0.board₀ 255 6 5).run programmingCore = (rc, core') ∧
      r = .ok (some .reboot) ∧
      ¬ Matches Core0.board₀ 7 5 r (cvs self'.store) programmingCore core' := by
  refine ⟨_, _, _, _, ⟨1000, 2000, _, ⟨⟨rfl, rfl⟩, by decide⟩, rfl, ⟨rfl, rfl⟩, rfl⟩, rfl, rfl,
    fun hm => ?_⟩
  rcases hm.reboot.mp rfl with hv | hv
  · exact absurd hv.2 (by decide)
  · exact absurd hv.1 (by decide)

end Handler

end Rp2040
