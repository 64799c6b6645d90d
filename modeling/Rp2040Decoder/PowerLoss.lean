/-
Power losses during a write, and the boot that follows
(`Flash::new`, `ensure_populated`).

A sync erases the sector and programs it again.  A sector that was erased and
not programmed reads 0xFF everywhere, bit 5 of CV29 included, so the boot takes
CV17 and CV18 for a long address, finds 16383 and not 0, and leaves the store
as it is.

* `boot_cases` — what a boot makes of a sector;
* `boot_ne_erased_iff` — it does not recognise an erased one, and leaves no other
  one unpopulated;
* `synced_of_reachable` — boots and writes that are not cut off leave the CVs in
  the sector;
* `power_loss_iff` — the exact power cuts after which the store is populated,
  with the old, the new or the default CVs.
-/
import Rp2040Decoder.Flash

namespace Rp2040.Flash

variable {p : Profile}

/-- Where `sync_cvs` is when the power is cut. -/
inductive PowerCut
  | beforeErase
  | beforeProgram
  | afterProgram
  deriving DecidableEq, Repr

/-- No operation goes wrong, and the power is cut at this point of the sync. -/
def withCut (self : Flash p) (cut : PowerCut) : Flash p :=
  self.withFlash { self.flash with
    faults := fun n =>
      match cut with
      | .beforeErase => if n = self.flash.operations then some .powerLoss else none
      | .beforeProgram => if n = self.flash.operations + 1 then some .powerLoss else none
      | .afterProgram => none }

/-- The next boot: the sector is what the power loss left, and the flash fails
as it may. -/
def boot (flash : RpFlash) (faults : ℕ → Option FlashFault) :
    Except (Fault StoreError) Unit × Flash p :=
  Store.ensurePopulated.run (Flash.new { flash with faults })

/-- `DEFAULT_VALUES` -/
def defaultCvs : CvArray := fun i => defaultValue (i.val + 1)

/-- What an erased sector reads as. -/
def erasedCvs : CvArray := fun _ => 0xFF

/-! ### Booting -/

theorem splice_DEFAULT_VALUES (cache : CvArray) : splice cache 0 DEFAULT_VALUES = defaultCvs := by
  funext i
  rw [splice, if_pos (Nat.zero_le _), DEFAULT_VALUES, List.getElem?_map,
    List.getElem?_range (by rw [Nat.sub_zero]; exact i.isLt)]
  rfl

/-- A sector whose address is not 0 is booted as it is. -/
theorem boot_of_addr_ne_zero (flash : RpFlash) (faults : ℕ → Option FlashFault)
    (h : cvAddr (cvsOf flash.stored) ≠ 0) :
    boot flash faults = (.ok (), (Flash.new { flash with faults } : Flash p)) := by
  have haddr : Store.addr (Flash.new { flash with faults } : Flash p) =
      .ok (cvAddr (cvsOf flash.stored)) := addr_eq _
  rw [boot, Store.ensurePopulated, Proc.run_read_bind haddr, if_neg h]
  rfl

/-- A boot leaves the CVs of the sector, or replaces them by the defaults if
their address is 0. -/
theorem boot_cases {flash : RpFlash} {faults : ℕ → Option FlashFault} {self : Flash p}
    (h : boot flash faults = (.ok (), self)) :
    (cvAddr (cvsOf flash.stored) ≠ 0 ∧ self.cache = flash.stored) ∨
    (cvAddr (cvsOf flash.stored) = 0 ∧ self.cache = defaultCvs) := by
  by_cases hz : cvAddr (cvsOf flash.stored) = 0
  · have haddr : Store.addr (Flash.new { flash with faults } : Flash p) =
        .ok (cvAddr (cvsOf flash.stored)) := addr_eq _
    rw [boot, Store.ensurePopulated, Proc.run_read_bind haddr, if_pos hz] at h
    refine Or.inr ⟨hz, ?_⟩
    have hforced : ¬ (Flash.new { flash with faults } : Flash p).Skips 1 DEFAULT_VALUES true :=
      fun hs => Bool.noConfusion hs.1
    have hvalid : ValidRange 1 DEFAULT_VALUES.length := by
      rw [length_DEFAULT_VALUES]
      decide
    have hrun := writeBytes_run_of_not_skips hvalid hforced
    rw [Nat.sub_self, splice_DEFAULT_VALUES] at hrun
    exact (syncCvs_ok (hrun.symm.trans h)).2
  · rw [boot_of_addr_ne_zero _ faults hz, Prod.mk.injEq] at h
    exact Or.inl ⟨hz, congrArg Flash.cache h.2.symm⟩

/-- An erased sector is taken for the long address 16383. -/
theorem cvAddr_erased : cvAddr (cvsOf erasedCvs) = 16383 := by
  have h29 : cvsOf erasedCvs 29 = 0xFF := cvsOf_of_mem (by decide)
  have h17 : cvsOf erasedCvs 17 = 0xFF := cvsOf_of_mem (by decide)
  have h18 : cvsOf erasedCvs 18 = 0xFF := cvsOf_of_mem (by decide)
  rw [cvAddr, h29, h17, h18]
  decide

/-- The default CVs are not those of an erased sector: CV1 is 3. -/
theorem defaultCvs_ne_erased : defaultCvs ≠ erasedCvs := fun h =>
  absurd (congrFun h ⟨0, by decide⟩) (by decide)

/-- A boot leaves the decoder unpopulated exactly if the sector is erased. -/
theorem boot_ne_erased_iff {flash : RpFlash} {faults : ℕ → Option FlashFault} {self : Flash p}
    (h : boot flash faults = (.ok (), self)) :
    self.cache ≠ erasedCvs ↔ flash.stored ≠ erasedCvs := by
  rcases boot_cases h with ⟨-, hc⟩ | ⟨hz, hc⟩
  · rw [hc]
  · rw [hc]
    refine iff_of_true defaultCvs_ne_erased fun herased => ?_
    rw [herased, cvAddr_erased] at hz
    exact absurd hz (by decide)

/-! ### The states of a running decoder -/

/-- The stores of a decoder between two power losses: booted from any sector,
and written to. -/
inductive Reachable : Flash p → Prop
  | boot {flash : RpFlash} {self : Flash p} :
      boot flash (fun _ => none) = (.ok (), self) → Reachable self
  | write {self : Flash p} (address : ℕ) (value : List UInt8) (force : Bool) :
      Reachable self → Reachable ((writeBytes address value force).run self).2

theorem synced_of_syncCvs {self : Flash p} (hf : self.Faultless) :
    (syncCvs.run self).2.Faultless ∧ (syncCvs.run self).2.Synced := by
  obtain ⟨flash, hrun, hstored, hfaults⟩ := syncCvs_run (hf _) (hf _)
  rw [hrun]
  exact ⟨fun n => (congrFun hfaults n).trans (hf n), hstored⟩

/-- A write to a working flash leaves the cached CVs in the sector. -/
theorem synced_of_writeBytes {self : Flash p} (address : ℕ) (value : List UInt8) (force : Bool)
    (hf : self.Faultless) (hs : self.Synced) :
    ((writeBytes address value force).run self).2.Faultless ∧
      ((writeBytes address value force).run self).2.Synced := by
  cases hr : writeRange p address value.length with
  | error e =>
    rw [writeBytes, Proc.run_bind, Proc.run_ofResult, hr]
    exact ⟨hf, hs⟩
  | ok range =>
    rw [writeBytes, Proc.run_ofResult_bind hr, Proc.run_gets_bind]
    split
    · exact ⟨hf, hs⟩
    · rw [Proc.run_modify_bind]
      exact synced_of_syncCvs hf

theorem synced_of_boot {flash : RpFlash} {self : Flash p}
    (h : boot flash (fun _ => none) = (.ok (), self)) : self.Faultless ∧ self.Synced := by
  have hself : (boot flash (fun _ => none) : _ × Flash p).2 = self := congrArg Prod.snd h
  by_cases hz : cvAddr (cvsOf flash.stored) = 0
  · have haddr : Store.addr (Flash.new { flash with faults := fun _ => none } : Flash p) =
        .ok (cvAddr (cvsOf flash.stored)) := addr_eq _
    rw [boot, Store.ensurePopulated, Proc.run_read_bind haddr, if_pos hz] at hself
    rw [← hself]
    exact synced_of_writeBytes 1 DEFAULT_VALUES true (fun _ => rfl) rfl
  · rw [boot_of_addr_ne_zero _ _ hz] at hself
    rw [← hself]
    exact ⟨fun _ => rfl, rfl⟩

theorem synced_of_reachable {self : Flash p} (h : Reachable self) :
    self.Faultless ∧ self.Synced := by
  induction h with
  | boot h => exact synced_of_boot h
  | write address value force _ ih => exact synced_of_writeBytes address value force ih.1 ih.2

/-! ### What a cut write leaves in the sector -/

theorem stored_of_skips {self : Flash p} {a : ℕ} {v : List UInt8} {force : Bool}
    {cut : PowerCut} (hs : self.Skips a v force) :
    ((writeBytes a v force).run (self.withCut cut)).2.flash.stored = self.flash.stored := by
  have hs' : (self.withCut cut).Skips a v force := hs
  rw [writeBytes_run_of_skips hs']
  rfl

theorem stored_of_not_skips {self : Flash p} {a : ℕ} {v : List UInt8} {force : Bool}
    (cut : PowerCut) (hv : ValidRange a v.length) (hs : ¬ self.Skips a v force) :
    ((writeBytes a v force).run (self.withCut cut)).2.flash.stored =
      match cut with
      | .beforeErase => self.flash.stored
      | .beforeProgram => erasedCvs
      | .afterProgram => splice self.cache (a - 1) v := by
  have hs' : ¬ (self.withCut cut).Skips a v force := hs
  rw [writeBytes_run_of_not_skips hv hs']
  cases cut with
  | beforeErase =>
    rw [syncCvs_run_of_powerLoss (if_pos rfl)]
    rfl
  | beforeProgram =>
    rw [syncCvs_run_of_powerLoss_succ (if_neg (Nat.succ_ne_self _).symm) (if_pos rfl)]
    rfl
  | afterProgram =>
    obtain ⟨flash, hrun, hstored, -⟩ := @syncCvs_run p
      { self.withCut .afterProgram with cache := splice self.cache (a - 1) v } rfl rfl
    exact (congrArg (fun r => r.2.flash.stored) hrun).trans hstored

/-- **Power loss during a write.**  A decoder holds the CVs `self.cache`, a
write would turn them into `splice self.cache (a - 1) v`, and the power is cut.
After a boot that returns `Ok` the store holds the old, the new or the default
CVs and is populated, if and only if the cut does not fall between the erase and
the program, and the CVs it leaves in the sector, which are the old ones before
the erase and where the write skips the flash, and else the new ones, are not
those of an erased sector themselves. -/
theorem power_loss_iff {self after : Flash p} {a : ℕ} {v : List UInt8} {force : Bool}
    {cut : PowerCut} {faults : ℕ → Option FlashFault} (hself : Reachable self)
    (hv : ValidRange a v.length)
    (hboot : boot ((writeBytes a v force).run (self.withCut cut)).2.flash faults =
      (.ok (), after)) :
    ((after.cache = self.cache ∨ after.cache = splice self.cache (a - 1) v ∨
        after.cache = defaultCvs) ∧ after.cache ≠ erasedCvs) ↔
      ((self.Skips a v force ∨ cut = .beforeErase) ∧ self.cache ≠ erasedCvs ∨
        ¬ self.Skips a v force ∧ cut = .afterProgram ∧
          splice self.cache (a - 1) v ≠ erasedCvs) := by
  have hsynced : self.Synced := (synced_of_reachable hself).2
  have hpost := boot_cases hboot
  rw [boot_ne_erased_iff hboot]
  -- a skipped write leaves the sector as it was
  by_cases hs : self.Skips a v force
  · rw [stored_of_skips hs, hsynced] at hpost ⊢
    have hholds : after.cache = self.cache ∨ after.cache = splice self.cache (a - 1) v ∨
        after.cache = defaultCvs := by
      rcases hpost with ⟨-, h⟩ | ⟨-, h⟩
      · exact Or.inl h
      · exact Or.inr (Or.inr h)
    constructor
    · rintro ⟨-, hne⟩
      exact Or.inl ⟨Or.inl hs, hne⟩
    · rintro (⟨-, hne⟩ | ⟨hns, -⟩)
      · exact ⟨hholds, hne⟩
      · exact absurd hs hns
  · rw [stored_of_not_skips cut hv hs] at hpost ⊢
    cases cut with
    | beforeErase =>
      have hstored : self.flash.stored = self.cache := hsynced
      constructor
      · rintro ⟨-, hne⟩
        exact Or.inl ⟨Or.inr rfl, fun h => hne (hstored.trans h)⟩
      · rintro (⟨-, hne⟩ | ⟨-, hcut, -⟩)
        · refine ⟨?_, fun h => hne (hstored.symm.trans h)⟩
          rcases hpost with ⟨-, h⟩ | ⟨-, h⟩
          · exact Or.inl (h.trans hstored)
          · exact Or.inr (Or.inr h)
        · exact PowerCut.noConfusion hcut
    | beforeProgram =>
      -- the sector is erased, and booting does not populate it
      refine iff_of_false (fun h => h.2 rfl) ?_
      rintro (⟨hskip | hcut, -⟩ | ⟨-, hcut, -⟩)
      · exact hs hskip
      · exact PowerCut.noConfusion hcut
      · exact PowerCut.noConfusion hcut
    | afterProgram =>
      constructor
      · rintro ⟨-, hne⟩
        exact Or.inr ⟨hs, rfl, hne⟩
      · rintro (⟨hskip | hcut, -⟩ | ⟨-, -, hne⟩)
        · exact absurd hskip hs
        · exact PowerCut.noConfusion hcut
        · refine ⟨?_, hne⟩
          rcases hpost with ⟨-, h⟩ | ⟨-, h⟩
          · exact Or.inr (Or.inl h)
          · exact Or.inr (Or.inr h)

theorem reachable_defaultFlash : Reachable defaultFlash :=
  .boot (boot_of_addr_ne_zero defaultFlash.flash (fun _ => none) (by decide))

/-- A cut before the erase keeps the old CVs. -/
theorem power_loss_before_erase :
    ∃ after : Flash .release,
      boot ((writeBytes 3 [20] false).run (defaultFlash.withCut .beforeErase)).2.flash
        (fun _ => none) = (.ok (), after) ∧
      (after.cache = defaultFlash.cache ∨ after.cache = splice defaultFlash.cache 2 [20] ∨
        after.cache = defaultCvs) ∧ after.cache ≠ erasedCvs := by
  have hboot := @boot_of_addr_ne_zero .release
    ((writeBytes 3 [20] false).run (defaultFlash.withCut .beforeErase)).2.flash (fun _ => none)
    (by decide)
  exact ⟨_, hboot, (power_loss_iff reachable_defaultFlash (by decide) hboot).mpr
    (Or.inl ⟨Or.inr rfl, defaultCvs_ne_erased⟩)⟩

/-- A cut between the erase and the program of a write to CV3 leaves a decoder
that boots with no CV populated. -/
theorem power_loss_unpopulated :
    ∃ after : Flash .release, Reachable defaultFlash ∧ ValidRange 3 1 ∧
      boot ((writeBytes 3 [20] false).run (defaultFlash.withCut .beforeProgram)).2.flash
        (fun _ => none) = (.ok (), after) ∧
      ¬ (after.cache = defaultFlash.cache ∨ after.cache = splice defaultFlash.cache 2 [20] ∨
        after.cache = defaultCvs) ∧ after.cache = erasedCvs := by
  refine ⟨_, reachable_defaultFlash, by decide, Prod.ext rfl rfl, ?_, rfl⟩
  rintro (h | h | h)
  all_goals exact absurd (congrFun h ⟨0, by decide⟩) (by decide)

end Rp2040.Flash
