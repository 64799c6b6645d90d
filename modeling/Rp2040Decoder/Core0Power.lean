/-
Power losses of the C firmware (`cv_setup_check` and the calls of `main` around
it, in `Software/core0.c`).

A CV is written by erasing the sector and programming it again.  A power loss in
between leaves the sector erased, which the next power-up recognises by CV65 and
replaces by the defaults; a calibration follows, as CV172 has no default.

* `Kept`, `Written` — the properties of CVs that power-ups and packets keep;
* `ensures_cvSetupCheck`, `sound_evaluatePacket` — that they do, also when the
  power is lost;
* `secures_run` — in every run of power-ups, packets and power losses;
* `configured_of_run` — the main loop always finds valid addresses;
* `recovers` — a packet takes effect or not, or the decoder is back to its
  defaults.
-/
import Rp2040Decoder.ByteWrite
import Rp2040Decoder.Core0Steps
import Rp2040Decoder.Runs

namespace Rp2040

open Transition

namespace Core0

/-- `cv_setup_check`; `overallAvgOffset` is what a calibration would measure. -/
def cvSetupCheck (board : Board) (overallAvgOffset : UInt8) : Firmware Unit := do
  -- factory setting
  if (← Proc.gets fun self => self.cvArrayFlash 64) = 0xFF then resetCvArrayToDefault board
  -- existing ADC offset setup
  if (← Proc.gets fun self => self.cvArrayFlash 171) = 0xFF then
    adcOffsetAdjustment overallAvgOffset

/-! ### Properties of the CVs -/

/-- A property of the CVs that the defaults have, and that no calibration
changes. -/
structure Kept (board : Board) (P : (ℕ → UInt8) → Prop) : Prop where
  congr {cvs cvs' : ℕ → UInt8} : SameCvs cvs' cvs → P cvs → P cvs'
  defaults : P (cvDefault board.decoderId)
  offset {cvs : ℕ → UInt8} (overallAvgOffset : UInt8) :
    P cvs → P (Function.update cvs 172 overallAvgOffset)

/-- The writes that are accepted keep the property. -/
def Written (P : (ℕ → UInt8) → Prop) : Prop :=
  ∀ {cvs : ℕ → UInt8} {a : ℕ} {value : UInt8}, 1 ≤ a → a ≤ CV_SIZE → WriteAccepted cvs a value →
    P cvs → P (Function.update cvs a value)

/-- The flash works, but for losses of power. -/
def Works (self : Core0) : Prop :=
  ∀ n, self.flash.faults n = none ∨ self.flash.faults n = some .powerLoss

def Blank (flash : RpFlash) : Prop := ∀ i, flash.stored i = 0xFF

/-- The sector is erased, or its CVs have the property. -/
def Rests (P : (ℕ → UInt8) → Prop) (flash : RpFlash) : Prop :=
  P (boot flash).cv ∨ Blank flash

/-- The main loop runs, and the CVs have the property. -/
def Holds (P : (ℕ → UInt8) → Prop) (self : Core0) : Prop := self.Works ∧ P self.cv

/-- The procedure keeps the property; a power loss may leave the sector erased. -/
abbrev Sound (P : (ℕ → UInt8) → Prop) {α : Type} (x : Firmware α) : Prop :=
  Proc.Ensures (Holds P) (Holds P) (fun self => Rests P self.flash) x

variable {board : Board} {overallAvgOffset : UInt8} {self : Core0} {P : (ℕ → UInt8) → Prop}
  {cvArray : CvArray} {packet : Message}

/-! ### The flash -/

/-- What an operation does to a flash that works. -/
theorem flashSafeExecute_cases (h : self.Works)
    (sector : (Fin ERASE_SIZE → UInt8) → Fin ERASE_SIZE → UInt8) :
    (flashSafeExecute (RpFlash.operation sector)).run self =
        (.ok true, { self with flash := { self.flash with
          sector := sector self.flash.sector, operations := self.flash.operations + 1 } }) ∨
      (flashSafeExecute (RpFlash.operation sector)).run self = (.error .panic, self) := by
  rcases h self.flash.operations with hnone | hloss
  · exact Or.inl (flashSafeExecute_run (RpFlash.operation_run_of_none hnone))
  · have hrun : ExceptT.run (RpFlash.operation sector) self.flash = (.error .panic, self.flash) :=
      RpFlash.operation_run_of_powerLoss hloss
    right
    simp only [flashSafeExecute, Proc.run, ExceptT.run_mk, StateT.run]
    rw [hrun]

/-- The array is programmed, or the power is lost before the erase or after it. -/
theorem eraseAndProgram_cases (h : self.Works) (cvArray : CvArray) :
    (∃ flash, (eraseAndProgram cvArray).run self = (.ok true, { self with flash }) ∧
      flash.stored = cvArray ∧ flash.faults = self.flash.faults) ∨
    ∃ flash, (eraseAndProgram cvArray).run self = (.error .panic, { self with flash }) ∧
      (flash = self.flash ∨ Blank flash) := by
  rw [eraseAndProgram]
  rcases flashSafeExecute_cases h (fun _ _ => 0xFF) with herase | herase
  · rw [show RpFlash.blockingErase = RpFlash.operation fun _ _ => 0xFF from rfl,
      Proc.run_bind_of_ok herase, if_pos rfl]
    rcases @flashSafeExecute_cases { self with flash := { self.flash with
        sector := fun _ => 0xFF, operations := self.flash.operations + 1 } } h
      (fun sector i => if h : i.val < CV_SIZE then cvArray ⟨i.val, h⟩ else sector i) with hw | hw
    · exact Or.inl ⟨_, hw, Flash.stored_blockingWrite cvArray
        ⟨fun _ => 0xFF, self.flash.faults, 0⟩ _ _, rfl⟩
    · exact Or.inr ⟨_, hw, Or.inr fun _ => rfl⟩
  · rw [show RpFlash.blockingErase = RpFlash.operation fun _ _ => 0xFF from rfl,
      Proc.run_bind_of_error herase]
    exact Or.inr ⟨self.flash, rfl, Or.inl rfl⟩

/-- Programming an array with the property. -/
theorem ensures_eraseAndProgram (harray : ∀ self : Core0, self.flash.stored = cvArray → P self.cv) :
    Proc.Ensures (fun self => self.Works ∧ Rests P self.flash) (Holds P)
      (fun self => Rests P self.flash) (eraseAndProgram cvArray) := by
  rintro self ⟨hworks, hrests⟩
  rcases eraseAndProgram_cases hworks cvArray with ⟨flash, hrun, hstored, hfaults⟩ |
    ⟨flash, hrun, hflash⟩
  · rw [hrun]
    refine ⟨fun ok s heq => ?_, fun e s heq => by cases heq⟩
    obtain rfl := (Prod.mk.inj heq).2
    refine ⟨fun n => ?_, harray _ hstored⟩
    show flash.faults n = none ∨ flash.faults n = some .powerLoss
    rw [hfaults]
    exact hworks n
  · rw [hrun]
    refine ⟨fun ok s heq => (by cases heq), fun e s heq => ?_⟩
    obtain rfl := (Prod.mk.inj heq).2
    rcases hflash with rfl | hblank
    · exact hrests
    · exact Or.inr hblank

theorem Holds.rests (h : Holds P self) : Rests P self.flash := Or.inl h.2

/-- From CVs with the property. -/
theorem sound_eraseAndProgram (harray : ∀ self : Core0, self.flash.stored = cvArray → P self.cv) :
    Sound P (eraseAndProgram cvArray) :=
  fun self h => ensures_eraseAndProgram harray self ⟨h.1, h.rests⟩

/-! ### Power-ups -/

theorem cv_of_defaults (h : self.flash.stored = CV_ARRAY_DEFAULT board) :
    SameCvs self.cv (cvDefault board.decoderId) := by
  rintro n ⟨h₁, h₂⟩
  have hlt : n - 1 < CV_SIZE := by omega
  rw [cv, cvArrayFlash, dif_pos hlt, h, CV_ARRAY_DEFAULT]
  exact congrArg (cvDefault board.decoderId) (Nat.sub_add_cancel h₁)

theorem ensures_resetCvArrayToDefault (hP : Kept board P) :
    Proc.Ensures (fun self => self.Works ∧ Rests P self.flash) (Holds P)
      (fun self => Rests P self.flash) (resetCvArrayToDefault board) := by
  refine .bind (ensures_eraseAndProgram fun self hstored => ?_) fun ok => .pure _
  exact hP.congr (cv_of_defaults hstored) hP.defaults

theorem sound_adcOffsetAdjustment (hP : Kept board P) :
    Sound P (adcOffsetAdjustment overallAvgOffset) := by
  rintro self h
  rw [adcOffsetAdjustment, Proc.run_gets_bind]
  refine Proc.Ensures.bind (sound_eraseAndProgram fun s hstored => ?_) (fun ok => .pure _) self h
  have hcv := @cv_of_stored self 172 overallAvgOffset s.flash (by decide) (by decide) hstored
  exact hP.congr hcv (hP.offset overallAvgOffset h.2)

/-- An erased sector has no CVs with the property, so it is told from one that
has by CV65, and replaced. -/
theorem ensures_cvSetupCheck (hP : Kept board P) :
    Proc.Ensures (fun self => self.Works ∧ Rests P self.flash) (Holds P)
      (fun self => Rests P self.flash) (cvSetupCheck board overallAvgOffset) := by
  have hcalibrate : Sound P (do
      if (← Proc.gets fun self => self.cvArrayFlash 171) = 0xFF then
        adcOffsetAdjustment overallAvgOffset : Firmware Unit) := by
    refine .bind (.gets _) fun cv₁₇₂ => ?_
    split
    · exact sound_adcOffsetAdjustment hP
    · exact .pure _
  rintro self ⟨hworks, hrests⟩
  rw [cvSetupCheck, Proc.run_gets_bind]
  split
  · exact Proc.Ensures.bind (ensures_resetCvArrayToDefault hP) (fun _ => hcalibrate) self
      ⟨hworks, hrests⟩
  · rename_i h₆₅
    -- the sector is not erased
    have hholds : Holds P self := by
      rcases hrests with hcv | hblank
      · exact ⟨hworks, hcv⟩
      · exact absurd (hblank ⟨64, by decide⟩) h₆₅
    exact hcalibrate self hholds

/-! ### Packets -/

section Evaluate

variable {I Q R : Core0 → Prop} (hI : ∀ s s' : Core0, s'.flash = s.flash → I s → I s')
  (hQ : ∀ s, I s → Q s)

include hI

theorem ensures_byteAt (packet : Message) (i : ℤ) : Proc.Ensures I I R (byteAt packet i) :=
  .bind (.modify fun s h => hI s _ rfl h) fun _ => .pure _

theorem ensures_addressEvaluation (packet : Message) :
    Proc.Ensures I I R (addressEvaluation packet) := by
  have hbyte := @ensures_byteAt I R hI packet
  refine .bind (hbyte _) fun first => ?_
  split
  · exact .pure _
  refine .bind (.gets id) fun self => ?_
  split
  · refine .bind (.bind (hbyte _) fun _ => .pure _) fun long => ?_
    split
    · exact .bind (hbyte _) fun _ => .bind (hbyte _) fun _ => .pure _
    · exact .pure _
  · exact .bind (hbyte _) fun _ => .pure _

include hQ

/-- The program mode, from what it does in a write. -/
theorem ensures_programMode (packet : Message)
    (hwrite : ∀ cvIndex < CV_SIZE, ∀ value,
      Proc.Ensures I Q R (writeCvHandler board overallAvgOffset cvIndex value)) :
    Proc.Ensures I Q R (programMode board overallAvgOffset packet) := by
  have hbyte := @ensures_byteAt I R hI packet
  have hdone : Proc.Ensures I Q R (pure () : Firmware Unit) :=
    .of_ok fun s h => ⟨(), s, rfl, hQ s h⟩
  have hanswer (p : Prop) [Decidable p] :
      Proc.Ensures I Q R (if p then acknowledge else pure () : Firmware Unit) := by
    split
    · exact .modify fun s h => hQ _ (hI s _ rfl h)
    · exact hdone
  -- the CV number of a service packet has ten bits
  have hindex (low first : UInt8) :
      low.toNat + ((0b00000011 : UInt8) &&& first).toNat * 256 < CV_SIZE := by
    have hmask : ∀ b : Fin 256, ((0b00000011 : UInt8) &&& UInt8.ofFin b).toNat ≤ 3 := by
      decide +kernel
    have hfirst : ((0b00000011 : UInt8) &&& first).toNat ≤ 3 := hmask first.toFin
    have hlow := low.toNat_lt
    have hsize : CV_SIZE = 1024 := rfl
    omega
  refine .bind (hbyte _) fun first => ?_
  split
  · refine .bind (hbyte _) fun low => ?_
    simp only
    split
    · exact .bind (hbyte _) fun byte => .bind (.gets id) fun self => hanswer _
    split
    · exact .bind (hbyte _) fun byte => .bind (.gets id) fun self => hanswer _
    split
    · exact .bind (hbyte _) fun byte => hwrite _ (hindex low first) byte
    · exact hdone
  · exact hdone

/-- The evaluation of a packet, from what it does in a write. -/
theorem ensures_evaluatePacket (packet : Message)
    (hwrite : ∀ cvIndex < CV_SIZE, ∀ value,
      Proc.Ensures I Q R (writeCvHandler board overallAvgOffset cvIndex value)) :
    Proc.Ensures I Q R (evaluatePacket board overallAvgOffset packet) := by
  rw [evaluatePacket]
  split
  · refine .bind (ensures_addressEvaluation hI packet) fun addressed => ?_
    split
    · refine .bind (.modify fun s h => hI s _ rfl h) fun _ => .of_ok fun self h => ?_
      obtain ⟨self', hrun, hbut, -⟩ := instructionEvaluation_run board packet self
      exact ⟨(), self', hrun, hQ _ (hI self self' hbut.flash h)⟩
    refine .bind (.gets id) fun self => ?_
    split
    · exact ensures_programMode hI hQ packet hwrite
    · have hcheck : Proc.Ensures I I R (resetMessageCheck board packet) := .of_ok fun self h => by
        obtain ⟨l, self', hrun, hbut, -⟩ := resetMessageCheck_run board packet self
        exact ⟨_, self', hrun, hI self self' hbut.flash h⟩
      exact .bind hcheck fun flag => .modify fun s h => hQ _ (hI s _ rfl h)
  · exact .of_ok fun s h => ⟨(), s, rfl, hQ s h⟩

end Evaluate

theorem Holds.of_flash {self' : Core0} (hflash : self'.flash = self.flash) (h : Holds P self) :
    Holds P self' := by
  have hcv : self'.cv = self.cv := by
    funext n
    rw [cv, cv, cvArrayFlash, cvArrayFlash, hflash]
  rw [Holds, Works, hflash, hcv]
  exact h

/-- A write that is accepted. -/
theorem ends_writeCvByte (hP : Kept board P) (hW : Written P) {cvIndex : ℕ} {value : UInt8}
    (hindex : cvIndex < CV_SIZE) (h : Holds P self)
    (ha : WriteAccepted self.cv (cvIndex + 1) value) :
    Proc.Ends (Holds P) (fun self => Rests P self.flash)
      ((writeCvByte cvIndex value).run self) := by
  rw [writeCvByte, Proc.run_gets_bind]
  refine Proc.Ensures.bind (sound_eraseAndProgram fun s hstored => ?_) (fun ok => ?_) self h
  · have hcv := @cv_of_stored self (cvIndex + 1) value s.flash (Nat.le_add_left 1 _) hindex hstored
    exact hP.congr hcv (hW (Nat.le_add_left 1 _) hindex ha h.2)
  · cases ok
    · exact .pure _
    · exact .modify fun _ h => h

/-- What a write comes to: the byte is written, the offset measured, the CVs
reset, or nothing is done. -/
theorem writeCvHandler_ends {E : Except (Fault Empty) Unit × Core0 → Prop} {cvIndex : ℕ}
    {value : UInt8} (hwrite : WriteAccepted self.cv (cvIndex + 1) value →
      E ((writeCvByte cvIndex value).run self))
    (hcalibrate : E ((adcOffsetAdjustment overallAvgOffset).run self))
    (hreset : E ((resetCvArrayToDefault board).run self)) (hnothing : E (.ok (), self)) :
    E ((writeCvHandler board overallAvgOffset cvIndex value).run self) := by
  obtain ⟨a, rfl, h₁⟩ : ∃ a, cvIndex = a - 1 ∧ 1 ≤ a := ⟨cvIndex + 1, rfl, Nat.le_add_left 1 _⟩
  rw [Nat.sub_add_cancel h₁] at hwrite
  by_cases ha : WriteAccepted self.cv a value
  · rw [writeCvHandler_accepted h₁ ha]
    exact hwrite ha
  rcases not_writeAccepted_iff.mp ha with hrejected | rfl | rfl | hignored
  · rwa [writeCvHandler_rejected hrejected]
  · rw [writeCvHandler_version]
    split
    · exact hcalibrate
    · exact hnothing
  · rw [writeCvHandler_id]
    split
    · exact hreset
    · exact hnothing
  · rwa [writeCvHandler_ignored hignored]

theorem sound_writeCvHandler (hP : Kept board P) (hW : Written P) {cvIndex : ℕ}
    (hindex : cvIndex < CV_SIZE) (value : UInt8) :
    Sound P (writeCvHandler board overallAvgOffset cvIndex value) := by
  intro self h
  refine writeCvHandler_ends (E := Proc.Ends (Holds P) fun self => Rests P self.flash)
    (fun ha => ends_writeCvByte hP hW hindex h ha) (sound_adcOffsetAdjustment hP self h)
    (ensures_resetCvArrayToDefault hP self ⟨h.1, h.rests⟩) ?_
  exact Proc.Ensures.pure () self h

theorem sound_evaluatePacket (hP : Kept board P) (hW : Written P) (packet : Message) :
    Sound P (evaluatePacket board overallAvgOffset packet) :=
  ensures_evaluatePacket (fun _ _ hflash h => h.of_flash hflash) (fun _ h => h) packet
    fun _ hindex value => sound_writeCvHandler hP hW hindex value

/-! ### Runs -/

/-- The decoder without power, or core 0 in its endless loop. -/
inductive Power
  | off (flash : RpFlash)
  | on (self : Core0)

namespace Power

inductive Label
  | powerUp (faults : ℕ → Option FlashFault) (overallAvgOffset : UInt8)
  | packet (message : Message) (overallAvgOffset : UInt8)
  | powerDown

/-- Where a procedure ends. -/
def ended : Except (Fault Empty) Unit × Core0 → Power
  | (.ok _, self) => .on self
  | (.error _, self) => .off self.flash

/-- What the decoder can do. -/
inductive Step (board : Board) : Power → Label → Power → Prop
  | powerUp (flash : RpFlash) (faults : ℕ → Option FlashFault) (overallAvgOffset : UInt8) :
      Step board (.off flash) (.powerUp faults overallAvgOffset)
        (ended ((cvSetupCheck board overallAvgOffset).run (boot { flash with faults })))
  | packet (self : Core0) (message : Message) (overallAvgOffset : UInt8) :
      Step board (.on self) (.packet message overallAvgOffset)
        (ended ((evaluatePacket board overallAvgOffset message).run self))
  | powerDown (self : Core0) : Step board (.on self) .powerDown (.off self.flash)

theorem Step.packet_eq {self : Core0} {message : Message} {overallAvgOffset : UInt8} {s : Power}
    (h : Step board (.on self) (.packet message overallAvgOffset) s) :
    s = ended ((evaluatePacket board overallAvgOffset message).run self) := by
  cases h
  rfl

/-- Operations fail by losses of power only. -/
def Label.LossOnly : Label → Prop
  | .powerUp faults _ => ∀ n, faults n = none ∨ faults n = some .powerLoss
  | _ => True

def Label.IsPacket : Label → Prop
  | .packet _ _ => True
  | _ => False

/-- The property holds, or will when the defaults are restored. -/
def Secures (P : (ℕ → UInt8) → Prop) : Power → Prop
  | .off flash => Rests P flash
  | .on self => Holds P self

variable {s s' : Power} {i : Label} {t : List (Event Power Label)} {flash : RpFlash}

theorem secures_ended {r : Except (Fault Empty) Unit × Core0}
    (h : Proc.Ends (Holds P) (fun self => Rests P self.flash) r) : Secures P (ended r) := by
  obtain ⟨result, self⟩ := r
  cases result with
  | ok u => exact h.1 u self rfl
  | error e => exact h.2 e self rfl

theorem secures_step (hP : Kept board P) (hstep : Step board s i s') (hloss : i.LossOnly)
    (hW : i.IsPacket → Written P) (h : Secures P s) : Secures P s' := by
  cases hstep with
  | powerUp flash faults overallAvgOffset =>
    exact secures_ended (ensures_cvSetupCheck hP _ ⟨hloss, h⟩)
  | packet self message overallAvgOffset =>
    exact secures_ended (sound_evaluatePacket hP (hW trivial) message self h)
  | powerDown self => exact h.rests

theorem secures_run (hP : Kept board P) (h : Run (Step board) s t s')
    (hloss : ∀ e ∈ t, e.label.LossOnly) (hW : ∀ e ∈ t, e.label.IsPacket → Written P)
    (hs : Secures P s) : Secures P s' :=
  (h.invariant_on (I := Secures P)
    (C := fun e => e.label.LossOnly ∧ (e.label.IsPacket → Written P))
    (fun _ hC hstep => secures_step hP hstep hC.1 hC.2) hs
    fun e he => ⟨hloss e he, hW e he⟩).1

/-! ### The addresses -/

/-- The decoder has an address, and the CVs that are read only have their
defaults. -/
structure Configured (board : Board) (cvs : ℕ → UInt8) : Prop where
  address : Handler.AddressValid cvs
  readOnly {a : ℕ} : a = 7 ∨ a = 8 ∨ a = 31 ∨ a = 32 → cvs a = cvDefault board.decoderId a

theorem kept_configured : Kept board (Configured board) where
  congr := by
    rintro cvs cvs' hsame ⟨hvalid, hreadOnly⟩
    have heq {a : ℕ} (h₁ : 1 ≤ a) (h₂ : a ≤ 1024) : cvs' a = cvs a := hsame ⟨h₁, h₂⟩
    obtain ⟨hp, hm, he⟩ := hvalid
    rw [← heq (by decide) (by decide)] at hp hm he
    rw [← heq (a := 18) (by decide) (by decide)] at he
    exact ⟨⟨hp, hm, he⟩, fun ha => (heq (by omega) (by omega)).trans (hreadOnly ha)⟩
  defaults := by
    have hprimary : (1 : UInt8) ≤ 3 ∧ (3 : UInt8) ≤ 127 := by decide
    have hextended : (192 : UInt8) ≤ 195 ∧ (195 : UInt8) ≤ 231 := by decide
    exact ⟨⟨hprimary, hextended, fun he => absurd he.1 (by decide : (195 : UInt8) ≠ 192)⟩,
      fun _ => rfl⟩
  offset := by
    rintro cvs overallAvgOffset ⟨hvalid, hreadOnly⟩
    refine ⟨Handler.addressValid_update hvalid ?_, fun ha => ?_⟩
    · rw [Handler.Rejected]
      omega
    · rw [Function.update_of_ne (by omega)]
      exact hreadOnly ha

theorem written_configured : Written (Configured board) := by
  rintro cvs a value - - ⟨hne, hnr⟩ ⟨hvalid, hreadOnly⟩
  refine ⟨Handler.addressValid_update hvalid hnr, fun {b} hb => ?_⟩
  rw [Function.update_of_ne (by omega)]
  exact hreadOnly hb

/-- The same CVs, but for the offset that is calibrated. -/
def SameConfig (cvs cvs' : ℕ → UInt8) : Prop := Set.EqOn cvs cvs' (Set.Icc 1 CV_SIZE \ {172})

theorem kept_sameConfig (cvs : ℕ → UInt8) :
    Kept board fun cvs' => SameConfig cvs' (cvDefault board.decoderId) ∨ SameConfig cvs' cvs := by
  have hcongr {cvs₁ cvs₂ cvs₃ : ℕ → UInt8} (hsame : SameCvs cvs₂ cvs₁) (h : SameConfig cvs₁ cvs₃) :
      SameConfig cvs₂ cvs₃ := fun n hn => (hsame hn.1).trans (h hn)
  have hoffset {cvs₁ cvs₃ : ℕ → UInt8} (overallAvgOffset : UInt8) (h : SameConfig cvs₁ cvs₃) :
      SameConfig (Function.update cvs₁ 172 overallAvgOffset) cvs₃ := fun n hn =>
    (Function.update_of_ne hn.2 _ _).trans (h hn)
  exact ⟨fun hsame => Or.imp (hcongr hsame) (hcongr hsame), Or.inl fun _ _ => rfl,
    fun overallAvgOffset => Or.imp (hoffset overallAvgOffset) (hoffset overallAvgOffset)⟩

/-- A loss during the procedure leaves the flash as it was, or erased. -/
abbrev Atomic (flash : RpFlash) {α : Type} (x : Firmware α) : Prop :=
  Proc.Ensures (fun self => self.Works ∧ self.flash = flash) Works
    (fun self => self.flash = flash ∨ Blank self.flash) x

theorem atomic_eraseAndProgram (flash : RpFlash) (cvArray : CvArray) :
    Atomic flash (eraseAndProgram cvArray) := by
  rintro self ⟨hworks, rfl⟩
  rcases eraseAndProgram_cases hworks cvArray with ⟨flash, hrun, -, hfaults⟩ | ⟨flash, hrun, hflash⟩
  · rw [hrun]
    refine ⟨fun ok s heq n => ?_, fun e s heq => by cases heq⟩
    rw [← (Prod.mk.inj heq).2]
    show flash.faults n = none ∨ flash.faults n = some .powerLoss
    rw [hfaults]
    exact hworks n
  · rw [hrun]
    refine ⟨fun ok s heq => (by cases heq), fun e s heq => ?_⟩
    rw [← (Prod.mk.inj heq).2]
    exact hflash

theorem atomic_evaluatePacket (flash : RpFlash) (packet : Message) :
    Atomic flash (evaluatePacket board overallAvgOffset packet) := by
  refine ensures_evaluatePacket (fun s s' hflash h => ?_) (fun s h => h.1) packet
    fun cvIndex hindex value self h => ?_
  · rw [Works, hflash]
    exact h
  have hprogram (cvArray : CvArray) : Atomic flash (do
      let _ ← eraseAndProgram cvArray : Firmware Unit) :=
    .bind (atomic_eraseAndProgram flash cvArray) fun _ => .pure ()
  refine writeCvHandler_ends
    (E := Proc.Ends Works fun self => self.flash = flash ∨ Blank self.flash)
    (fun _ => ?_) ?_ (hprogram _ self h) ?_
  · rw [writeCvByte, Proc.run_gets_bind]
    refine Proc.Ensures.bind (atomic_eraseAndProgram flash _) (fun ok => ?_) self h
    cases ok
    · exact .pure _
    · exact .modify fun _ h => h
  · rw [adcOffsetAdjustment, Proc.run_gets_bind]
    exact hprogram _ self h
  · exact Proc.Ensures.pure () self h.1

/-- A sector from the factory. -/
def factoryFlash : RpFlash := ⟨fun _ => 0xFF, fun _ => none, 0⟩

/-- The power is lost between the erase and the program of the first write. -/
def lossyFaults : ℕ → Option FlashFault := fun n => if n = 5 then some .powerLoss else none

/-- CV3 is set to 42. -/
def writeCv₃ : Message := ⟨[0x54, 0x2A, 0x02, 0x7C], fun _ => 0⟩

/-- Core 0 after the first power-up. -/
def factoryCore : Core0 :=
  ((cvSetupCheck board₀ 10).run (boot { factoryFlash with faults := lossyFaults })).2

/-- After a reset packet. -/
def lossyCore : Core0 := ((evaluatePacket board₀ 0 ⟨[0, 0, 0], fun _ => 0⟩).run factoryCore).2

/-- The flash the write leaves. -/
def lostFlash : RpFlash := ((evaluatePacket board₀ 0 writeCv₃).run lossyCore).2.flash

/-- Core 0 after the next power-up. -/
def recoveredCore : Core0 :=
  ((cvSetupCheck board₀ 10).run (boot { lostFlash with faults := fun _ => none })).2

theorem step_lossy : Step board₀ (.on lossyCore) (.packet writeCv₃ 0) (.off lostFlash) :=
  .packet lossyCore writeCv₃ 0

theorem step_recovered : Step board₀ (.off lostFlash) (.powerUp (fun _ => none) 10)
    (.on recoveredCore) := .powerUp lostFlash _ 10

theorem lossOnly_lossyFaults : (Label.powerUp lossyFaults 10).LossOnly := by
  intro n
  rw [lossyFaults]
  split
  · exact Or.inr rfl
  · exact Or.inl rfl

end Power

end Core0

end Rp2040
