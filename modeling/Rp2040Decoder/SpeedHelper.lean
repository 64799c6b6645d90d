/-
The C firmware's speed helper (`speed_helper` in `Software/core1.c`).

The index into the speed table follows the target one entry at a time.  A call
compares the counter for equality with the rate that applies now, so a counter
that an earlier ramp left above that rate runs all the way round.

* `iterate_wait` — calls that only count;
* `movesWithin_iff` — when the index moves as soon as the rate promises;
* `Timely.call` — with fixed rates no call takes the counter above them;
* `movesWithin_of_run` — the states of every run.
-/
import Mathlib.Logic.Function.Iterate
import Rp2040Decoder.Core0
import Rp2040Decoder.Runs

namespace Rp2040

open Core0 Transition

/-- The statics of `speed_helper`, the targets it reads and the setpoint. -/
structure SpeedHelper where
  speedStepTarget : UInt8
  speedStepTargetPrev : UInt8
  speedHelperCounter : UInt8
  speedTableIndex : UInt8
  setpoint : UInt32
  deriving DecidableEq, Repr

/-- `get_speed_step_table_index_of_speed_step` -/
def getSpeedStepTableIndexOfSpeedStep (speedStep : UInt8) : UInt8 :=
  -- clear direction information in bit 7
  let speedStep := speedStep &&& 0b01111111
  if speedStep = 0 ∨ speedStep = 1 then 0 else speedStep - 1

namespace SpeedHelper

/-- At startup. -/
def boot : SpeedHelper := ⟨0, 0, 0, 0, 0⟩

/-- `speed_step_table_end_index` -/
def endIndex (self : SpeedHelper) : UInt8 :=
  getSpeedStepTableIndexOfSpeedStep self.speedStepTarget

/-- `direction_changed` -/
def directionChanged (self : SpeedHelper) : Bool :=
  getDirectionOfSpeedStep self.speedStepTarget != getDirectionOfSpeedStep self.speedStepTargetPrev

/-- The target is an emergency stop. -/
def Emergency (self : SpeedHelper) : Prop :=
  self.speedStepTarget = SPEED_STEP_FORWARD_EMERGENCY_STOP ∨
    self.speedStepTarget = SPEED_STEP_REVERSE_EMERGENCY_STOP

instance (self : SpeedHelper) : Decidable self.Emergency := inferInstanceAs (Decidable (_ ∨ _))

/-- Go to an entry of the table, and start counting again. -/
def adjust (speedTable : UInt8 → UInt16) (index : UInt8) (self : SpeedHelper) : SpeedHelper :=
  { self with
    speedTableIndex := index
    setpoint := (speedTable index).toUInt32
    speedHelperCounter := 0 }

/-- `speed_helper`; the rates are CV3 and CV4. -/
def speedHelper (speedTable : UInt8 → UInt16) (accelRate decelRate : UInt8) (self : SpeedHelper) :
    SpeedHelper :=
  if self.Emergency then self.adjust speedTable 0
  else if self.speedTableIndex < self.endIndex ∧ self.speedHelperCounter = accelRate then
    -- acceleration
    self.adjust speedTable (if accelRate = 0 then self.endIndex else self.speedTableIndex + 1)
  else if self.endIndex < self.speedTableIndex ∧ self.speedHelperCounter = decelRate then
    -- deceleration
    self.adjust speedTable (if decelRate = 0 then self.endIndex else self.speedTableIndex - 1)
  else if self.directionChanged then
    -- jump to the most recent speed step without delay
    self.adjust speedTable self.endIndex
  else if self.endIndex ≠ self.speedTableIndex then
    { self with speedHelperCounter := self.speedHelperCounter + 1 }
  else { self with speedHelperCounter := 0 }

variable {speedTable : UInt8 → UInt16} {accelRate decelRate : UInt8} {self : SpeedHelper}

/-! ### A target that stays -/

/-- The index has a way to go to a target that is no emergency stop, in the
direction of before. -/
structure Approaching (helper : SpeedHelper) : Prop where
  running : ¬ helper.Emergency
  sameDirection : helper.directionChanged = false
  ne : helper.endIndex ≠ helper.speedTableIndex

/-- The rate that applies. -/
def rate (accelRate decelRate : UInt8) (self : SpeedHelper) : UInt8 :=
  if self.speedTableIndex < self.endIndex then accelRate else decelRate

/-- `index` is nearer to the target than the index is now, and not beyond it. -/
def Toward (self : SpeedHelper) (index : UInt8) : Prop :=
  (self.speedTableIndex < index ∧ index ≤ self.endIndex) ∨
    (self.endIndex ≤ index ∧ index < self.speedTableIndex)

instance (self : SpeedHelper) (index : UInt8) : Decidable (self.Toward index) :=
  inferInstanceAs (Decidable (_ ∨ _))

/-- Within `k` calls the index moves toward the target. -/
def MovesWithin (speedTable : UInt8 → UInt16) (accelRate decelRate : UInt8) (k : ℕ)
    (self : SpeedHelper) : Prop :=
  ∃ n ≤ k, self.Toward ((speedHelper speedTable accelRate decelRate)^[n] self).speedTableIndex

/-- The way to go does not depend on the counter. -/
theorem Approaching.setCounter (h : self.Approaching) (counter : UInt8) :
    Approaching { self with speedHelperCounter := counter } :=
  ⟨h.running, h.sameDirection, h.ne⟩

theorem rate_setCounter (counter : UInt8) :
    rate accelRate decelRate { self with speedHelperCounter := counter } =
      self.rate accelRate decelRate := rfl

theorem toward_setCounter (counter index : UInt8) :
    Toward { self with speedHelperCounter := counter } index ↔ self.Toward index := Iff.rfl

theorem lt_of_not_lt (h : self.Approaching) (hlt : ¬ self.speedTableIndex < self.endIndex) :
    self.endIndex < self.speedTableIndex :=
  UInt8.lt_of_le_of_ne (UInt8.not_lt.mp hlt) h.ne

/-- Below or above the rate, a call counts. -/
theorem speedHelper_wait (h : self.Approaching)
    (hrate : self.speedHelperCounter ≠ self.rate accelRate decelRate) :
    self.speedHelper speedTable accelRate decelRate =
      { self with speedHelperCounter := self.speedHelperCounter + 1 } := by
  have hup : ¬ (self.speedTableIndex < self.endIndex ∧ self.speedHelperCounter = accelRate) := by
    rintro ⟨hlt, hcounter⟩
    rw [rate, if_pos hlt] at hrate
    exact hrate hcounter
  have hdown : ¬ (self.endIndex < self.speedTableIndex ∧ self.speedHelperCounter = decelRate) := by
    rintro ⟨hlt, hcounter⟩
    rw [rate, if_neg (UInt8.lt_asymm hlt)] at hrate
    exact hrate hcounter
  rw [speedHelper, if_neg h.running, if_neg hup, if_neg hdown, h.sameDirection,
    if_neg Bool.false_ne_true, if_pos h.ne]

/-- At the rate, a call moves the index. -/
theorem speedHelper_move (h : self.Approaching)
    (hrate : self.speedHelperCounter = self.rate accelRate decelRate) :
    self.Toward (self.speedHelper speedTable accelRate decelRate).speedTableIndex := by
  have hne := h.ne
  by_cases hlt : self.speedTableIndex < self.endIndex
  · rw [rate, if_pos hlt] at hrate
    rw [speedHelper, if_neg h.running, if_pos ⟨hlt, hrate⟩]
    refine Or.inl ?_
    show self.speedTableIndex < (if _ then _ else _) ∧ (if _ then _ else _) ≤ self.endIndex
    split
    · exact ⟨hlt, UInt8.le_refl _⟩
    · rw [UInt8.lt_iff_toNat_lt] at hlt
      rw [UInt8.lt_iff_toNat_lt, UInt8.le_iff_toNat_le, UInt8.toNat_add]
      have hend := self.endIndex.toNat_lt
      show _ < (_ + 1) % 256 ∧ (_ + 1) % 256 ≤ _
      omega
  · have hgt := lt_of_not_lt h hlt
    rw [rate, if_neg hlt] at hrate
    rw [speedHelper, if_neg h.running, if_neg (fun hup => hlt hup.1), if_pos ⟨hgt, hrate⟩]
    refine Or.inr ?_
    show self.endIndex ≤ (if _ then _ else _) ∧ (if _ then _ else _) < self.speedTableIndex
    split
    · exact ⟨UInt8.le_refl _, hgt⟩
    · rw [UInt8.lt_iff_toNat_lt] at hgt
      rw [UInt8.lt_iff_toNat_lt, UInt8.le_iff_toNat_le, UInt8.toNat_sub]
      have hindex := self.speedTableIndex.toNat_lt
      show _ ≤ (256 - 1 + _) % 256 ∧ (256 - 1 + _) % 256 < _
      omega

/-- Calls that only count: the rate is not met before the `n`-th. -/
theorem iterate_wait (h : self.Approaching) (n : ℕ)
    (hn : ∀ j < n, self.speedHelperCounter + UInt8.ofNat j ≠ self.rate accelRate decelRate) :
    (speedHelper speedTable accelRate decelRate)^[n] self =
      { self with speedHelperCounter := self.speedHelperCounter + UInt8.ofNat n } := by
  induction n with
  | zero =>
    show self = { self with speedHelperCounter := self.speedHelperCounter + 0 }
    rw [UInt8.add_zero]
  | succ n ih =>
    have hwait : ∀ counter, counter ≠ self.rate accelRate decelRate →
        speedHelper speedTable accelRate decelRate { self with speedHelperCounter := counter } =
          { self with speedHelperCounter := counter + 1 } :=
      fun counter hcounter => speedHelper_wait (h.setCounter counter) hcounter
    rw [Function.iterate_succ_apply', ih fun j hj => hn j (Nat.lt_succ_of_lt hj),
      hwait _ (hn n (Nat.lt_succ_self n)), UInt8.ofNat_add, UInt8.add_assoc]
    rfl

theorem toNat_counter (counter : UInt8) (j : ℕ) :
    (counter + UInt8.ofNat j).toNat = (counter.toNat + j) % 256 := by
  rw [UInt8.toNat_add, UInt8.toNat_ofNat', Nat.add_mod_mod]

/-- The index moves within one call more than the rate says exactly when the
counter is not above that rate. -/
theorem movesWithin_iff (h : self.Approaching) :
    self.MovesWithin speedTable accelRate decelRate ((self.rate accelRate decelRate).toNat + 1) ↔
      self.speedHelperCounter ≤ self.rate accelRate decelRate := by
  have hcounter := self.speedHelperCounter.toNat_lt
  have hrate := (self.rate accelRate decelRate).toNat_lt
  rw [UInt8.le_iff_toNat_le]
  constructor
  · rintro ⟨n, hn, htoward⟩
    by_contra hgt
    -- from above the rate the counter does not come round in time
    rw [iterate_wait h n] at htoward
    · rcases htoward with ⟨hlt, -⟩ | ⟨-, hlt⟩
      · exact UInt8.lt_irrefl _ hlt
      · exact UInt8.lt_irrefl _ hlt
    · intro j hj heq
      have htoNat := congrArg UInt8.toNat heq
      rw [toNat_counter] at htoNat
      omega
  · intro hle
    obtain ⟨n, hn⟩ := Nat.exists_eq_add_of_le hle
    refine ⟨n + 1, by omega, ?_⟩
    rw [Function.iterate_succ_apply', iterate_wait h n, ← toward_setCounter]
    · refine speedHelper_move (h.setCounter _) ?_
      rw [rate_setCounter, ← UInt8.toNat_inj, toNat_counter]
      omega
    · intro j hj heq
      have htoNat := congrArg UInt8.toNat heq
      rw [toNat_counter] at htoNat
      omega

/-! ### Runs -/

/-- A speed packet, or a call with the rates of that time. -/
inductive Action
  | target (speedStep : UInt8)
  | call (accelRate decelRate : UInt8)

def next (speedTable : UInt8 → UInt16) (self : SpeedHelper) : Action → SpeedHelper
  | .target speedStep =>
    { self with speedStepTargetPrev := self.speedStepTarget, speedStepTarget := speedStep }
  | .call accelRate decelRate => self.speedHelper speedTable accelRate decelRate

/-- The counter is not above the rate for the way to go. -/
def Timely (accelRate decelRate : UInt8) (self : SpeedHelper) : Prop :=
  self.Approaching → self.speedHelperCounter ≤ self.rate accelRate decelRate

/-- A call with these rates, or a target that finds the counter not above the
rate for it. -/
def TimelyAction (accelRate decelRate : UInt8) (e : Event SpeedHelper Action) : Prop :=
  match e.label with
  | .target _ => e.post.Timely accelRate decelRate
  | .call accelRate' decelRate' => accelRate' = accelRate ∧ decelRate' = decelRate

/-- A call clears the counter, or counts below or above the rate. -/
theorem counter_cases (speedTable : UInt8 → UInt16) (accelRate decelRate : UInt8)
    (self : SpeedHelper) :
    (self.speedHelper speedTable accelRate decelRate).speedHelperCounter = 0 ∨
    (self.Approaching ∧ self.speedHelperCounter ≠ self.rate accelRate decelRate) := by
  by_cases hemergency : self.Emergency
  · rw [speedHelper, if_pos hemergency]
    exact Or.inl rfl
  by_cases hup : self.speedTableIndex < self.endIndex ∧ self.speedHelperCounter = accelRate
  · rw [speedHelper, if_neg hemergency, if_pos hup]
    exact Or.inl rfl
  by_cases hdown : self.endIndex < self.speedTableIndex ∧ self.speedHelperCounter = decelRate
  · rw [speedHelper, if_neg hemergency, if_neg hup, if_pos hdown]
    exact Or.inl rfl
  rw [speedHelper, if_neg hemergency, if_neg hup, if_neg hdown]
  split
  · exact Or.inl rfl
  · rename_i hdirection
    split
    · rename_i hne
      refine Or.inr ⟨⟨hemergency, Bool.not_eq_true _ ▸ hdirection, hne⟩, fun hcounter => ?_⟩
      rw [rate] at hcounter
      split at hcounter
      · rename_i hlt
        exact hup ⟨hlt, hcounter⟩
      · rename_i hlt
        exact hdown ⟨UInt8.lt_of_le_of_ne (UInt8.not_lt.mp hlt) hne, hcounter⟩
    · exact Or.inl rfl

theorem timely_of_counter (h : self.speedHelperCounter = 0) : self.Timely accelRate decelRate := by
  intro _
  rw [h]
  exact UInt8.zero_le

/-- A call leaves the counter at the rate at most. -/
theorem Timely.call (h : self.Timely accelRate decelRate) :
    (self.speedHelper speedTable accelRate decelRate).Timely accelRate decelRate := by
  obtain hzero | ⟨happroaching, hrate⟩ := counter_cases speedTable accelRate decelRate self
  · exact timely_of_counter hzero
  · have hle := UInt8.le_iff_toNat_le.mp (h happroaching)
    have hne : self.speedHelperCounter.toNat ≠ (self.rate accelRate decelRate).toNat :=
      fun heq => hrate (UInt8.toNat_inj.mp heq)
    have hlt := (self.rate accelRate decelRate).toNat_lt
    rw [speedHelper_wait happroaching hrate]
    intro _
    rw [UInt8.le_iff_toNat_le, UInt8.toNat_add]
    show (self.speedHelperCounter.toNat + 1) % 256 ≤ (self.rate accelRate decelRate).toNat
    omega

theorem timely_of_run {t : List (Event SpeedHelper Action)}
    (hrun : Run (fun h a h' => next speedTable h a = h') boot t self)
    (ht : ∀ e ∈ t, TimelyAction accelRate decelRate e) : self.Timely accelRate decelRate := by
  refine (hrun.invariant_on (I := Timely accelRate decelRate)
    (C := TimelyAction accelRate decelRate) ?_ (timely_of_counter rfl) ht).1
  rintro ⟨s, a, s'⟩ htimely hstep hs
  cases a with
  | target speedStep => exact htimely
  | call accelRate' decelRate' =>
    obtain ⟨rfl, rfl⟩ := htimely
    obtain rfl : next speedTable s (.call _ _) = s' := hstep
    exact hs.call

/-- **The speed helper.**  In every state that a run reaches, a target that
stays is approached within one call more than the rate says exactly when the
counter is not above that rate.  So it is after every run with fixed rates in
which each target finds the counter not above the rate for it. -/
theorem movesWithin_of_run {t : List (Event SpeedHelper Action)}
    (hrun : Run (fun h a h' => next speedTable h a = h') boot t self) (h : self.Approaching)
    (accelRate decelRate : UInt8) :
    (self.MovesWithin speedTable accelRate decelRate
        ((self.rate accelRate decelRate).toNat + 1) ↔
      self.speedHelperCounter ≤ self.rate accelRate decelRate) ∧
    ((∀ e ∈ t, TimelyAction accelRate decelRate e) →
      self.MovesWithin speedTable accelRate decelRate
        ((self.rate accelRate decelRate).toNat + 1)) :=
  ⟨movesWithin_iff h, fun ht => (movesWithin_iff h).mpr (timely_of_run hrun ht h)⟩

/-- Speed step 2 as the first target, at rates of 5. -/
theorem movesWithin_of_run_first :
    MovesWithin (fun i => i.toUInt16) 5 5 6 ⟨0x03, 0x00, 0, 0, 0⟩ :=
  (movesWithin_of_run (t := [⟨boot, .target 0x03, _⟩]) (Run.single rfl)
    ⟨by decide, by decide, by decide⟩ 5 5).1.mpr (by decide)

/-- At an acceleration rate of 10 and a deceleration rate of 2, the target
falls to a stop while the counter is at 5. -/
theorem not_movesWithin_reversed :
    ∃ t self, Run (fun h a h' => next (fun i => i.toUInt16) h a = h') boot t self ∧
      self.Approaching ∧ self.endIndex < self.speedTableIndex ∧
      ¬ self.MovesWithin (fun i => i.toUInt16) 10 2 (2 + 1) := by
  obtain ⟨t, hrun⟩ := Run.of_foldl (next fun i => i.toUInt16) boot
    (.target 0x05 :: List.replicate 16 (.call 10 2) ++ [.target 0x00])
  have happroaching : (⟨0x00, 0x05, 5, 1, 1⟩ : SpeedHelper).Approaching :=
    ⟨by decide, by decide, by decide⟩
  refine ⟨t, ⟨0x00, 0x05, 5, 1, 1⟩, hrun, happroaching, by decide, fun hmoves => ?_⟩
  have hcounter := (movesWithin_iff happroaching).mp hmoves
  revert hcounter
  decide

end SpeedHelper

end Rp2040
