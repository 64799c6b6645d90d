/-
Index bounds of the acceleration helper over runs of calls.

The decrement in `Helper.step` is reached with index 0 in exactly one
situation, the *stopped reversal*: a standing motor is asked to stand in the
other direction.  Everything else keeps the index between zero and the larger
of the current and the target index.

* `step_ok` — one step outside a stopped reversal;
* `step_dev_stoppedReversal` — one step in it;
* `calls_bounded_iff` — runs of `set_target`, `step` and `reset` calls.
-/
import Rp2040Decoder.Accel

namespace Rp2040.Accel

open Transition

namespace Helper

/-- A motor that stands still is asked to stand still in the other direction,
with a deceleration rate set. -/
def StoppedReversal (h : Helper) : Prop :=
  h.config.decelRate ≠ 0 ∧ h.current.direction ≠ h.target.direction ∧
    h.current.speedStep.idx = 0 ∧ h.target.speedStep.idx = 0 ∧
    h.target.speedStep ≠ .emergencyStop

instance (h : Helper) : Decidable h.StoppedReversal := by
  unfold StoppedReversal
  infer_instance

/-- The larger of the two indices a step moves between. -/
def peak (h : Helper) : ℕ :=
  max h.current.speedStep.idx.toNat h.target.speedStep.idx.toNat

theorem switchDirection_cases (h : Helper) :
    (h.switchDirection = h.current ∧
      (h.current.direction = h.target.direction ∨ h.current.speedStep.idx ≠ 0)) ∨
    (h.switchDirection = ⟨.stop, h.target.direction⟩ ∧
      h.current.direction ≠ h.target.direction ∧
      (h.config.decelRate = 0 ∨ h.current.speedStep.idx = 0)) := by
  by_cases hd : h.current.direction ≠ h.target.direction
  · by_cases hz : h.config.decelRate = 0 ∨ h.current.speedStep.idx = 0
    · exact Or.inr ⟨by rw [switchDirection, if_pos hd, if_pos hz], hd, hz⟩
    · refine Or.inl ⟨by rw [switchDirection, if_pos hd, if_neg hz], Or.inr ?_⟩
      exact fun h0 => hz (Or.inr h0)
  · exact Or.inl ⟨by rw [switchDirection, if_neg hd], Or.inl (not_not.mp hd)⟩

/-- Where the direction does not switch, it is the target's, or the motor is
decelerated first. -/
theorem direction_of_switchDirection {h : Helper} (hc : h.switchDirection = h.current) :
    h.current.direction = h.target.direction ∨
      (h.config.decelRate ≠ 0 ∧ h.current.speedStep.idx ≠ 0) := by
  by_cases hd : h.current.direction = h.target.direction
  · exact Or.inl hd
  · refine Or.inr (not_or.mp fun hz => hd ?_)
    rw [switchDirection, if_pos hd, if_pos hz] at hc
    rw [← hc]

theorem switchDirection_idx_le (h : Helper) :
    h.switchDirection.speedStep.idx.toNat ≤ h.current.speedStep.idx.toNat := by
  rcases h.switchDirection_cases with ⟨hc, -⟩ | ⟨hc, -⟩
  · exact Nat.le_of_eq (congrArg (fun s => s.speedStep.idx.toNat) hc)
  · rw [hc]
    exact Nat.zero_le _

/-- The only way to decelerate from index 0 short of the target is a stopped
reversal. -/
theorem switchDirection_idx_pos {h : Helper}
    (he : h.current.equivalent h.target = false) (hr : ¬ h.StoppedReversal)
    (ht : h.target.speedStep ≠ .emergencyStop)
    (ha : h.accelerating h.switchDirection = false) (hdec : h.config.decelRate ≠ 0) :
    1 ≤ h.switchDirection.speedStep.idx := by
  have he' : ¬ (h.current.speedStep.idx = h.target.speedStep.idx ∧
      h.current.direction = h.target.direction) := by
    rw [← VelocitySetpoint.equivalent_iff, he]
    exact Bool.false_ne_true
  simp only [accelerating, Bool.and_eq_false_iff, decide_eq_false_iff_not] at ha
  rw [UInt8.le_iff_toNat_le]
  by_contra hlt
  have h0 : h.switchDirection.speedStep.idx = 0 :=
    UInt8.toNat_inj.mp (by simpa using hlt)
  rcases h.switchDirection_cases with ⟨hc, hd⟩ | ⟨hc, hd, hz⟩
  · -- the setpoint did not switch: at index 0 it already points the target's way
    rw [hc] at h0 ha
    rcases hd with hd | hd
    · refine he' ⟨?_, hd⟩
      rw [h0] at ha ⊢
      rcases ha with ha | ha
      · rw [UInt8.lt_iff_toNat_lt] at ha
        exact UInt8.toNat_inj.mp (by simp at ha ⊢; omega)
      · exact absurd hd ha
    · exact hd h0
  · rw [hc] at ha
    refine hr ⟨hdec, hd, hz.resolve_left hdec, ?_, ht⟩
    rcases ha with ha | ha
    · rw [UInt8.lt_iff_toNat_lt] at ha
      exact UInt8.toNat_inj.mp (by simp at ha ⊢; omega)
    · exact absurd rfl ha

/-- Outside a stopped reversal the next speed step is computed without an
overflow, the same in both builds, and stays under the peak. -/
theorem nextSpeedStep_ok {h : Helper} (he : h.current.equivalent h.target = false)
    (hr : ¬ h.StoppedReversal) :
    ∃ s : SpeedStep, (∀ p, h.nextSpeedStep p h.switchDirection = some s) ∧
      s.idx.toNat ≤ h.peak := by
  have hle := h.switchDirection_idx_le
  by_cases ht : h.target.speedStep = .emergencyStop
  · exact ⟨.emergencyStop, fun p => by rw [nextSpeedStep, if_pos ht], Nat.zero_le _⟩
  cases ha : h.accelerating h.switchDirection with
  | true =>
    have hlt : h.switchDirection.speedStep.idx.toNat < h.target.speedStep.idx.toNat := by
      simp only [accelerating, Bool.and_eq_true, decide_eq_true_eq] at ha
      exact UInt8.lt_iff_toNat_lt.mp ha.1
    have htgt := h.target.speedStep.idx.toNat_lt
    by_cases hrate : h.config.accelRate > 0
    · refine ⟨.num (h.switchDirection.speedStep.idx + 1), fun p => ?_, ?_⟩
      · rw [nextSpeedStep, if_neg ht, if_pos ha, if_pos hrate,
          p.addU8_of_lt (by simp; omega), Option.map_some]
      · simp only [SpeedStep.idx_num, UInt8.toNat_add, peak, UInt8.reduceToNat]
        omega
    · refine ⟨.num h.target.speedStep.idx, fun p => ?_, ?_⟩
      · rw [nextSpeedStep, if_neg ht, if_pos ha, if_neg hrate]
      · exact Nat.le_max_right _ _
  | false =>
    have ha' : ¬ h.accelerating h.switchDirection = true := by simp [ha]
    by_cases hrate : h.config.decelRate > 0
    · have hdec : h.config.decelRate ≠ 0 := fun h0 => by simp [h0] at hrate
      have hpos := switchDirection_idx_pos he hr ht ha hdec
      refine ⟨.num (h.switchDirection.speedStep.idx - 1), fun p => ?_, ?_⟩
      · rw [nextSpeedStep, if_neg ht, if_neg ha', if_pos hrate,
          p.subU8_of_le hpos, Option.map_some]
      · rw [SpeedStep.idx_num, UInt8.toNat_sub_of_le _ _ hpos, peak]
        omega
    · refine ⟨.num h.target.speedStep.idx, fun p => ?_, ?_⟩
      · rw [nextSpeedStep, if_neg ht, if_neg ha', if_neg hrate]
      · exact Nat.le_max_right _ _

/-- Outside a stopped reversal a step does not overflow, does the same in both
builds, and neither the setpoint it returns nor the one it keeps has an index
above the peak. -/
theorem step_ok {h : Helper} (hr : ¬ h.StoppedReversal) :
    ∃ (r : VelocitySetpoint × Duration) (h' : Helper),
      (∀ p, h.step p = some (r, h')) ∧
      r.1.speedStep.idx.toNat ≤ h.peak ∧ h'.current.speedStep.idx.toNat ≤ h.peak := by
  cases he : h.current.equivalent h.target with
  | true =>
    refine ⟨(h.target, .max), h, fun p => by rw [step, if_pos he], ?_, ?_⟩
    · exact Nat.le_max_right _ _
    · exact Nat.le_max_left _ _
  | false =>
    obtain ⟨s, hs, hle⟩ := nextSpeedStep_ok he hr
    refine ⟨_, _, fun p => step_of_next he (hs p), ?_, hle⟩
    split
    · exact Nat.le_max_right _ _
    · exact hle

/-- In a stopped reversal the checked build panics on the decrement. -/
theorem step_dev_stoppedReversal {h : Helper} (hr : h.StoppedReversal) :
    h.step .dev = none := by
  obtain ⟨hdec, hdir, hcur, htgt, ht⟩ := hr
  have he : ¬ h.current.equivalent h.target = true := by
    rw [VelocitySetpoint.equivalent_iff]
    exact fun h0 => hdir h0.2
  have hsw : h.switchDirection = ⟨.stop, h.target.direction⟩ := by
    rw [switchDirection, if_pos hdir, if_pos (Or.inr hcur)]
  have ha : ¬ h.accelerating h.switchDirection = true := by
    simp [accelerating, hsw, htgt]
  have hrate : h.config.decelRate > 0 := UInt8.pos_iff_ne_zero.mpr hdec
  -- the decrement starts at index 0
  have hn : h.nextSpeedStep .dev h.switchDirection = none := by
    rw [nextSpeedStep, if_neg ht, if_neg ha, if_pos hrate, hsw]
    rfl
  rw [step, if_neg he, hn, Option.map_none]

end Helper

/-! ### Runs of calls -/

/-- One call on the helper. -/
inductive Call
  | setTarget (t : VelocitySetpoint)
  | step
  | reset
  deriving DecidableEq, Repr

/-- What a call does to the helper in the build without overflow checks. -/
def Helper.call (h : Helper) : Call → Option Helper
  | .setTarget t => if t.speedStep.idx.toNat ≤ 126 then some (h.setTarget t) else none
  | .step => (h.step .release).map Prod.snd
  | .reset => some h.reset

/-- A `step` made in state `h` is safe: the checked build does not panic, and
the setpoint returned has an index no greater than the larger of the index
before the step and the index of the target, and never above 126. -/
def Helper.StepBounded (h : Helper) : Prop :=
  (h.step .dev).isSome ∧
    ∀ r h', h.step .release = some (r, h') →
      r.1.speedStep.idx.toNat ≤ h.peak ∧ r.1.speedStep.idx.toNat ≤ 126

theorem Helper.stepBounded_iff {h : Helper} (hp : h.peak ≤ 126) :
    h.StepBounded ↔ ¬ h.StoppedReversal := by
  constructor
  · intro hb hr
    have hsome := hb.1
    rw [Helper.step_dev_stoppedReversal hr] at hsome
    cases hsome
  · intro hr
    obtain ⟨r, h', hs, hle, -⟩ := Helper.step_ok hr
    refine ⟨by rw [hs .dev]; rfl, fun r₁ h₁ hs₁ => ?_⟩
    rw [hs .release, Option.some.injEq, Prod.mk.injEq] at hs₁
    obtain ⟨rfl, rfl⟩ := hs₁
    exact ⟨hle, Nat.le_trans hle hp⟩

/-- Every call but a `step` in a stopped reversal keeps both indices in range. -/
theorem Helper.call_peak_le {h h' : Helper} {c : Call} (hc : h.call c = some h')
    (hr : c = .step → ¬ h.StoppedReversal) (hp : h.peak ≤ 126) : h'.peak ≤ 126 := by
  cases c with
  | setTarget t =>
    simp only [Helper.call, Option.ite_none_right_eq_some, Option.some.injEq] at hc
    obtain ⟨ht, rfl⟩ := hc
    exact Nat.max_le.mpr ⟨(Nat.max_le.mp hp).1, ht⟩
  -- a step moves the current index only, and not past the peak
  | step =>
    obtain ⟨r, h₁, hs, -, hle⟩ := Helper.step_ok (hr rfl)
    rw [Helper.call, hs, Option.map_some, Option.some.injEq] at hc
    subst hc
    rw [Helper.peak, (Helper.step_frame (hs .release)).2]
    exact Nat.max_le.mpr ⟨Nat.le_trans hle hp, (Nat.max_le.mp hp).2⟩
  | reset =>
    rw [Helper.call, Option.some.injEq] at hc
    subst hc
    exact Nat.zero_le _

/-- **Index bounds of the acceleration helper.**  In a run of calls starting
from a new helper every `step` is safe if and only if no `step` is made in a
stopped reversal. -/
theorem calls_bounded_iff {config : Config} {t : List (Event Helper Call)} {h : Helper}
    (hrun : Run (fun h c h' => h.call c = some h') (Helper.new config) t h) :
    (∀ e ∈ t, e.label = .step → e.pre.StepBounded) ↔
      ∀ e ∈ t, e.label = .step → ¬ e.pre.StoppedReversal := by
  constructor
  · intro hb e he hl hr
    have hsome := (hb e he hl).1
    rw [Helper.step_dev_stoppedReversal hr] at hsome
    cases hsome
  · intro hn e he hl
    have hinv := hrun.invariant_on (I := fun h => h.peak ≤ 126)
      (C := fun e => e.label = .step → ¬ e.pre.StoppedReversal)
      (fun _ hC hstep hI => Helper.call_peak_le hstep hC hI) (Nat.zero_le _) hn
    exact (Helper.stepBounded_iff (hinv.2 e he).1).mpr (hn e he hl)

/-- The run of `calls_bounded_iff` on a ramp: forward to step 2 and on up. -/
theorem calls_bounded_ramp :
    ∃ t h, Run (fun h c h' => Helper.call h c = some h') (Helper.new ⟨10, 10, 7000000⟩) t h ∧
      (∀ e ∈ t, e.label = .step → e.pre.StepBounded) ∧
      h.current = ⟨.num 2, .forward⟩ := by
  have hrun := Run.of_exec Helper.call [.setTarget ⟨.num 2, .forward⟩, .step, .step]
    (s := Helper.new ⟨10, 10, 7000000⟩) rfl
  refine ⟨_, _, hrun, (calls_bounded_iff hrun).mpr ?_, rfl⟩
  decide

/-- The motor stands forward and is asked to stand in reverse, with CV4 = 10:
the checked build panics, the other one returns index 255. -/
theorem stopped_reversal_unbounded :
    ∃ t h, Run (fun h c h' => Helper.call h c = some h') (Helper.new ⟨10, 10, 7000000⟩) t h ∧
      t.map Event.label = [.setTarget ⟨.stop, .reverse⟩, .step] ∧
      ∃ e ∈ t, e.label = .step ∧ ¬ e.pre.StepBounded ∧ e.pre.step .dev = none ∧
        (e.pre.step .release).map (fun r => r.1.1) = some ⟨.num 255, .reverse⟩ := by
  have hrun := Run.of_exec Helper.call [.setTarget ⟨.stop, .reverse⟩, .step]
    (s := Helper.new ⟨10, 10, 7000000⟩) rfl
  refine ⟨_, _, hrun, rfl, _, List.mem_cons_of_mem _ (List.mem_singleton.mpr rfl), rfl,
    fun hb => ?_, rfl, rfl⟩
  have hsome := hb.1
  cases hsome

end Rp2040.Accel
