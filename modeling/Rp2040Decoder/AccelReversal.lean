/-
Emergency stops and reversals of the acceleration helper, over runs of
`set_target` and `step` calls.

A step returns the target or the setpoint it leaves in the helper, so the
setpoint returned last is equivalent to the one the helper holds.  It stays so
while the target changes.

* `step_equivalent` — what a step returns is equivalent to what it leaves;
* `step_emergencyStop` — a step towards an emergency stop returns index 0;
* `step_direction` — a step that turns started at index 0;
* `requests_reverse_at_zero` — both over every run of calls.
-/
import Mathlib.Data.List.Chain
import Rp2040Decoder.AccelBounds

namespace Rp2040.Accel

open Transition

namespace Helper

variable {p : Profile} {h h' : Helper} {r : VelocitySetpoint × Duration}

/-! ### One step -/

/-- The setpoint returned has the index and the direction of the setpoint the
helper is left with. -/
theorem step_equivalent (hs : h.step p = some (r, h')) : h'.current.equivalent r.1 = true := by
  rcases step_cases hs with ⟨he, rfl, rfl⟩ | ⟨-, s, -, -, ⟨he, rfl⟩ | ⟨-, rfl⟩⟩
  · exact he
  · exact he
  · exact VelocitySetpoint.equivalent_iff.mpr ⟨rfl, rfl⟩

/-- Whatever the directions and the rates, a step towards an emergency stop
returns, and returns index 0. -/
theorem step_emergencyStop (ht : h.target.speedStep = .emergencyStop) :
    ∃ r h', h.step p = some (r, h') ∧ r.1.speedStep.idx = 0 := by
  have hzero : h.target.speedStep.idx = 0 := by rw [ht, SpeedStep.idx_emergencyStop]
  cases he : h.current.equivalent h.target with
  | true => exact ⟨(h.target, .max), h, by rw [step, if_pos he], hzero⟩
  | false =>
    have hn : h.nextSpeedStep p h.switchDirection = some .emergencyStop := by
      rw [nextSpeedStep, if_pos ht]
    refine ⟨_, _, step_of_next he hn, ?_⟩
    split
    · exact hzero
    · exact SpeedStep.idx_emergencyStop

/-- With a deceleration rate, a step that returns another direction than the
helper's started at index 0. -/
theorem step_direction (hs : h.step p = some (r, h')) (hdec : h.config.decelRate ≠ 0)
    (hd : r.1.direction ≠ h.current.direction) : h.current.speedStep.idx = 0 := by
  have heq := (VelocitySetpoint.equivalent_iff.mp (step_equivalent hs)).2
  rcases step_cases hs with ⟨-, -, rfl⟩ | ⟨-, s, -, rfl, -⟩
  · exact absurd heq.symm hd
  · -- the direction is the one chosen at the head of the step
    rcases h.switchDirection_cases with ⟨hc, -⟩ | ⟨-, -, hz⟩
    · rw [hc] at heq
      exact absurd heq.symm hd
    · exact hz.resolve_left hdec

end Helper

/-! ### Runs of calls -/

/-- A call that is not a reset. -/
inductive Request
  | setTarget (t : VelocitySetpoint)
  | step
  deriving DecidableEq, Repr

/-- What a call does to the helper; `none` is a panic. -/
def Helper.request (p : Profile) (h : Helper) : Request → Option Helper
  | .setTarget t => some (h.setTarget t)
  | .step => (h.step p).map Prod.snd

/-- The setpoint a call returns. -/
def returned (p : Profile) (e : Event Helper Request) : Option VelocitySetpoint :=
  match e.label with
  | .setTarget _ => none
  | .step => (e.pre.step p).map fun r => r.1.1

/-- The motor stood still when it was asked for the second setpoint, unless
the directions agree. -/
def ReversesAtZero (v w : VelocitySetpoint) : Prop :=
  v.direction ≠ w.direction → v.speedStep.idx = 0

instance (v w : VelocitySetpoint) : Decidable (ReversesAtZero v w) := by
  unfold ReversesAtZero
  infer_instance

/-- What a run of calls is known to satisfy: its reversals were made at index
0, and the helper holds what it returned last. -/
structure Tracked (p : Profile) (t : List (Event Helper Request)) (h : Helper) : Prop where
  chain : (t.filterMap (returned p)).IsChain ReversesAtZero
  last : ∀ v ∈ (t.filterMap (returned p)).getLast?, h.current.equivalent v = true

theorem tracked_step {p : Profile} {t : List (Event Helper Request)} {h h' : Helper}
    {r : VelocitySetpoint × Duration} (htr : Tracked p t h) (hdec : h.config.decelRate ≠ 0)
    (hs : h.step p = some (r, h')) : Tracked p (t ++ [⟨h, .step, h'⟩]) h' := by
  have hmap : (t ++ [(⟨h, .step, h'⟩ : Event Helper Request)]).filterMap (returned p) =
      t.filterMap (returned p) ++ [r.1] := by
    rw [List.filterMap_append]
    simp [returned, hs]
  constructor
  · rw [hmap]
    refine htr.chain.append (List.isChain_singleton _) ?_
    intro v hv w hw hd
    obtain rfl : r.1 = w := by simpa using hw
    obtain ⟨hidx, hdir⟩ := VelocitySetpoint.equivalent_iff.mp (htr.last v hv)
    rw [← hidx]
    exact Helper.step_direction hs hdec fun he => hd (hdir.symm.trans he.symm)
  · rw [hmap]
    intro v hv
    obtain rfl : r.1 = v := by simpa using hv
    exact Helper.step_equivalent hs

theorem tracked_setTarget {p : Profile} {t : List (Event Helper Request)} {h : Helper}
    (htr : Tracked p t h) (v : VelocitySetpoint) :
    Tracked p (t ++ [⟨h, .setTarget v, h.setTarget v⟩]) (h.setTarget v) := by
  have hmap : (t ++ [(⟨h, .setTarget v, h.setTarget v⟩ : Event Helper Request)]).filterMap
      (returned p) = t.filterMap (returned p) := by
    rw [List.filterMap_append]
    simp [returned]
  constructor
  · rw [hmap]
    exact htr.chain
  · rw [hmap]
    exact htr.last

theorem tracked_of_run {p : Profile} {h₀ h : Helper} {t : List (Event Helper Request)}
    (hrun : Run (fun h c h' => h.request p c = some h') h₀ t h) (hdec : h₀.config.decelRate ≠ 0) :
    Tracked p t h ∧ h.config.decelRate ≠ 0 := by
  induction hrun with
  | nil => exact ⟨⟨List.isChain_nil, fun v hv => by simp at hv⟩, hdec⟩
  | @snoc t h h' c _ hstep ih =>
    obtain ⟨htr, hdec⟩ := ih
    cases c with
    | setTarget v =>
      obtain rfl : h.setTarget v = h' := Option.some.inj hstep
      exact ⟨tracked_setTarget htr v, hdec⟩
    | step =>
      obtain ⟨⟨r, h₁⟩, hs, rfl⟩ := Option.map_eq_some_iff.mp hstep
      refine ⟨tracked_step htr hdec hs, ?_⟩
      rw [(Helper.step_frame hs).1]
      exact hdec

/-- **No reversal at speed.**  After any run of `set_target` and `step` calls
from any helper, a step towards an emergency stop returns index 0; and with a
deceleration rate, of two setpoints returned one after the other with
different directions the first has index 0. -/
theorem requests_reverse_at_zero {p : Profile} {h₀ h : Helper} {t : List (Event Helper Request)}
    (hrun : Run (fun h c h' => h.request p c = some h') h₀ t h) :
    (h.target.speedStep = .emergencyStop →
      ∃ r h', h.step p = some (r, h') ∧ r.1.speedStep.idx = 0) ∧
    (h₀.config.decelRate > 0 → (t.filterMap (returned p)).IsChain ReversesAtZero) := by
  constructor
  · exact Helper.step_emergencyStop
  · intro hdec
    exact (tracked_of_run hrun (UInt8.pos_iff_ne_zero.mp hdec)).1.chain

/-- Up to step 2 forward, then to step 1 in reverse, then an emergency stop. -/
theorem requests_reverse_through_zero :
    ∃ t h, Run (fun h c h' => Helper.request .dev h c = some h')
        (Helper.new ⟨10, 10, 7000000⟩) t h ∧
      (t.filterMap (returned .dev)).map (fun v => (v.speedStep.idx, v.direction)) =
        [(1, .forward), (2, .forward), (1, .forward), (0, .forward), (1, .reverse)] ∧
      (t.filterMap (returned .dev)).IsChain ReversesAtZero ∧
      ∃ r h', h.step .dev = some (r, h') ∧ r.1.speedStep.idx = 0 := by
  have hrun := Run.of_exec (Helper.request .dev)
    [.setTarget ⟨.num 2, .forward⟩, .step, .step, .setTarget ⟨.num 1, .reverse⟩, .step, .step,
      .step, .setTarget ⟨.emergencyStop, .forward⟩] (s := Helper.new ⟨10, 10, 7000000⟩) rfl
  obtain ⟨hstop, hchain⟩ := requests_reverse_at_zero hrun
  exact ⟨_, _, hrun, rfl, hchain (by decide), hstop rfl⟩

end Rp2040.Accel
