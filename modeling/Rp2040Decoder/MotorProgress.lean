/-
The motor tasks come to rest.

A command that is sent costs a bounded number of steps: through the channels,
along the ramp it starts, and once around the motor task for each level that is
signalled.  Only the PID timer goes on forever while the motor is driven.

* `callsLeft_step` — a call of `step` that asks for another one has fewer left;
* `work_step` — every step but that of the PID timer makes the work smaller;
* `exists_advances` — while something is in flight some task can take a step, or
  the accel task panics;
* `comes_to_rest` — so every run without it is bounded and leads on to rest.
-/
import Rp2040Decoder.AccelRefresh

namespace Rp2040

open Transition

/-! ### The calls left on a ramp -/

namespace Accel.Helper

variable {p : Profile} {h h' : Helper}

/-- How many calls of `step` the helper is away from its target at most.  The
decrement of a stopped reversal wraps, if it does not panic, and 255 more calls
follow it. -/
def callsLeft (h : Helper) : ℕ :=
  let c := h.current.speedStep.idx.toNat
  let t := h.target.speedStep.idx.toNat
  if h.current.direction = h.target.direction then (c - t) + (t - c)
  else if h.config.decelRate ≠ 0 ∧ t = 0 ∧ h.target.speedStep ≠ .emergencyStop then c + 256
  else c + t + 1

theorem callsLeft_le (h : Helper) : h.callsLeft ≤ 511 := by
  have hc := h.current.speedStep.idx.toNat_lt
  have ht := h.target.speedStep.idx.toNat_lt
  rw [callsLeft]
  split
  · omega
  · split
    · omega
    · omega

theorem toNat_one : (1 : UInt8).toNat = 1 := rfl

/-- The increment of `nextSpeedStep` stays below the target. -/
theorem toNat_addU8_one {a b t : UInt8} (hlt : a < t) (hb : p.addU8 a 1 = some b) :
    b.toNat = a.toNat + 1 := by
  have ht := t.toNat_lt
  rw [UInt8.lt_iff_toNat_lt] at hlt
  rw [p.addU8_of_lt (by rw [toNat_one]; omega)] at hb
  rw [← Option.some.inj hb, UInt8.toNat_add, toNat_one]
  omega

/-- The decrement of `nextSpeedStep` wraps at index 0. -/
theorem toNat_subU8_one {a b : UInt8} (hb : p.subU8 a 1 = some b) :
    a.toNat = b.toNat + 1 ∨ a.toNat = 0 ∧ b.toNat = 255 := by
  by_cases h1 : (1 : UInt8) ≤ a
  · rw [p.subU8_of_le h1] at hb
    rw [← Option.some.inj hb, UInt8.toNat_sub_of_le _ _ h1, toNat_one]
    rw [UInt8.le_iff_toNat_le, toNat_one] at h1
    exact Or.inl (by omega)
  · rw [UInt8.le_iff_toNat_le, toNat_one] at h1
    have h0 : a = 0 := UInt8.toNat_inj.mp (by simp only [UInt8.reduceToNat]; omega)
    subst h0
    cases p with
    | dev => cases hb
    | release =>
      rw [← Option.some.inj hb]
      exact Or.inr ⟨rfl, rfl⟩

/-- Where a step from `v` goes: to zero, one up, one down, or to the target. -/
theorem toNat_nextSpeedStep {v : VelocitySetpoint} {s : SpeedStep}
    (hn : h.nextSpeedStep p v = some s) :
    (h.target.speedStep = .emergencyStop ∧ s.idx.toNat = 0) ∨
    (h.target.speedStep ≠ .emergencyStop ∧
      ((v.speedStep.idx < h.target.speedStep.idx ∧ v.direction = h.target.direction ∧
          s.idx.toNat = v.speedStep.idx.toNat + 1) ∨
        (h.accelerating v = false ∧ h.config.decelRate ≠ 0 ∧
          (v.speedStep.idx.toNat = s.idx.toNat + 1 ∨
            v.speedStep.idx.toNat = 0 ∧ s.idx.toNat = 255)) ∨
        ((h.accelerating v = false → h.config.decelRate = 0) ∧
          s.idx = h.target.speedStep.idx))) := by
  rw [nextSpeedStep] at hn
  by_cases hstop : h.target.speedStep = .emergencyStop
  · rw [if_pos hstop] at hn
    rw [← Option.some.inj hn]
    exact Or.inl ⟨hstop, rfl⟩
  rw [if_neg hstop] at hn
  refine Or.inr ⟨hstop, ?_⟩
  cases ha : h.accelerating v with
  | true =>
    rw [ha, if_pos rfl] at hn
    simp only [accelerating, Bool.and_eq_true, decide_eq_true_eq] at ha
    split at hn
    · obtain ⟨b, hb, rfl⟩ := Option.map_eq_some_iff.mp hn
      exact Or.inl ⟨ha.1, ha.2, toNat_addU8_one ha.1 hb⟩
    · rw [← Option.some.inj hn]
      exact Or.inr (Or.inr ⟨fun h => Bool.noConfusion h, rfl⟩)
  | false =>
    rw [ha, if_neg Bool.false_ne_true] at hn
    split at hn
    · rename_i hdec
      obtain ⟨b, hb, rfl⟩ := Option.map_eq_some_iff.mp hn
      exact Or.inr (Or.inl ⟨rfl, UInt8.pos_iff_ne_zero.mp hdec, toNat_subU8_one hb⟩)
    · rename_i hdec
      rw [← Option.some.inj hn]
      refine Or.inr (Or.inr ⟨fun _ => ?_, rfl⟩)
      exact not_not.mp fun h0 => hdec (UInt8.pos_iff_ne_zero.mpr h0)

/-- A call that asks for another one has fewer calls left after it. -/
theorem callsLeft_step {v : VelocitySetpoint} {delay : Duration}
    (hs : h.step p = some ((v, delay), h')) (hd : delay ≠ .max) :
    h'.callsLeft < h.callsLeft := by
  have he' := (step_delay_ne_max hs).mp hd
  rcases step_cases hs with ⟨-, hr, -⟩ | ⟨he, s, hn, rfl, -⟩
  · exact absurd (congrArg Prod.snd hr) hd
  have hshort : ¬ (s.idx.toNat = h.target.speedStep.idx.toNat ∧
      h.switchDirection.direction = h.target.direction) := by
    rw [UInt8.toNat_inj]
    intro heq
    rw [VelocitySetpoint.equivalent_iff.mpr heq] at he'
    cases he'
  have hgap : ¬ (h.current.speedStep.idx.toNat = h.target.speedStep.idx.toNat ∧
      h.current.direction = h.target.direction) := by
    rw [UInt8.toNat_inj]
    intro heq
    rw [VelocitySetpoint.equivalent_iff.mpr heq] at he
    cases he
  have hzero : h.target.speedStep = .emergencyStop → h.target.speedStep.idx.toNat = 0 := by
    intro hstop
    rw [hstop]
    rfl
  have hnext := toNat_nextSpeedStep hn
  simp only [accelerating, Bool.and_eq_false_iff, decide_eq_false_iff_not,
    UInt8.lt_iff_toNat_lt, ← UInt8.toNat_inj (a := s.idx)] at hnext
  simp only [callsLeft]
  rcases h.switchDirection_cases with ⟨hc, -⟩ | ⟨hc, hdir, hz⟩
  · -- a step in the direction of the motor
    have hturn := direction_of_switchDirection hc
    rw [hc] at hnext hshort ⊢
    by_cases hdir : h.current.direction = h.target.direction
    · rw [if_pos hdir, if_pos hdir]
      rcases hnext with ⟨hstop, hs⟩ | ⟨-, ⟨hlt, -, hs⟩ | ⟨hge, -, hs⟩ | ⟨-, hs⟩⟩
      · exact absurd ⟨hs.trans (hzero hstop).symm, hdir⟩ hshort
      · omega
      · have hle := hge.resolve_right fun hn => hn hdir
        have hne : h.current.speedStep.idx.toNat ≠ h.target.speedStep.idx.toNat :=
          fun heq => hgap ⟨heq, hdir⟩
        omega
      · exact absurd ⟨hs, hdir⟩ hshort
    · obtain ⟨hdec, hidx⟩ := hturn.resolve_left hdir
      have hidx' : h.current.speedStep.idx.toNat ≠ 0 := fun h0 => hidx (UInt8.toNat_inj.mp h0)
      rw [if_neg hdir, if_neg hdir]
      rcases hnext with ⟨hstop, hs⟩ | ⟨-, ⟨-, hd, -⟩ | ⟨-, -, hs⟩ | ⟨hd, -⟩⟩
      · rw [if_neg fun hn => hn.2.2 hstop, if_neg fun hn => hn.2.2 hstop]
        omega
      · exact absurd hd hdir
      · split
        · omega
        · omega
      · exact absurd (hd (Or.inr hdir)) hdec
  · -- the direction switches first
    rw [hc] at hnext hshort ⊢
    rw [if_pos rfl, if_neg hdir]
    simp only [SpeedStep.idx_stop, UInt8.reduceToNat] at hnext
    rcases hnext with ⟨hstop, hs⟩ | ⟨hstop, ⟨hlt, -, hs⟩ | ⟨hge, hdec, hs⟩ | ⟨-, hs⟩⟩
    · exact absurd ⟨hs.trans (hzero hstop).symm, rfl⟩ hshort
    · rw [if_neg fun hn => Nat.ne_of_gt hlt hn.2.1]
      omega
    · have ht : h.target.speedStep.idx.toNat = 0 :=
        Nat.eq_zero_of_not_pos (hge.resolve_right fun hn => hn trivial)
      rw [if_pos ⟨hdec, ht, hstop⟩]
      omega
    · exact absurd ⟨hs, rfl⟩ hshort

theorem step_release_ne_none : h.step .release ≠ none := by
  rw [step]
  split
  · exact Option.some_ne_none _
  · rw [Ne, Option.map_eq_none_iff, nextSpeedStep]
    split
    · exact Option.some_ne_none _
    split
    · split
      · exact Option.some_ne_none _
      · exact Option.some_ne_none _
    · split
      · exact Option.some_ne_none _
      · exact Option.some_ne_none _

end Accel.Helper

/-! ### The work left -/

namespace Motor

open Accel

variable {κ β : Type} {cfg : Setup κ β} {s s' : State κ} {a : Action β}
  {t : List (Event (State κ) (Action β))}

/-- The steps of the motor task back to `select3`. -/
def Phase.work : Phase → ℕ
  | .select => 0
  | .settling _ => 3
  | .coasting => 2
  | .sampling => 1
  | .acknowledging _ => 1

/-- Taking a level that is signalled, and applying it. -/
def signalWork (level : Option OutputLevel) : ℕ := if level.isSome then 4 else 0

/-- A step for every call left, and the level it may signal. -/
def AccelTask.work (self : AccelTask) : ℕ :=
  if self.accelTimer then 5 * (self.accelHelper.callsLeft + 1) else 0

/-- What the accel task may spend on a command: one step that signals a level,
and the ramp it starts. -/
def ACCEL_WORK : ℕ := 5 + 5 * 512

/-- What the motor task may spend on a command: serving it, and ending a pulse. -/
def CONTROLLER_WORK : ℕ := 2

def Dispatcher.work : Dispatcher → ℕ
  | .receiving => 0
  | .toAccel _ => 1 + ACCEL_WORK + (1 + CONTROLLER_WORK)
  | .toController _ => 1 + CONTROLLER_WORK

/-- What a command costs from `MOTOR_CHANNEL` on. -/
def COMMAND_WORK : ℕ := 1 + (1 + ACCEL_WORK + (1 + CONTROLLER_WORK))

/-- How many steps the motor tasks may take without the PID timer. -/
def State.work (s : State κ) : ℕ :=
  s.input.length * (1 + COMMAND_WORK) + s.motorChannel.items.length * COMMAND_WORK +
    s.dispatcher.work + s.accelHelperChannel.items.length * ACCEL_WORK +
    s.motorControllerChannel.items.length * CONTROLLER_WORK +
    signalWork s.motorSpeedChannel + s.accel.work + s.controller.phase.work

theorem signalWork_le (l : Option OutputLevel) : signalWork l ≤ 4 := by
  rw [signalWork]
  split
  · exact Nat.le_refl _
  · exact Nat.zero_le _

theorem signalWork_or_le (l l' : Option OutputLevel) :
    signalWork (l.or l') ≤ signalWork l + signalWork l' := by
  cases l with
  | none => exact Nat.le_add_left _ _
  | some l => exact Nat.le_add_right _ _

@[simp] theorem Dispatcher.work_receiving : Dispatcher.receiving.work = 0 := rfl

@[simp] theorem Dispatcher.work_toAccel (c : Command) :
    (Dispatcher.toAccel c).work = 1 + ACCEL_WORK + (1 + CONTROLLER_WORK) := rfl

@[simp] theorem Dispatcher.work_toController (c : Command) :
    (Dispatcher.toController c).work = 1 + CONTROLLER_WORK := rfl

theorem Dispatcher.work_route (c : Command) :
    (Dispatcher.route c).work ≤ 1 + ACCEL_WORK + (1 + CONTROLLER_WORK) := by
  cases c with
  | acknowledgeCv => exact Nat.le_add_left _ _
  | reset => exact Nat.le_refl _
  | setVelocity128 v => exact Nat.le_refl _

theorem AccelTask.work_le (task : AccelTask) : task.work ≤ 5 * 512 := by
  have hle := task.accelHelper.callsLeft_le
  rw [AccelTask.work]
  split
  · omega
  · exact Nat.zero_le _

/-- A step on the ramp is paid for by the calls left. -/
theorem AccelTask.work_advance {task : AccelTask} {r : AccelTask × Option OutputLevel}
    (ht : task.accelTimer = true) (h : task.advance cfg = some r) : r.1.work + 5 ≤ task.work := by
  obtain ⟨v, delay, helper, hstep, h₁, -⟩ := advance_spec h
  rw [h₁, AccelTask.work, AccelTask.work, if_pos ht]
  by_cases hd : delay = .max
  · rw [if_neg (by simp [hd])]
    omega
  · have hlt := Helper.callsLeft_step hstep hd
    rw [if_pos (decide_eq_true hd)]
    simp only
    omega

theorem ControllerTask.work_setOutput (c : ControllerTask κ) (cfg : Setup κ β)
    (l : Option OutputLevel) : (c.setOutput cfg l).phase.work ≤ 2 := by
  by_cases hl : (l.getD c.lastOutputLevel).setpoint ≠ 0
  · simp only [ControllerTask.setOutput, if_pos hl]
    exact Nat.le_refl _
  · simp only [ControllerTask.setOutput, if_neg hl]
    exact Nat.zero_le _

theorem ControllerTask.work_serve (cfg : Setup κ β) {c : ControllerTask κ}
    (hp : c.phase = .select) (command : Command) : (c.serve cfg command).phase.work ≤ 1 := by
  cases command with
  | acknowledgeCv => exact Nat.le_refl _
  | reset =>
    show c.phase.work ≤ 1
    rw [hp]
    exact Nat.zero_le _
  | setVelocity128 v =>
    show c.phase.work ≤ 1
    rw [hp]
    exact Nat.zero_le _

/-- What the accel task spends on a command. -/
theorem AccelTask.work_serve {task : AccelTask} {c : Command} {r : AccelTask × Option OutputLevel}
    (h : task.serve cfg c = some r) :
    r.1.work + signalWork r.2 < task.work + ACCEL_WORK := by
  have hle := r.1.work_le
  cases c with
  | acknowledgeCv =>
    rw [← Option.some.inj h]
    exact Nat.lt_add_of_pos_right (by decide)
  | reset =>
    rw [← Option.some.inj h]
    exact Nat.lt_of_lt_of_le (Nat.succ_pos _) (Nat.le_add_left _ _)
  | setVelocity128 v =>
    have hs := signalWork_le r.2
    rw [ACCEL_WORK]
    omega

/-- Every step but that of the PID timer makes the work smaller. -/
theorem work_step (h : s.Step cfg a s') (ha : a ≠ .pidTimer) : s'.work < s.work := by
  cases h with
  | submit hin hch =>
    simp only [State.work, hin, hch, List.length_cons, List.length_append, List.length_nil,
      Nat.add_mul]
    omega
  | @dispatch c ch hd hch =>
    have hle := Dispatcher.work_route c
    simp only [State.work, hd, hch, List.length_cons, Dispatcher.work_receiving, Nat.add_mul,
      COMMAND_WORK]
    omega
  | @forwardAccel c ch hd hch =>
    have hle : (if c = .reset then Dispatcher.toController c else .receiving).work ≤
        1 + CONTROLLER_WORK := by
      split
      · exact Nat.le_refl _
      · exact Nat.zero_le _
    simp only [State.work, hd, hch, List.length_append, List.length_cons, List.length_nil,
      Dispatcher.work_toAccel, Nat.add_mul]
    omega
  | forwardController hd hch =>
    simp only [State.work, hd, hch, List.length_append, List.length_cons, List.length_nil,
      Dispatcher.work_toController, Dispatcher.work_receiving, Nat.add_mul]
    omega
  | @accelReceive c ch r hch hr =>
    have hlt := AccelTask.work_serve hr
    have hs := signalWork_or_le r.2 s.motorSpeedChannel
    simp only [State.work, State.signal, hch, List.length_cons, Nat.add_mul]
    omega
  | @accelTimer r hch ht hr =>
    have hle := AccelTask.work_advance ht hr
    have hr₂ := signalWork_le r.2
    have hs := signalWork_or_le r.2 s.motorSpeedChannel
    simp only [State.work, State.signal]
    omega
  | takeLevel hp hl =>
    simp only [State.work, hp, hl, signalWork, Phase.work, Option.isSome_some, Option.isSome_none,
      if_true, if_false, Bool.false_eq_true]
    omega
  | @controllerReceive c ch hp hs hch =>
    have hle := ControllerTask.work_serve cfg hp c
    simp only [State.work, hch, List.length_cons, Nat.add_mul, CONTROLLER_WORK]
    omega
  | pidTimer hp hs ht => exact absurd rfl ha
  | @settled level hp =>
    have hle := s.controller.work_setOutput cfg (some level)
    have hw : s.controller.phase.work = 3 := by
      rw [hp]
      rfl
    simp only [State.work, hw]
    omega
  | coasted hp =>
    simp only [State.work, hp, Phase.work]
    omega
  | @sampled bemf nowMs hp =>
    obtain ⟨h₁, -, -⟩ := s.controller.finishOutput_frame cfg bemf nowMs
    simp only [State.work, hp, h₁, Phase.work]
    omega
  | pulsed hp =>
    simp only [State.work, ControllerTask.finishPulse, hp, Phase.work]
    omega

/-! ### Who can take a step -/

/-- The next thing the accel task does overflows, in a build that checks. -/
def State.AccelPanics (cfg : Setup κ β) (s : State κ) : Prop :=
  (∃ c items, s.accelHelperChannel.items = c :: items ∧ s.accel.serve cfg c = none) ∨
    s.accelHelperChannel.items = [] ∧ s.accel.accelTimer = true ∧ s.accel.advance cfg = none

/-- A step that does not wait for the PID timer. -/
def State.Advances (cfg : Setup κ β) (s : State κ) (a : Action β) (s' : State κ) : Prop :=
  a ≠ .pidTimer ∧ s.next cfg a = some s'

theorem exists_advances_of_isSome (ha : a ≠ .pidTimer) (h : (s.next cfg a).isSome) :
    ∃ a s', s.Advances cfg a s' := by
  obtain ⟨s', hs'⟩ := Option.isSome_iff_exists.mp h
  exact ⟨a, s', ha, hs'⟩

/-- Away from `select3` the motor task goes on by itself. -/
theorem exists_advances_of_phase (cfg : Setup κ β) (hp : s.controller.phase ≠ .select) :
    ∃ a s', s.Advances cfg a s' := by
  cases hph : s.controller.phase with
  | select => exact absurd hph hp
  | settling level =>
    refine exists_advances_of_isSome (a := .settled) (by simp) ?_
    simp only [State.next, State.settled, hph, Option.isSome_some]
  | coasting =>
    refine exists_advances_of_isSome (a := .coasted) (by simp) ?_
    simp only [State.next, State.coasted, hph, if_true, Option.isSome_some]
  | sampling =>
    refine exists_advances_of_isSome (a := .sampled (.error ()) 0) (by simp) ?_
    simp only [State.next, State.sampled, hph, if_true, Option.isSome_some]
  | acknowledging direction =>
    refine exists_advances_of_isSome (a := .pulsed) (by simp) ?_
    simp only [State.next, State.pulsed, hph, Option.isSome_some]

/-- What is signalled or sent to the motor task is taken by it. -/
theorem exists_advances_of_controller (cfg : Setup κ β)
    (h : s.motorSpeedChannel ≠ none ∨ s.motorControllerChannel.items ≠ []) :
    ∃ a s', s.Advances cfg a s' := by
  by_cases hp : s.controller.phase = .select
  swap
  · exact exists_advances_of_phase cfg hp
  cases hl : s.motorSpeedChannel with
  | some level =>
    refine exists_advances_of_isSome (a := .takeLevel) (by simp) ?_
    rw [State.next, State.takeLevel, if_pos hp, hl]
    rfl
  | none =>
    obtain ⟨c, items, hitems⟩ := List.exists_cons_of_ne_nil (h.resolve_left fun hn => hn hl)
    obtain ⟨ch, hch⟩ := Fifo.exists_receive hitems
    refine exists_advances_of_isSome (a := .controllerReceive) (by simp) ?_
    rw [State.next, State.controllerReceive, if_pos ⟨hp, hl⟩, hch]
    rfl

/-- What is sent to the accel task is taken by it, and its timer expires. -/
theorem exists_advances_of_accel (hn : ¬ s.AccelPanics cfg)
    (h : s.accelHelperChannel.items ≠ [] ∨ s.accel.accelTimer = true) :
    ∃ a s', s.Advances cfg a s' := by
  cases hitems : s.accelHelperChannel.items with
  | cons c items =>
    obtain ⟨ch, hch⟩ := Fifo.exists_receive hitems
    obtain ⟨r, hr⟩ := Option.ne_none_iff_exists'.mp fun hr => hn (Or.inl ⟨c, items, hitems, hr⟩)
    refine exists_advances_of_isSome (a := .accelReceive) (by simp) ?_
    simp only [State.next, State.accelReceive, hch, Option.bind_some, hr, Option.map_some,
      Option.isSome_some]
  | nil =>
    have ht := h.resolve_left fun hne => hne hitems
    obtain ⟨r, hr⟩ := Option.ne_none_iff_exists'.mp fun hr => hn (Or.inr ⟨hitems, ht, hr⟩)
    refine exists_advances_of_isSome (a := .accelTimer) (by simp) ?_
    rw [State.next, State.accelTimer, if_pos ⟨hitems, ht⟩, hr]
    rfl

/-- While something is in flight a task can take a step without the PID timer,
unless the accel task panics: a channel that blocks its sender has a receiver
that is ready. -/
theorem exists_advances (hq : ¬ s.Quiescent) (hn : ¬ s.AccelPanics cfg) :
    ∃ a s', s.Advances cfg a s' := by
  by_cases hp : s.controller.phase = .select
  swap
  · exact exists_advances_of_phase cfg hp
  by_cases hc : s.motorSpeedChannel ≠ none ∨ s.motorControllerChannel.items ≠ []
  · exact exists_advances_of_controller cfg hc
  by_cases hacc : s.accelHelperChannel.items ≠ [] ∨ s.accel.accelTimer = true
  · exact exists_advances_of_accel hn hacc
  obtain ⟨hlevel, hcontroller⟩ := not_or.mp hc
  obtain ⟨haccel, htimer⟩ := not_or.mp hacc
  cases hd : s.dispatcher with
  | toAccel c =>
    obtain ⟨ch, hch⟩ := Fifo.exists_send_of_empty (not_not.mp haccel) (by decide) c
    refine exists_advances_of_isSome (a := .forward) (by simp) ?_
    simp only [State.next, State.forward, hd, hch, Option.map_some, Option.isSome_some]
  | toController c =>
    obtain ⟨ch, hch⟩ := Fifo.exists_send_of_empty (not_not.mp hcontroller) (by decide) c
    refine exists_advances_of_isSome (a := .forward) (by simp) ?_
    simp only [State.next, State.forward, hd, hch, Option.map_some, Option.isSome_some]
  | receiving =>
    cases hm : s.motorChannel.items with
    | cons c items =>
      obtain ⟨ch, hch⟩ := Fifo.exists_receive hm
      refine exists_advances_of_isSome (a := .dispatch) (by simp) ?_
      rw [State.next, State.dispatch, if_pos hd, hch]
      rfl
    | nil =>
      cases hin : s.input with
      | cons c input =>
        obtain ⟨ch, hch⟩ := Fifo.exists_send_of_empty hm (by decide) c
        refine exists_advances_of_isSome (a := .submit) (by simp) ?_
        simp only [State.next, State.submit, hin, hch, Option.map_some, Option.isSome_some]
      | nil =>
        exact absurd ⟨hin, hm, hd, not_not.mp haccel, not_not.mp hcontroller,
          not_not.mp hlevel, Bool.eq_false_iff.mpr htimer, hp⟩ hq

/-- A build that does not check for overflows does not panic. -/
theorem dev_of_accelPanics (h : s.AccelPanics cfg) : cfg.profile = .dev := by
  cases hp : cfg.profile with
  | dev => rfl
  | release =>
    have hadvance : ∀ task : AccelTask, task.advance cfg ≠ none := by
      intro task hnone
      rw [AccelTask.advance, Option.map_eq_none_iff, hp] at hnone
      exact Helper.step_release_ne_none hnone
    rcases h with ⟨c, items, -, hserve⟩ | ⟨-, -, hnone⟩
    · cases c with
      | acknowledgeCv => cases hserve
      | reset => cases hserve
      | setVelocity128 v => exact absurd hserve (hadvance _)
    · exact absurd hnone (hadvance _)

/-- The channels are bounded, so only the commands still to be sent make more
work. -/
theorem State.work_le (s : State κ) : s.work ≤ s.input.length * (1 + COMMAND_WORK) + 30821 := by
  have h₁ := s.motorChannel.length_le
  have h₂ := s.accelHelperChannel.length_le
  have h₃ := s.motorControllerChannel.length_le
  have h₄ := signalWork_le s.motorSpeedChannel
  have h₅ := s.accel.work_le
  have hd : s.dispatcher.work ≤ 2569 := by
    cases s.dispatcher with
    | receiving => exact Nat.zero_le _
    | toAccel c => exact Nat.le_refl _
    | toController c => exact Nat.le_add_left 3 2566
  have hp : s.controller.phase.work ≤ 3 := by
    cases s.controller.phase <;> simp [Phase.work]
  rw [State.work]
  simp only [COMMAND_WORK, ACCEL_WORK, CONTROLLER_WORK]
  omega

/-- **The motor tasks come to rest.**  Without the PID timer a run from any
state is no longer than the work there; where it cannot be continued everything
is at rest, or the accel task panics, in a build with overflow checks only; and
it can always be continued to such a place. -/
theorem comes_to_rest (h : Run (State.Advances cfg) s t s') :
    t.length + s'.work ≤ s.work ∧
      s.work ≤ s.input.length * (1 + COMMAND_WORK) + 30821 ∧
      ((∀ a s'', ¬ s'.Advances cfg a s'') →
        s'.Quiescent ∨ cfg.profile = .dev ∧ s'.AccelPanics cfg) ∧
      ∃ t' s'', Run (State.Advances cfg) s' t' s'' ∧
        (s''.Quiescent ∨ cfg.profile = .dev ∧ s''.AccelPanics cfg) := by
  have hstep : ∀ (s : State κ) (a : Action β) s', s.Advances cfg a s' → s'.work < s.work :=
    fun s a s' h => work_step (step_of_next h.2) h.1
  have hprog : ∀ s : State κ, ¬ (s.Quiescent ∨ cfg.profile = .dev ∧ s.AccelPanics cfg) →
      ∃ a s', s.Advances cfg a s' := by
    intro s hs
    obtain ⟨hq, hpanics⟩ := not_or.mp hs
    exact exists_advances hq fun hp => hpanics ⟨dev_of_accelPanics hp, hp⟩
  refine ⟨h.length_add_le hstep, s.work_le, fun hstuck => ?_,
    exists_run_of_progress hstep hprog s'⟩
  by_contra hs
  obtain ⟨a, s'', hs''⟩ := hprog s' hs
  exact hstuck a s'' hs''

/-- A velocity that the accel task has just served. -/
theorem velocity_comes_to_rest :
    ∃ t s, Run (State.Advances linearSetup) (linearInit [.setVelocity128 ⟨.num 5, .forward⟩]) t s ∧
      s.motorSpeedChannel = some ⟨.forward, 40⟩ ∧
      ∃ t' s', Run (State.Advances linearSetup) s t' s' ∧ s'.Quiescent := by
  have hrun : Run (State.Advances linearSetup)
      (linearInit [.setVelocity128 ⟨.num 5, .forward⟩]) _ _ :=
    (((Run.nil.snoc (i := .submit) ⟨by simp, rfl⟩).snoc (i := .dispatch) ⟨by simp, rfl⟩).snoc
      (i := .forward) ⟨by simp, rfl⟩).snoc (i := .accelReceive) ⟨by simp, rfl⟩
  obtain ⟨-, -, -, t', s', hrun', hs'⟩ := comes_to_rest hrun
  exact ⟨_, _, hrun, rfl, t', s', hrun', hs'.resolve_right fun h => by cases h.1⟩

end Motor

end Rp2040
