/-
The last velocity against the stop commands sent before it.

The accel task does not signal a setpoint equal to the one it sent last, and
keeps that memory across `Reset` and `AcknowledgeCv`, which stop the motor by
another route.

* `sent_matches_step` — the level sent last is the one of the setpoint the
  accel task remembers;
* `driven_run` — the motor is driven at that level exactly when every stop
  command served was answered by a later signal;
* `velocity_applied_iff` — so the last velocity takes effect exactly when its
  level is zero or every stop was answered.
-/
import Rp2040Decoder.MotorReset

namespace Rp2040.Motor

open Accel Transition

variable {κ β : Type} {cfg : Setup κ β} {s s' : State κ} {a : Action β}

/-! ### What the accel task sends -/

namespace AccelTask

/-- One step of the helper is remembered as sent, and sent if it was not. -/
theorem advance_spec {task : AccelTask} {r : AccelTask × Option OutputLevel}
    (h : task.advance cfg = some r) :
    ∃ v delay helper, task.accelHelper.step cfg.profile = some ((v, delay), helper) ∧
      r.1 = ⟨helper, some v, decide (delay ≠ .max)⟩ ∧
      r.2 = if task.previousSetpoint ≠ some v then some (toOutputLevel cfg.speedTable v)
        else none := by
  obtain ⟨⟨⟨v, delay⟩, helper⟩, hstep, rfl⟩ := Option.map_eq_some_iff.mp h
  refine ⟨v, delay, helper, hstep, ?_⟩
  by_cases hp : task.previousSetpoint ≠ some v
  · simp only [maybeSendToChannel, if_pos hp, and_self]
  · simp only [maybeSendToChannel, if_neg hp, and_true]
    rw [not_not.mp hp]

/-- Either nothing is sent and nothing new remembered, or what is sent is
remembered. -/
theorem advance_sends {task : AccelTask} {r : AccelTask × Option OutputLevel}
    (h : task.advance cfg = some r) :
    (r.2 = none ∧ r.1.previousSetpoint = task.previousSetpoint) ∨
    ∃ w, r.2 = some (toOutputLevel cfg.speedTable w) ∧ r.1.previousSetpoint = some w := by
  obtain ⟨v, delay, helper, -, h₁, h₂⟩ := advance_spec h
  rw [h₁, h₂]
  by_cases hp : task.previousSetpoint ≠ some v
  · exact Or.inr ⟨v, by rw [if_pos hp], rfl⟩
  · exact Or.inl ⟨by rw [if_neg hp], (not_not.mp hp).symm⟩

theorem serve_sends {task : AccelTask} {c : Command} {r : AccelTask × Option OutputLevel}
    (h : task.serve cfg c = some r) :
    (r.2 = none ∧ r.1.previousSetpoint = task.previousSetpoint) ∨
    ∃ w, r.2 = some (toOutputLevel cfg.speedTable w) ∧ r.1.previousSetpoint = some w := by
  cases c with
  | setVelocity128 v =>
    have h' : AccelTask.advance cfg
        { task with accelHelper := task.accelHelper.setTarget v } = some r := h
    have hsends := advance_sends h'
    exact hsends
  | _ =>
    rw [← Option.some.inj h]
    exact Or.inl ⟨rfl, rfl⟩

/-- The task is on its way to `v`; with the timer disarmed it has sent it. -/
def Towards (v : VelocitySetpoint) (task : AccelTask) : Prop :=
  task.accelHelper.target = v ∧
    (task.accelTimer = false → task.previousSetpoint = some v)

theorem advance_towards {v : VelocitySetpoint} {task : AccelTask}
    {r : AccelTask × Option OutputLevel} (ht : task.accelHelper.target = v)
    (h : task.advance cfg = some r) : Towards v r.1 := by
  obtain ⟨w, delay, helper, hstep, h₁, -⟩ := advance_spec h
  rw [h₁]
  refine ⟨(Helper.step_frame hstep).2.trans ht, fun hoff => ?_⟩
  have hmax : delay = .max := not_not.mp (of_decide_eq_false hoff)
  subst hmax
  rw [Helper.step_eq_target hstep, ht]

end AccelTask

/-! ### The level sent last -/

/-- The level the motor task holds: the one it has just read, or applied last. -/
def ControllerTask.level (c : ControllerTask κ) : OutputLevel :=
  match c.phase with
  | .settling level => level
  | _ => c.lastOutputLevel

/-- The level the accel task signalled last. -/
def State.sent (s : State κ) : OutputLevel := s.motorSpeedChannel.getD s.controller.level

theorem level_setOutput (c : ControllerTask κ) (l : Option OutputLevel) :
    (c.setOutput cfg l).level = l.getD c.lastOutputLevel := by
  by_cases hl : (l.getD c.lastOutputLevel).setpoint ≠ 0
  · simp only [ControllerTask.setOutput, if_pos hl, ControllerTask.level]
  · simp only [ControllerTask.setOutput, if_neg hl, ControllerTask.level]

theorem sent_step (h : s.Step cfg a s') : s'.sent = (s.signalled cfg a).getD s.sent := by
  cases h with
  | accelReceive hch hr =>
    simp only [State.sent, State.signal, State.signalled, hch, List.head?_cons, Option.bind_some,
      hr, Option.getD_or]
  | accelTimer hch ht hr =>
    simp only [State.sent, State.signal, State.signalled, hr, Option.bind_some, Option.getD_or]
  | takeLevel hp hl =>
    simp only [State.sent, State.signalled, hl, ControllerTask.level, Option.getD_none,
      Option.getD_some]
  | @controllerReceive c ch hp hs hch =>
    cases c <;>
      simp only [State.sent, State.signalled, ControllerTask.serve, ControllerTask.level, hp,
        Option.getD_none]
  | pidTimer hp hs ht =>
    simp only [State.sent, State.signalled, Option.getD_none]
    rw [level_setOutput, ControllerTask.level, hp, Option.getD_none]
  | settled hp =>
    simp only [State.sent, State.signalled, Option.getD_none]
    rw [level_setOutput, ControllerTask.level, hp, Option.getD_some]
  | coasted hp =>
    simp only [State.sent, State.signalled, ControllerTask.level, hp, Option.getD_none]
  | @sampled bemf nowMs hp =>
    obtain ⟨h₁, -, h₃⟩ := s.controller.finishOutput_frame cfg bemf nowMs
    simp only [State.sent, State.signalled, ControllerTask.level, hp, h₁, h₃, Option.getD_none]
  | pulsed hp =>
    simp only [State.sent, State.signalled, ControllerTask.level, hp, ControllerTask.finishPulse,
      Option.getD_none]
  | _ => rfl

/-- The level sent last is the one of the remembered setpoint. -/
def SentMatches (cfg : Setup κ β) (s : State κ) : Prop :=
  ∀ w, s.accel.previousSetpoint = some w → s.sent = toOutputLevel cfg.speedTable w

theorem sent_matches_step (h : s.Step cfg a s') (hs : SentMatches cfg s) :
    SentMatches cfg s' := by
  have hsends : ((s.signalled cfg a) = none ∧
        s'.accel.previousSetpoint = s.accel.previousSetpoint) ∨
      ∃ w, s.signalled cfg a = some (toOutputLevel cfg.speedTable w) ∧
        s'.accel.previousSetpoint = some w := by
    rcases accelLane_step h with
      ⟨c, r, -, -, hr, ha, hsig⟩ | ⟨r, -, -, -, -, hr, ha, hsig⟩ | ⟨-, ha, hsig⟩
    · rw [ha, hsig]
      exact AccelTask.serve_sends hr
    · rw [ha, hsig]
      exact AccelTask.advance_sends hr
    · exact Or.inl ⟨hsig, by rw [ha]⟩
  intro w hw
  rw [sent_step h]
  rcases hsends with ⟨hnone, hprev⟩ | ⟨w', hsome, hprev⟩
  · rw [hnone, Option.getD_none]
    exact hs w (hprev ▸ hw)
  · rw [hprev, Option.some.injEq] at hw
    rw [hsome, Option.getD_some, hw]

/-! ### Stops and signals -/

/-- The event serves a command that stops the motor. -/
def Stops (e : Event (State κ) (Action β)) : Prop := StopServed e.pre e.label

/-- The event finds the setpoint changed and signals its level. -/
def Signals (cfg : Setup κ β) (e : Event (State κ) (Action β)) : Prop :=
  e.pre.signalled cfg e.label ≠ none

variable {accelConfig : Config} {pwmMaxOutput : UInt16} {speedControl : κ}
  {commands : List Command} {t : List (Event (State κ) (Action β))}

/-- The motor is driven at the level sent last if every stop served so far was
answered by a signal, and not at all otherwise. -/
theorem driven_run
    (hrun : Run (fun s a s' => s.next cfg a = some s')
      (State.init accelConfig pwmMaxOutput speedControl commands) t s) :
    (Answered Stops (Signals cfg) t → s.driven = drive (some s.sent)) ∧
    (¬ Answered Stops (Signals cfg) t → s.driven = none) := by
  induction hrun with
  | nil => exact ⟨fun _ => rfl, fun hn => absurd answered_nil hn⟩
  | @snoc t s s' a _ hstep ih =>
    have h := step_of_next hstep
    rw [answered_concat]
    -- a stop asks for a signal, and a signal answers every stop before it
    by_cases hstop : StopServed s a
    · exact ⟨fun ha => absurd hstop ha.1, fun _ => driven_of_stopServed h hstop⟩
    · rw [driven_of_not_stopServed h hstop, sent_step h]
      cases hsig : s.signalled cfg a with
      | none =>
        have hiff : (¬ Stops ⟨s, a, s'⟩ ∧ (Signals cfg ⟨s, a, s'⟩ ∨
            Answered Stops (Signals cfg) t)) ↔ Answered Stops (Signals cfg) t :=
          ⟨fun ha => ha.2.resolve_left fun hs => hs hsig, fun ha => ⟨hstop, Or.inr ha⟩⟩
        rw [hiff]
        exact ih
      | some l =>
        refine ⟨fun _ => rfl, fun hn => absurd ⟨hstop, Or.inl fun hs => ?_⟩ hn⟩
        rw [hsig] at hs
        cases hs

/-- **The last velocity takes effect.**  In a run whose last command is the
velocity `v` and which has come to rest, the level applied last is the one of
`v` and the motor is driven at it unless it is zero, if and only if the level
is zero or every `Reset` and `AcknowledgeCv` the motor task served was followed
by a setpoint change in the accel task. -/
theorem velocity_applied_iff {v : VelocitySetpoint}
    (hrun : Run (fun s a s' => s.next cfg a = some s')
      (State.init accelConfig pwmMaxOutput speedControl (commands ++ [.setVelocity128 v])) t s)
    (hq : s.Quiescent) :
    (s.controller.lastOutputLevel = toOutputLevel cfg.speedTable v ∧
        (s.controller.lastOutputLevel.setpoint ≠ 0 → s.controller.pidSampleTimer = true)) ↔
      (toOutputLevel cfg.speedTable v).setpoint = 0 ∨ Answered Stops (Signals cfg) t := by
  have hsettled : AccelSettled (AccelTask.Towards v) (.setVelocity128 v) s := by
    refine (hrun.invariant (fun _ _ _ hst hI => accelSettled_step (fun task r hr => ?_)
      (fun task r hP _ hr => ?_) (step_of_next hst) hI)
      (accelSettled_queue rfl (.init accelConfig pwmMaxOutput speedControl commands))).1
    · exact AccelTask.advance_towards rfl hr
    · exact AccelTask.advance_towards hP.1 hr
  have hmatch : SentMatches cfg s :=
    (hrun.invariant (fun _ _ _ hst hI => sent_matches_step (step_of_next hst) hI)
      fun w hw => by cases hw).1
  -- at rest nothing is on its way, so the last velocity has been served
  have hup : s.upstream = [] :=
    State.upstream_eq_nil.mpr ⟨hq.dispatcher, hq.motorChannel, hq.input⟩
  have hprev : s.accel.previousSetpoint = some v := by
    rcases hsettled with hlast | ⟨-, htowards⟩
    · rw [State.accelLane_of_upstream hup, hq.accelHelperChannel] at hlast
      cases hlast
    · exact htowards.2 hq.accelTimer
  have hlast : s.controller.lastOutputLevel = s.sent := by
    simp only [State.sent, hq.motorSpeedChannel, ControllerTask.level, hq.phase, Option.getD_none]
  -- and the motor task stands at the level sent last
  have hdriven : s.driven =
      drive (if s.controller.pidSampleTimer then some s.sent else none) := by
    simp only [State.driven, State.latest, hq.motorSpeedChannel, ControllerTask.running, hq.phase,
      Option.none_or, hlast]
  obtain ⟨hans, hnot⟩ := driven_run hrun
  rw [hlast, hmatch v hprev]
  rw [hmatch v hprev] at hdriven hans
  constructor
  · rintro ⟨-, hpid⟩
    by_cases hz : (toOutputLevel cfg.speedTable v).setpoint = 0
    · exact Or.inl hz
    · refine Or.inr (by_contra fun hn => hz ?_)
      rw [hnot hn, hpid hz, if_pos rfl] at hdriven
      exact drive_some_eq_none.mp hdriven.symm
  · intro h
    refine ⟨rfl, fun hne => ?_⟩
    have ha := h.resolve_left hne
    cases hpid : s.controller.pidSampleTimer with
    | true => rfl
    | false =>
      rw [hans ha, hpid] at hdriven
      exact absurd (drive_some_eq_none.mp hdriven) hne

/-- A velocity after a `Reset` served in order. -/
theorem velocity_applied_after_reset :
    ∃ t s, Run (fun s a s' => State.next linearSetup s a = some s')
        (linearInit ([.reset] ++ [.setVelocity128 ⟨.num 5, .forward⟩])) t s ∧
      s.Quiescent ∧ s.controller.lastOutputLevel = ⟨.forward, 40⟩ ∧
      s.controller.pidSampleTimer = true := by
  have hrun₁ := Run.of_exec (State.next linearSetup)
    [.submit, .submit, .dispatch, .forward, .forward, .accelReceive, .controllerReceive,
      .dispatch, .forward]
    (s := linearInit ([.reset] ++ [.setVelocity128 ⟨.num 5, .forward⟩])) rfl
  have hrun₂ := hrun₁.append (Run.of_exec (State.next linearSetup)
    [.accelReceive, .takeLevel, .settled, .coasted, .sampled (.ok ()) 0] rfl)
  have h := (velocity_applied_iff hrun₂ (by decide)).mpr
    (Or.inr (answered_append_cons (by exact Option.some_ne_none _) ?_))
  · exact ⟨_, _, hrun₂, by decide, rfl, h.2 (by decide)⟩
  · intro e he hstop
    simp only [List.mem_cons, List.not_mem_nil, or_false] at he
    rcases he with rfl | rfl | rfl | rfl | rfl <;> cases hstop.1

/-- The motor is started, reset and started again at the same speed: the accel
task does not send the level again and the motor stays stopped. -/
theorem velocity_after_reset_dropped :
    ∃ t s, Run (fun s a s' => State.next linearSetup s a = some s')
        (linearInit ([.setVelocity128 ⟨.num 5, .forward⟩, .reset] ++
          [.setVelocity128 ⟨.num 5, .forward⟩])) t s ∧
      s.Quiescent ∧ s.controller.motorController.Stopped ∧
      ¬ (s.controller.lastOutputLevel.setpoint ≠ 0 → s.controller.pidSampleTimer = true) := by
  have hrun := Run.of_exec (State.next linearSetup)
    [.submit, .submit, .submit, .dispatch, .forward, .accelReceive, .takeLevel, .settled,
      .coasted, .sampled (.ok ()) 0, .dispatch, .forward, .forward, .accelReceive,
      .controllerReceive, .dispatch, .forward, .accelReceive]
    (s := linearInit ([.setVelocity128 ⟨.num 5, .forward⟩, .reset] ++
          [.setVelocity128 ⟨.num 5, .forward⟩])) rfl
  exact ⟨_, _, hrun, by decide, by decide, by decide⟩

end Rp2040.Motor
