/-
What one step of the motor tasks can do.

`State.Step` lists the steps with their guards; every fact about a run is
derived from it and never from `State.next`.

* `step_of_next` — the step function takes no other steps;
* `motorInv_step` — a motor task at rest with its PID timer disarmed has
  stopped the motor;
* `driven_of_stopServed`, `driven_of_not_stopServed` — the level the motor is
  driven at changes in two ways only: a stop command is served, or the accel
  task signals a new level;
* `accelLane_step`, `controllerLane_step` — the commands on their way to a task
  reach it in the order they were sent, whatever channel they are in;
* `accelSettled_step` — what the last command does to the accel task stays done.
-/
import Rp2040Decoder.MotorTasks

namespace Rp2040.Motor

open Accel

variable {κ β : Type} {cfg : Setup κ β} {s s' : State κ} {a : Action β}

/-- The steps of the motor tasks. -/
inductive State.Step (cfg : Setup κ β) (s : State κ) : Action β → State κ → Prop
  | submit {c : Command} {input : List Command} {ch : Fifo Command 5} :
      s.input = c :: input → ch.items = s.motorChannel.items ++ [c] →
      Step cfg s .submit { s with input, motorChannel := ch }
  | dispatch {c : Command} {ch : Fifo Command 5} :
      s.dispatcher = .receiving → s.motorChannel.items = c :: ch.items →
      Step cfg s .dispatch { s with motorChannel := ch, dispatcher := .route c }
  | forwardAccel {c : Command} {ch : Fifo Command 5} :
      s.dispatcher = .toAccel c → ch.items = s.accelHelperChannel.items ++ [c] →
      Step cfg s .forward { s with
        accelHelperChannel := ch
        dispatcher := if c = .reset then .toController c else .receiving }
  | forwardController {c : Command} {ch : Fifo Command 5} :
      s.dispatcher = .toController c → ch.items = s.motorControllerChannel.items ++ [c] →
      Step cfg s .forward { s with motorControllerChannel := ch, dispatcher := .receiving }
  | accelReceive {c : Command} {ch : Fifo Command 5} {r : AccelTask × Option OutputLevel} :
      s.accelHelperChannel.items = c :: ch.items → s.accel.serve cfg c = some r →
      Step cfg s .accelReceive (({ s with accelHelperChannel := ch } : State κ).signal r)
  | accelTimer {r : AccelTask × Option OutputLevel} :
      s.accelHelperChannel.items = [] → s.accel.accelTimer = true →
      s.accel.advance cfg = some r → Step cfg s .accelTimer (s.signal r)
  | takeLevel {level : OutputLevel} :
      s.controller.phase = .select → s.motorSpeedChannel = some level →
      Step cfg s .takeLevel { s with
        motorSpeedChannel := none
        controller := { s.controller with phase := .settling level } }
  | controllerReceive {c : Command} {ch : Fifo Command 5} :
      s.controller.phase = .select → s.motorSpeedChannel = none →
      s.motorControllerChannel.items = c :: ch.items →
      Step cfg s .controllerReceive { s with
        motorControllerChannel := ch, controller := s.controller.serve cfg c }
  | pidTimer :
      s.controller.phase = .select → s.motorSpeedChannel = none →
      s.controller.pidSampleTimer = true →
      Step cfg s .pidTimer { s with controller := s.controller.setOutput cfg none }
  | settled {level : OutputLevel} :
      s.controller.phase = .settling level →
      Step cfg s .settled { s with controller := s.controller.setOutput cfg (some level) }
  | coasted :
      s.controller.phase = .coasting →
      Step cfg s .coasted { s with controller := { s.controller with phase := .sampling } }
  | sampled {bemf : Except Unit β} {nowMs : ℕ} :
      s.controller.phase = .sampling →
      Step cfg s (.sampled bemf nowMs)
        { s with controller := s.controller.finishOutput cfg bemf nowMs }
  | pulsed {direction : Direction} :
      s.controller.phase = .acknowledging direction →
      Step cfg s .pulsed { s with controller := s.controller.finishPulse direction }

/-- Inversion of the step function. -/
theorem step_of_next (h : s.next cfg a = some s') : s.Step cfg a s' := by
  cases a with
  | submit =>
    simp only [State.next, State.submit] at h
    split at h
    · cases h
    · rename_i c input hin
      obtain ⟨ch, hch, rfl⟩ := Option.map_eq_some_iff.mp h
      exact .submit hin (Fifo.items_of_send hch)
  | dispatch =>
    obtain ⟨hd, h⟩ := Option.ite_none_right_eq_some.mp h
    obtain ⟨⟨c, ch⟩, hch, rfl⟩ := Option.map_eq_some_iff.mp h
    exact .dispatch hd (Fifo.items_of_receive hch)
  | forward =>
    simp only [State.next, State.forward] at h
    split at h
    · cases h
    · rename_i c hd
      obtain ⟨ch, hch, rfl⟩ := Option.map_eq_some_iff.mp h
      exact .forwardAccel hd (Fifo.items_of_send hch)
    · rename_i c hd
      obtain ⟨ch, hch, rfl⟩ := Option.map_eq_some_iff.mp h
      exact .forwardController hd (Fifo.items_of_send hch)
  | accelReceive =>
    obtain ⟨⟨c, ch⟩, hch, h⟩ := Option.bind_eq_some_iff.mp h
    obtain ⟨r, hr, rfl⟩ := Option.map_eq_some_iff.mp h
    exact .accelReceive (Fifo.items_of_receive hch) hr
  | accelTimer =>
    obtain ⟨⟨hch, ht⟩, h⟩ := Option.ite_none_right_eq_some.mp h
    obtain ⟨r, hr, rfl⟩ := Option.map_eq_some_iff.mp h
    exact .accelTimer hch ht hr
  | takeLevel =>
    obtain ⟨hp, h⟩ := Option.ite_none_right_eq_some.mp h
    obtain ⟨level, hl, rfl⟩ := Option.map_eq_some_iff.mp h
    exact .takeLevel hp hl
  | controllerReceive =>
    obtain ⟨⟨hp, hs⟩, h⟩ := Option.ite_none_right_eq_some.mp h
    obtain ⟨⟨c, ch⟩, hch, rfl⟩ := Option.map_eq_some_iff.mp h
    exact .controllerReceive hp hs (Fifo.items_of_receive hch)
  | pidTimer =>
    obtain ⟨⟨hp, hs, -, ht⟩, h⟩ := Option.ite_none_right_eq_some.mp h
    rw [← Option.some.inj h]
    exact .pidTimer hp hs ht
  | settled =>
    simp only [State.next, State.settled] at h
    split at h
    · rename_i level hp
      rw [← Option.some.inj h]
      exact .settled hp
    · cases h
  | coasted =>
    obtain ⟨hp, h⟩ := Option.ite_none_right_eq_some.mp h
    rw [← Option.some.inj h]
    exact .coasted hp
  | sampled bemf nowMs =>
    obtain ⟨hp, h⟩ := Option.ite_none_right_eq_some.mp h
    rw [← Option.some.inj h]
    exact .sampled hp
  | pulsed =>
    simp only [State.next, State.pulsed] at h
    split at h
    · rename_i direction hp
      rw [← Option.some.inj h]
      exact .pulsed hp
    · cases h

/-! ### The motor task at rest -/

namespace ControllerTask

/-- What the motor task guarantees at each of its awaits. -/
def Inv (c : ControllerTask κ) : Prop :=
  match c.phase with
  | .select =>
    if c.pidSampleTimer then c.lastOutputLevel.setpoint ≠ 0 else c.motorController.Stopped
  | .settling _ => True
  | .coasting => c.lastOutputLevel.setpoint ≠ 0
  | .sampling => c.lastOutputLevel.setpoint ≠ 0
  | .acknowledging direction => (c.motorController.stopOutput direction).Stopped

theorem inv_setOutput (c : ControllerTask κ) (l : Option OutputLevel) :
    (c.setOutput cfg l).Inv := by
  by_cases hl : (l.getD c.lastOutputLevel).setpoint ≠ 0
  · simp only [setOutput, if_pos hl, Inv]
    exact hl
  · simp only [setOutput, if_neg hl, Inv]
    exact c.motorController.stop_stopped

theorem finishOutput_frame (c : ControllerTask κ) (cfg : Setup κ β) (bemf : Except Unit β)
    (nowMs : ℕ) :
    (c.finishOutput cfg bemf nowMs).phase = .select ∧
      (c.finishOutput cfg bemf nowMs).pidSampleTimer = true ∧
      (c.finishOutput cfg bemf nowMs).lastOutputLevel = c.lastOutputLevel := by
  cases bemf with
  | error _ => exact ⟨rfl, rfl, rfl⟩
  | ok bemf =>
    simp only [finishOutput]
    split <;> exact ⟨rfl, rfl, rfl⟩

theorem inv_serve {c : ControllerTask κ} (hp : c.phase = .select) (h : c.Inv)
    (command : Command) : (c.serve cfg command).Inv := by
  cases command with
  | acknowledgeCv => exact c.motorController.startPulse_stopOutput_stopped
  | reset =>
    simp only [serve, Inv, hp]
    exact c.motorController.stop_stopped
  | setVelocity128 v => exact h

end ControllerTask

/-- The motor task keeps its guarantees, whatever the other tasks do. -/
theorem motorInv_step (h : s.Step cfg a s') (hi : s.controller.Inv) : s'.controller.Inv := by
  cases h with
  | takeLevel hp hl => trivial
  | controllerReceive hp hs hch => exact ControllerTask.inv_serve hp hi _
  | pidTimer hp hs ht => exact ControllerTask.inv_setOutput _ _
  | settled hp => exact ControllerTask.inv_setOutput _ _
  | coasted hp =>
    simp only [ControllerTask.Inv, hp] at hi ⊢
    exact hi
  | @sampled bemf nowMs hp =>
    simp only [ControllerTask.Inv, hp] at hi
    obtain ⟨h₁, h₂, h₃⟩ := s.controller.finishOutput_frame cfg bemf nowMs
    simp only [ControllerTask.Inv, h₁, h₂, h₃, if_true]
    exact hi
  | pulsed hp =>
    simp only [ControllerTask.Inv, hp] at hi
    exact hi
  | _ => exact hi

/-! ### The level the motor is driven at -/

/-- A level moves the motor unless its setpoint is zero. -/
def drive (level : Option OutputLevel) : Option OutputLevel :=
  level.filter fun l => l.setpoint ≠ 0

@[simp] theorem drive_none : drive none = none := rfl

theorem drive_some_eq_none {l : OutputLevel} : drive (some l) = none ↔ l.setpoint = 0 := by
  simp [drive, Option.filter_eq_none_iff]

/-- The level the motor task is working on; none if its PID timer is disarmed. -/
def ControllerTask.running (c : ControllerTask κ) : Option OutputLevel :=
  match c.phase with
  | .select => if c.pidSampleTimer then some c.lastOutputLevel else none
  | .settling level => some level
  | .coasting => some c.lastOutputLevel
  | .sampling => some c.lastOutputLevel
  | .acknowledging _ => none

/-- The level signalled last, before or after the motor task has taken it. -/
def State.latest (s : State κ) : Option OutputLevel :=
  s.motorSpeedChannel.or s.controller.running

/-- The level the motor ends up driven at when nothing more is signalled and
no stop command is served. -/
def State.driven (s : State κ) : Option OutputLevel :=
  drive s.latest

/-- The motor task serves a command that stops the motor. -/
def StopServed (s : State κ) (a : Action β) : Prop :=
  a = .controllerReceive ∧ ∃ c ∈ s.motorControllerChannel.items.head?,
    c = .reset ∨ c = .acknowledgeCv

/-- The level the accel task signals in a step, if any. -/
def State.signalled (cfg : Setup κ β) (s : State κ) : Action β → Option OutputLevel
  | .accelReceive =>
    (s.accelHelperChannel.items.head?.bind (s.accel.serve cfg)).bind Prod.snd
  | .accelTimer => (s.accel.advance cfg).bind Prod.snd
  | _ => none

theorem drive_running_setOutput (c : ControllerTask κ) (l : Option OutputLevel) :
    drive (c.setOutput cfg l).running = drive (some (l.getD c.lastOutputLevel)) := by
  by_cases hl : (l.getD c.lastOutputLevel).setpoint ≠ 0
  · simp only [ControllerTask.setOutput, if_pos hl, ControllerTask.running]
  · simp only [ControllerTask.setOutput, if_neg hl, ControllerTask.running]
    exact (drive_some_eq_none.mpr (not_not.mp hl)).symm

theorem drive_or_congr (l : Option OutputLevel) {r r' : Option OutputLevel}
    (h : drive r = drive r') : drive (l.or r) = drive (l.or r') := by
  cases l with
  | none => exact h
  | some l => rfl

/-- Serving a stop command takes the level away. -/
theorem driven_of_stopServed (h : s.Step cfg a s') (hs : StopServed s a) : s'.driven = none := by
  obtain ⟨rfl, c, hc, hk⟩ := hs
  cases h with
  | controllerReceive hp hs hch =>
    rw [hch, List.head?_cons, Option.mem_some_iff] at hc
    subst hc
    rcases hk with rfl | rfl
    · simp only [State.driven, State.latest, hs, ControllerTask.running, ControllerTask.serve, hp,
        Option.none_or, if_false, Bool.false_eq_true, drive_none]
    · simp only [State.driven, State.latest, hs, ControllerTask.running, ControllerTask.serve,
        Option.none_or, drive_none]

/-- A step that serves no stop command changes the level only by signalling a
new one. -/
theorem driven_of_not_stopServed (h : s.Step cfg a s') (hn : ¬ StopServed s a) :
    s'.driven = drive ((s.signalled cfg a).or s.latest) := by
  cases h with
  -- the two steps that can signal a level
  | accelReceive hch hr =>
    simp only [State.driven, State.latest, State.signal, State.signalled, hch, List.head?_cons,
      Option.bind_some, hr, Option.or_assoc]
  | accelTimer hch ht hr =>
    simp only [State.driven, State.latest, State.signal, State.signalled, hr, Option.bind_some,
      Option.or_assoc]
  -- the level moves from the signal to the motor task
  | takeLevel hp hl =>
    simp only [State.driven, State.latest, State.signalled, hl, ControllerTask.running,
      Option.none_or, Option.some_or]
  | @controllerReceive c ch hp hs hch =>
    cases c with
    | acknowledgeCv => exact absurd ⟨rfl, _, by rw [hch]; rfl, Or.inr rfl⟩ hn
    | reset => exact absurd ⟨rfl, _, by rw [hch]; rfl, Or.inl rfl⟩ hn
    | setVelocity128 v => rfl
  -- the motor task goes on with the level it has
  | pidTimer hp hs ht =>
    refine drive_or_congr _ ?_
    rw [drive_running_setOutput]
    simp only [ControllerTask.running, hp, ht, if_true, Option.getD_none]
  | settled hp =>
    refine drive_or_congr _ ?_
    rw [drive_running_setOutput]
    simp only [ControllerTask.running, hp, Option.getD_some]
  | coasted hp =>
    simp only [State.driven, State.latest, State.signalled, ControllerTask.running, hp,
      Option.none_or]
  | @sampled bemf nowMs hp =>
    obtain ⟨h₁, h₂, h₃⟩ := s.controller.finishOutput_frame cfg bemf nowMs
    simp only [State.driven, State.latest, State.signalled, ControllerTask.running, hp, h₁, h₂, h₃,
      Option.none_or, if_true]
  | pulsed hp =>
    simp only [State.driven, State.latest, State.signalled, ControllerTask.running, hp,
      Option.none_or, ControllerTask.finishPulse, if_false, Bool.false_eq_true]
  | _ => rfl

/-! ### The lanes -/

/-- Whether `dispatcher` forwards the command to `ACCEL_HELPER_CHANNEL`. -/
def Command.toAccel (c : Command) : Bool := c ≠ .acknowledgeCv

/-- Whether `dispatcher` forwards the command to `MOTOR_CONTROLLER_CHANNEL`. -/
def Command.toController : Command → Bool
  | .acknowledgeCv => true
  | .reset => true
  | .setVelocity128 _ => false

namespace Dispatcher

/-- The command `dispatcher` holds. -/
def held : Dispatcher → List Command
  | .receiving => []
  | .toAccel c => [c]
  | .toController c => [c]

/-- The commands `dispatcher` still sends to the accel task. -/
def accelHeld : Dispatcher → List Command
  | .receiving => []
  | .toAccel c => [c]
  | .toController _ => []

/-- The commands `dispatcher` still sends to the motor task. -/
def controllerHeld : Dispatcher → List Command
  | .receiving => []
  | .toAccel c => if c = .reset then [c] else []
  | .toController c => [c]

end Dispatcher

namespace State

/-- The commands that have not passed `dispatcher`, oldest first. -/
def upstream (s : State κ) : List Command :=
  s.dispatcher.held ++ (s.motorChannel.items ++ s.input)

/-- The commands on their way to the accel task, oldest first. -/
def accelLane (s : State κ) : List Command :=
  s.accelHelperChannel.items ++
    (s.dispatcher.accelHeld ++ (s.motorChannel.items ++ s.input).filter Command.toAccel)

/-- The commands on their way to the motor task, oldest first. -/
def controllerLane (s : State κ) : List Command :=
  s.motorControllerChannel.items ++
    (s.dispatcher.controllerHeld ++
      (s.motorChannel.items ++ s.input).filter Command.toController)

theorem upstream_eq_nil : s.upstream = [] ↔
    s.dispatcher = .receiving ∧ s.motorChannel.items = [] ∧ s.input = [] := by
  cases hd : s.dispatcher <;> simp [upstream, hd, Dispatcher.held]

theorem accelLane_of_upstream (h : s.upstream = []) :
    s.accelLane = s.accelHelperChannel.items := by
  obtain ⟨hd, hm, hi⟩ := upstream_eq_nil.mp h
  simp [accelLane, hd, hm, hi, Dispatcher.accelHeld]

theorem controllerLane_of_upstream (h : s.upstream = []) :
    s.controllerLane = s.motorControllerChannel.items := by
  obtain ⟨hd, hm, hi⟩ := upstream_eq_nil.mp h
  simp [controllerLane, hd, hm, hi, Dispatcher.controllerHeld]

/-- A `Reset` that has not passed `dispatcher` is on its way to the motor task. -/
theorem reset_mem_controllerLane (h : Command.reset ∈ s.upstream) :
    Command.reset ∈ s.controllerLane := by
  rcases List.mem_append.mp h with h | h
  · refine List.mem_append_right _ (List.mem_append_left _ ?_)
    cases hd : s.dispatcher with
    | receiving => simp [hd, Dispatcher.held] at h
    | toAccel c =>
      rw [hd, Dispatcher.held, List.mem_singleton] at h
      rw [← h, Dispatcher.controllerHeld, if_pos rfl]
      exact List.mem_singleton.mpr rfl
    | toController c =>
      rw [hd] at h
      exact h
  · exact List.mem_append_right _ (List.mem_append_right _ (List.mem_filter.mpr ⟨h, rfl⟩))

end State

/-- A step serves the oldest command of the accel lane, lets the accel timer
expire, or leaves lane and task alone. -/
theorem accelLane_step (h : s.Step cfg a s') :
    (∃ c r, a = .accelReceive ∧ s.accelLane = c :: s'.accelLane ∧
      s.accel.serve cfg c = some r ∧ s'.accel = r.1 ∧ s.signalled cfg a = r.2) ∨
    (∃ r, a = .accelTimer ∧ s'.accelLane = s.accelLane ∧ s.accelHelperChannel.items = [] ∧
      s.accel.accelTimer = true ∧ s.accel.advance cfg = some r ∧ s'.accel = r.1 ∧
      s.signalled cfg a = r.2) ∨
    (s'.accelLane = s.accelLane ∧ s'.accel = s.accel ∧ s.signalled cfg a = none) := by
  cases h with
  | submit hin hch =>
    exact Or.inr (Or.inr ⟨by simp [State.accelLane, hch, hin], rfl, rfl⟩)
  | @dispatch c ch hd hch =>
    refine Or.inr (Or.inr ⟨?_, rfl, rfl⟩)
    cases c <;>
      simp [State.accelLane, hd, hch, Dispatcher.route, Dispatcher.accelHeld, Command.toAccel]
  | @forwardAccel c ch hd hch =>
    refine Or.inr (Or.inr ⟨?_, rfl, rfl⟩)
    cases c <;> simp [State.accelLane, hd, hch, Dispatcher.accelHeld]
  | forwardController hd hch =>
    exact Or.inr (Or.inr ⟨by simp [State.accelLane, hd, Dispatcher.accelHeld], rfl, rfl⟩)
  | @accelReceive c ch r hch hr =>
    refine Or.inl ⟨c, r, rfl, by simp [State.accelLane, State.signal, hch], hr, rfl, ?_⟩
    simp only [State.signalled, hch, List.head?_cons, Option.bind_some, hr]
  | @accelTimer r hch ht hr =>
    exact Or.inr (Or.inl ⟨r, rfl, rfl, hch, ht, hr, rfl, by simp [State.signalled, hr]⟩)
  | _ => exact Or.inr (Or.inr ⟨rfl, rfl, rfl⟩)

/-- A step serves the oldest command of the motor task's lane or leaves the
lane alone. -/
theorem controllerLane_step (h : s.Step cfg a s') :
    (∃ c, a = .controllerReceive ∧ s.controllerLane = c :: s'.controllerLane ∧
      s.upstream = s'.upstream ∧
      s.motorControllerChannel.items = c :: s'.motorControllerChannel.items) ∨
    s'.controllerLane = s.controllerLane := by
  cases h with
  | submit hin hch => exact Or.inr (by simp [State.controllerLane, hch, hin])
  | @dispatch c ch hd hch =>
    -- `dispatcher` takes the command; a velocity is not part of this lane
    refine Or.inr ?_
    cases c <;>
      simp [State.controllerLane, hd, hch, Dispatcher.route, Dispatcher.controllerHeld,
        List.filter_cons, Command.toController]
  | @forwardAccel c ch hd hch =>
    refine Or.inr ?_
    cases c <;> simp [State.controllerLane, hd, Dispatcher.controllerHeld]
  | forwardController hd hch =>
    exact Or.inr (by simp [State.controllerLane, hd, hch, Dispatcher.controllerHeld])
  | @controllerReceive c ch hp hs hch =>
    exact Or.inl ⟨c, rfl, by simp [State.controllerLane, hch], rfl, hch⟩
  | _ => exact Or.inr rfl

/-- Commands leave `dispatcher` in the order they were sent. -/
theorem upstream_step (h : s.Step cfg a s') :
    s'.upstream = s.upstream ∨ ∃ c, s.upstream = c :: s'.upstream := by
  cases h with
  | submit hin hch => exact Or.inl (by simp [State.upstream, hch, hin])
  | @dispatch c ch hd hch =>
    refine Or.inl ?_
    cases c <;> simp [State.upstream, hd, hch, Dispatcher.route, Dispatcher.held]
  | @forwardAccel c ch hd hch =>
    -- a `Reset` is held on for the motor task
    cases hc : decide (c = .reset) with
    | true =>
      rw [of_decide_eq_true hc] at hd ⊢
      exact Or.inl (by simp [State.upstream, hd, Dispatcher.held])
    | false =>
      rw [if_neg (of_decide_eq_false hc)]
      exact Or.inr ⟨c, by simp [State.upstream, hd, Dispatcher.held]⟩
  | @forwardController c ch hd hch =>
    exact Or.inr ⟨c, by simp [State.upstream, hd, Dispatcher.held]⟩
  | _ => exact Or.inl rfl

/-- The last item of a queue stays the last until it is taken itself. -/
theorem getLast?_of_cons {α : Type*} {a b : α} {l : List α}
    (h : (a :: l).getLast? = some b) : l = [] ∧ a = b ∨ l.getLast? = some b := by
  cases l with
  | nil => exact Or.inl ⟨rfl, Option.some.inj h⟩
  | cons c l => exact Or.inr (by rw [← h, List.getLast?_cons_cons])

/-- The last command on its way to the accel task is `c`, or none is left and
the task is as `c` leaves it. -/
def AccelSettled (P : AccelTask → Prop) (c : Command) (s : State κ) : Prop :=
  s.accelLane.getLast? = some c ∨ s.accelLane = [] ∧ P s.accel

/-- What serving the last command establishes, and the accel timer keeps, stays
true of the accel task. -/
theorem accelSettled_step {P : AccelTask → Prop} {c : Command}
    (hserve : ∀ a r, AccelTask.serve cfg a c = some r → P r.1)
    (hadvance : ∀ a r, P a → a.accelTimer = true → AccelTask.advance cfg a = some r → P r.1)
    (h : s.Step cfg a s') (hs : AccelSettled P c s) : AccelSettled P c s' := by
  rcases accelLane_step h with
    ⟨c', r, -, hl, hr, ha, -⟩ | ⟨r, -, hl, -, ht, hr, ha, -⟩ | ⟨hl, ha, -⟩
  · rcases hs with hs | ⟨hs, -⟩
    · rw [hl] at hs
      rcases getLast?_of_cons hs with ⟨hnil, rfl⟩ | hs
      · exact Or.inr ⟨hnil, ha ▸ hserve _ _ hr⟩
      · exact Or.inl hs
    · rw [hl] at hs
      cases hs
  · rw [AccelSettled, hl, ha]
    exact hs.imp_right fun hs => ⟨hs.1, hadvance _ _ hs.2 ht hr⟩
  · rwa [AccelSettled, hl, ha]

/-- The state with one more command to send. -/
def State.queue (s : State κ) (c : Command) : State κ := { s with input := s.input ++ [c] }

theorem accelSettled_queue {P : AccelTask → Prop} {c : Command} (hc : c.toAccel = true)
    (s : State κ) : AccelSettled P c (s.queue c) := by
  refine Or.inl ?_
  simp only [State.accelLane, State.queue, ← List.append_assoc, List.filter_append,
    List.filter_cons, hc, if_true, List.filter_nil, List.getLast?_concat]

end Rp2040.Motor
