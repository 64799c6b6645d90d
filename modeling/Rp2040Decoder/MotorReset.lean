/-
A `Reset` against the velocities sent before it.

A `Reset` reaches the motor task directly and the accel task through another
channel, so the motor task can take it while the accel task still has older
velocities to serve.  `lateLevel` replays what the accel task will signal from
there on; it alone decides how the run ends.

* `drained_step` — once the motor task has taken the last `Reset`, no step
  changes the outcome;
* `exists_lastResetServed` — in a run that comes to rest it has taken it;
* `accelReset_run` — the accel helper comes to rest at its defaults;
* `stopped_iff_lateLevel` — from any state that still has the `Reset` to send;
* `reset_stops_iff` — the motor ends up stopped exactly when the velocities
  overtaken by the `Reset` leave no level that drives it.
-/
import Rp2040Decoder.MotorSteps
import Rp2040Decoder.Runs

namespace Rp2040.Motor

open Accel Transition

variable {κ β : Type} {cfg : Setup κ β} {s s' : State κ} {a : Action β}

/-- The level the accel task signals last when it serves these commands. -/
def replay (cfg : Setup κ β) : List Command → AccelTask → Option OutputLevel
  | [], _ => none
  | c :: commands, task =>
    (task.serve cfg c).bind fun r => (replay cfg commands r.1).or r.2

/-- The level still to come from the commands waiting in `ACCEL_HELPER_CHANNEL`. -/
def lateLevel (cfg : Setup κ β) (s : State κ) : Option OutputLevel :=
  replay cfg s.accelHelperChannel.items s.accel

/-- The motor task takes a `Reset` and no command is left behind it. -/
def LastResetServed (e : Event (State κ) (Action β)) : Prop :=
  e.label = .controllerReceive ∧ e.pre.motorControllerChannel.items = [.reset] ∧
    e.pre.upstream = []

/-! ### After the last `Reset` -/

/-- The motor task has taken every command sent, the accel task may lag. -/
def Drained (s : State κ) : Prop := s.upstream = [] ∧ s.motorControllerChannel.items = []

/-- The level the run will end with. -/
def outcome (cfg : Setup κ β) (s : State κ) : Option OutputLevel :=
  drive ((lateLevel cfg s).or s.latest)

/-- The last command of the accel lane is the `Reset`, which disarms the timer. -/
def ResetPending (s : State κ) : Prop :=
  AccelSettled (fun task => task.accelTimer = false) .reset s

theorem resetPending_step (h : s.Step cfg a s') (hs : ResetPending s) : ResetPending s' := by
  refine accelSettled_step (fun task r hr => ?_) (fun task r hoff hon _ => ?_) h hs
  · rw [← Option.some.inj hr]
  · rw [hoff] at hon
    cases hon

theorem upstream_nil_step (h : s.Step cfg a s') (hu : s.upstream = []) : s'.upstream = [] := by
  rcases upstream_step h with hu' | ⟨c, hu'⟩
  · rw [hu', hu]
  · rw [hu'] at hu
    cases hu

/-- With the motor task's lane drained, the accel task only replays its
channel: the outcome is settled. -/
theorem drained_step (h : s.Step cfg a s') (hd : Drained s) (hp : ResetPending s) :
    Drained s' ∧ outcome cfg s' = outcome cfg s := by
  obtain ⟨hu, hc⟩ := hd
  have hu' : s'.upstream = [] := upstream_nil_step h hu
  have hlane : s.controllerLane = [] := by rw [State.controllerLane_of_upstream hu, hc]
  have hc' : s'.motorControllerChannel.items = [] := by
    rw [← State.controllerLane_of_upstream hu']
    rcases controllerLane_step h with ⟨c, -, hl, -⟩ | hl
    · rw [hl] at hlane
      cases hlane
    · rw [hl, hlane]
  refine ⟨⟨hu', hc'⟩, ?_⟩
  have hn : ¬ StopServed s a := by
    rintro ⟨-, c, hhead, -⟩
    rw [hc] at hhead
    cases hhead
  have hlatest : drive s'.latest = drive ((s.signalled cfg a).or s.latest) :=
    driven_of_not_stopServed h hn
  rw [outcome, lateLevel, ← State.accelLane_of_upstream hu', drive_or_congr _ hlatest,
    outcome, lateLevel, ← State.accelLane_of_upstream hu]
  rcases accelLane_step h with ⟨c, r, -, hl, hr, ha, hsig⟩ | ⟨r, -, -, hch, ht, -⟩ | ⟨hl, ha, hsig⟩
  · rw [hl, replay, hr, Option.bind_some, ha, hsig, Option.or_assoc]
  · -- the timer branch needs an empty channel, and then the `Reset` has disarmed it
    rcases hp with hp | ⟨-, hp⟩
    · rw [State.accelLane_of_upstream hu, hch] at hp
      cases hp
    · rw [hp] at ht
      cases ht
  · rw [hl, ha, hsig, Option.none_or]

theorem drained_run {t : List (Event (State κ) (Action β))}
    (hrun : Run (fun s a s' => s.next cfg a = some s') s t s') (hd : Drained s)
    (hp : ResetPending s) : outcome cfg s' = outcome cfg s := by
  refine (hrun.invariant
    (I := fun x => (Drained x ∧ ResetPending x) ∧ outcome cfg x = outcome cfg s)
    (fun x a x' hstep hI => ?_) ⟨⟨hd, hp⟩, rfl⟩).1.2
  have h := step_of_next hstep
  obtain ⟨⟨hxd, hxp⟩, hx⟩ := hI
  obtain ⟨hd', ho⟩ := drained_step h hxd hxp
  exact ⟨⟨hd', resetPending_step h hxp⟩, ho.trans hx⟩

/-! ### The last `Reset` is served -/

/-- The `Reset` sent last is still the last of what `dispatcher` has to
forward and of what the motor task has to serve. -/
def ResetAhead (s : State κ) : Prop :=
  (s.upstream = [] ∨ s.upstream.getLast? = some .reset) ∧
    s.controllerLane.getLast? = some .reset

theorem resetAhead_step (h : s.Step cfg a s') (hs : ResetAhead s) :
    ResetAhead s' ∨ LastResetServed ⟨s, a, s'⟩ := by
  obtain ⟨hu, hc⟩ := hs
  have hu' : s'.upstream = [] ∨ s'.upstream.getLast? = some .reset := by
    rcases upstream_step h with h' | ⟨c, h'⟩
    · rwa [h']
    · rw [h'] at hu
      rcases hu with hu | hu
      · cases hu
      · exact (getLast?_of_cons hu).imp_left And.left
  rcases controllerLane_step h with ⟨c, rfl, hl, hup, hch⟩ | hl
  · rw [hl] at hc
    rcases getLast?_of_cons hc with ⟨hnil, rfl⟩ | hc
    · refine Or.inr ⟨rfl, ?_, ?_⟩
      · rw [hch, (List.append_eq_nil_iff.mp hnil).1]
      · -- a command upstream would end in a `Reset` that is still on its way
        rw [hup]
        refine hu'.resolve_right fun hlast => ?_
        have hmem := State.reset_mem_controllerLane (List.mem_of_getLast? hlast)
        rw [hnil] at hmem
        cases hmem
    · exact Or.inl ⟨hu', hc⟩
  · exact Or.inl ⟨hu', hl ▸ hc⟩

theorem resetAhead_queue (s : State κ) : ResetAhead (s.queue .reset) := by
  constructor
  · refine Or.inr ?_
    simp only [State.upstream, State.queue, ← List.append_assoc, List.getLast?_concat]
  · simp only [State.controllerLane, State.queue, ← List.append_assoc, List.filter_append,
      List.filter_cons, Command.toController, if_true, List.filter_nil, List.getLast?_concat]

/-- In a run that comes to rest the motor task takes the last `Reset`. -/
theorem exists_lastResetServed {t : List (Event (State κ) (Action β))}
    (hrun : Run (fun s a s' => s.next cfg a = some s') s t s') (hahead : ResetAhead s)
    (hq : s'.Quiescent) : ∃ e ∈ t, LastResetServed e := by
  by_contra hnone
  have hstep : ∀ e : Event (State κ) (Action β), ¬ LastResetServed e →
      e.pre.next cfg e.label = some e.post → ResetAhead e.pre → ResetAhead e.post :=
    fun e he hst hI => (resetAhead_step (step_of_next hst) hI).resolve_right he
  have hfin := (hrun.invariant_on hstep hahead fun e he h => hnone ⟨e, he, h⟩).1
  have hup : s'.upstream = [] :=
    State.upstream_eq_nil.mpr ⟨hq.dispatcher, hq.motorChannel, hq.input⟩
  have hlast := hfin.2
  rw [State.controllerLane_of_upstream hup, hq.motorControllerChannel] at hlast
  cases hlast

/-! ### The accel task -/

/-- The accel task as a `Reset` leaves it. -/
structure AccelTask.IsReset (task : AccelTask) : Prop where
  current : task.accelHelper.current = default
  target : task.accelHelper.target = default
  accelTimer : task.accelTimer = false

/-- After the last command, a `Reset`, the accel task stays at its defaults. -/
theorem accelReset_run {t : List (Event (State κ) (Action β))}
    (hrun : Run (fun s a s' => s.next cfg a = some s') (s.queue .reset) t s')
    (hq : s'.Quiescent) : s'.accel.IsReset := by
  have hsettled : AccelSettled AccelTask.IsReset .reset s' := by
    refine (hrun.invariant (fun _ _ _ hst hI => accelSettled_step (fun task r hr => ?_)
      (fun task r hreset hon _ => ?_) (step_of_next hst) hI) (accelSettled_queue rfl s)).1
    · rw [← Option.some.inj hr]
      exact ⟨rfl, rfl, rfl⟩
    · rw [hreset.accelTimer] at hon
      cases hon
  rcases hsettled with hlast | ⟨-, hreset⟩
  · have hup : s'.upstream = [] :=
      State.upstream_eq_nil.mpr ⟨hq.dispatcher, hq.motorChannel, hq.input⟩
    rw [State.accelLane_of_upstream hup, hq.accelHelperChannel] at hlast
    cases hlast
  · exact hreset

/-! ### Reset stops the motor -/

theorem controller_inv {t : List (Event (State κ) (Action β))}
    (hrun : Run (fun s a s' => s.next cfg a = some s') s t s') (hi : s.controller.Inv) :
    s'.controller.Inv :=
  (hrun.invariant (I := fun s => s.controller.Inv)
    (fun _ _ _ hstep hI => motorInv_step (step_of_next hstep) hI) hi).1

/-- At rest the motor is driven exactly when the PID timer is armed. -/
theorem stopped_iff_driven (hi : s.controller.Inv) (hq : s.Quiescent) :
    (s.controller.motorController.Stopped ∧ s.controller.pidSampleTimer = false) ↔
      s.driven = none := by
  simp only [ControllerTask.Inv, hq.phase] at hi
  have hdriven : s.driven =
      drive (if s.controller.pidSampleTimer then some s.controller.lastOutputLevel else none) := by
    simp only [State.driven, State.latest, hq.motorSpeedChannel, ControllerTask.running, hq.phase,
      Option.none_or]
  rw [hdriven]
  cases ht : s.controller.pidSampleTimer with
  | false =>
    rw [ht] at hi
    exact ⟨fun _ => rfl, fun _ => ⟨hi, rfl⟩⟩
  | true =>
    rw [ht] at hi
    refine ⟨fun h => absurd h.2 (by simp), fun h => absurd (drive_some_eq_none.mp h) hi⟩

/-- Serving the last `Reset` leaves the late level as the only outcome. -/
theorem outcome_of_lastResetServed {e : Event (State κ) (Action β)} (he : LastResetServed e)
    (h : e.pre.Step cfg e.label e.post) :
    Drained e.post ∧ outcome cfg e.post = drive (lateLevel cfg e.pre) := by
  obtain ⟨s, a, s'⟩ := e
  obtain ⟨rfl, hch, hu⟩ : a = .controllerReceive ∧
    s.motorControllerChannel.items = [.reset] ∧ s.upstream = [] := he
  replace h : s.Step cfg .controllerReceive s' := h
  have hdriven : s'.driven = none :=
    driven_of_stopServed h ⟨rfl, .reset, by rw [hch]; rfl, Or.inl rfl⟩
  cases h with
  | @controllerReceive c ch hp hs hitems =>
    refine ⟨⟨hu, ?_⟩, ?_⟩
    · rw [hch, List.cons.injEq] at hitems
      exact hitems.2.symm
    · exact (drive_or_congr _ (hdriven.trans drive_none.symm)).trans (by rw [Option.or_none]; rfl)

/-- A `Reset` that is sent after every other command stops the motor, in a run
that comes to rest, unless the commands it overtakes leave a level that drives it. -/
theorem stopped_iff_lateLevel {t : List (Event (State κ) (Action β))}
    (hrun : Run (fun s a s' => s.next cfg a = some s') s t s') (hahead : ResetAhead s)
    (hpending : ResetPending s) (hi : s.controller.Inv) (hq : s'.Quiescent) :
    (s'.controller.motorController.Stopped ∧ s'.controller.pidSampleTimer = false) ↔
      ∀ e ∈ t, LastResetServed e → drive (lateLevel cfg e.pre) = none := by
  rw [stopped_iff_driven (controller_inv hrun hi) hq]
  have hkey : ∀ e ∈ t, LastResetServed e → s'.driven = drive (lateLevel cfg e.pre) := by
    intro e he hserved
    obtain ⟨t₁, t₂, rfl⟩ := List.append_of_mem he
    obtain ⟨hpre, hstep, hpost⟩ := hrun.split
    have hpending' : ResetPending e.pre :=
      (hpre.invariant (fun _ _ _ hst hI => resetPending_step (step_of_next hst) hI) hpending).1
    obtain ⟨hd, ho⟩ := outcome_of_lastResetServed hserved (step_of_next hstep)
    have hrest := drained_run hpost hd (resetPending_step (step_of_next hstep) hpending')
    rw [← ho, ← hrest, outcome, lateLevel, hq.accelHelperChannel, replay, Option.none_or]
    rfl
  constructor
  · intro h e he hserved
    rw [← hkey e he hserved, h]
  · intro h
    obtain ⟨e, he, hserved⟩ := exists_lastResetServed hrun hahead hq
    rw [hkey e he hserved, h e he hserved]

variable {accelConfig : Config} {pwmMaxOutput : UInt16} {speedControl : κ}
  {commands : List Command} {t : List (Event (State κ) (Action β))}

/-- **Reset against older velocities.**  In a run whose last command is a
`Reset` and which has come to rest, the motor is stopped and its PID timer
disarmed if and only if, when the motor task took that `Reset`, the commands
still waiting in `ACCEL_HELPER_CHANNEL` left no level that drives the motor. -/
theorem reset_stops_iff
    (hrun : Run (fun s a s' => s.next cfg a = some s')
      (State.init accelConfig pwmMaxOutput speedControl (commands ++ [.reset])) t s)
    (hq : s.Quiescent) :
    (s.controller.motorController.Stopped ∧ s.controller.pidSampleTimer = false) ↔
      ∀ e ∈ t, LastResetServed e → drive (lateLevel cfg e.pre) = none :=
  stopped_iff_lateLevel hrun
    (resetAhead_queue (.init accelConfig pwmMaxOutput speedControl commands))
    (accelSettled_queue rfl (.init accelConfig pwmMaxOutput speedControl commands)) ⟨rfl, rfl⟩ hq

/-- A setup to run traces in: a linear speed table and a controller whose output
is the setpoint. -/
def linearSetup : Setup Unit Unit where
  profile := .release
  speedTable := .ofFn fun i => UInt16.ofNat (8 * i.val)
  speedControl := ⟨id, fun _ _ setpoint _ => (.ok (some setpoint.toUInt16), ())⟩

/-- The start of the traces: no acceleration or deceleration rate. -/
def linearInit (commands : List Command) : State Unit :=
  State.init ⟨0, 0, 7000000⟩ 1000 () commands

instance {κ : Type} (s : State κ) : Decidable s.Quiescent :=
  decidable_of_iff
    (s.input = [] ∧ s.motorChannel.items = [] ∧ s.dispatcher = .receiving ∧
      s.accelHelperChannel.items = [] ∧ s.motorControllerChannel.items = [] ∧
      s.motorSpeedChannel = none ∧ s.accel.accelTimer = false ∧ s.controller.phase = .select)
    ⟨fun ⟨h₁, h₂, h₃, h₄, h₅, h₆, h₇, h₈⟩ => ⟨h₁, h₂, h₃, h₄, h₅, h₆, h₇, h₈⟩,
      fun ⟨h₁, h₂, h₃, h₄, h₅, h₆, h₇, h₈⟩ => ⟨h₁, h₂, h₃, h₄, h₅, h₆, h₇, h₈⟩⟩

/-- The `Reset` reaches a motor that is driven, and the accel task first. -/
theorem reset_stops_in_order :
    ∃ t s, Run (fun s a s' => State.next linearSetup s a = some s')
        (linearInit ([.setVelocity128 ⟨.num 5, .forward⟩] ++ [.reset])) t s ∧
      s.Quiescent ∧ s.controller.lastOutputLevel = ⟨.forward, 40⟩ ∧
      s.controller.motorController.Stopped ∧ s.controller.pidSampleTimer = false := by
  have hrun := Run.of_exec (State.next linearSetup)
    [.submit, .submit, .dispatch, .forward, .accelReceive, .takeLevel, .settled, .coasted,
      .sampled (.ok ()) 0, .dispatch, .forward, .forward, .accelReceive, .controllerReceive]
    (s := linearInit ([.setVelocity128 ⟨.num 5, .forward⟩] ++ [.reset])) rfl
  refine ⟨_, _, hrun, by decide, rfl, (reset_stops_iff hrun (by decide)).mpr ?_⟩
  rintro e he ⟨hlabel, -⟩
  simp only [List.mem_cons, List.not_mem_nil, or_false] at he
  rcases he with rfl | rfl | rfl | rfl | rfl | rfl | rfl | rfl | rfl | rfl | rfl | rfl | rfl | rfl
  all_goals first | rfl | cases hlabel

/-- The motor task takes the `Reset` before the accel task has served the
velocity sent before it: the motor ends up driven. -/
theorem reset_overtakes_velocity :
    ∃ t s, Run (fun s a s' => State.next linearSetup s a = some s')
        (linearInit ([.setVelocity128 ⟨.num 5, .forward⟩] ++ [.reset])) t s ∧
      s.Quiescent ∧ s.controller.motorController.fwd = 40 ∧
      ¬ (s.controller.motorController.Stopped ∧ s.controller.pidSampleTimer = false) := by
  have hrun := Run.of_exec (State.next linearSetup)
    [.submit, .submit, .dispatch, .forward, .dispatch, .forward, .forward, .controllerReceive,
      .accelReceive, .accelReceive, .takeLevel, .settled, .coasted, .sampled (.ok ()) 0]
    (s := linearInit ([.setVelocity128 ⟨.num 5, .forward⟩] ++ [.reset])) rfl
  exact ⟨_, _, hrun, by decide, rfl, by decide⟩

end Rp2040.Motor
