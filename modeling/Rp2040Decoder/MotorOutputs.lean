/-
The two outputs of the motor driver, write by write.

Between two awaits the motor task may write both PWM outputs; the motor sees
every single write.  An output is only switched on when the other one has been
switched off, and both are off while the back-EMF is measured.

* `State.writes` — the driver after each write of a step;
* `safe_of_mem_writes` — which never drives both outputs;
* `driverInv_step` — what the motor task guarantees between two steps;
* `outputs_exclusive` — over every run.
-/
import Rp2040Decoder.MotorReset

namespace Rp2040.Motor

open Accel Transition

/-! ### The writes -/

namespace RpMotorController

/-- The driver after each write of `stop`. -/
def stopWrites (self : RpMotorController) : List RpMotorController :=
  [self.stopOutput .forward, self.stop]

/-- The driver after each write of `set_output_level`; a duty cycle that is
refused writes nothing. -/
def setOutputLevelWrites (self : RpMotorController) (pwmLevel : UInt16) (direction : Direction) :
    List RpMotorController :=
  let stopped : RpMotorController :=
    match direction with
    | .forward => { self with dir := direction }.stopOutput .reverse
    | .reverse => { self with dir := direction }.stopOutput .forward
  [stopped, (self.setOutputLevel pwmLevel direction).2]

/-- The driver after each write up to the pulse of `acknowledge_cv`. -/
def startPulseWrites (self : RpMotorController) : List RpMotorController :=
  self.stopWrites ++ [self.startPulse]

/-- At most one output is on, and neither is above the top of the PWM. -/
structure Safe (pwmMaxOutput : UInt16) (m : RpMotorController) : Prop where
  exclusive : m.fwd = 0 ∨ m.rev = 0
  fwd_le : m.fwd ≤ pwmMaxOutput
  rev_le : m.rev ≤ pwmMaxOutput
  pwmMaxOutput_eq : m.pwmMaxOutput = pwmMaxOutput

/-- The output against the direction. -/
def opposite (self : RpMotorController) : Direction → UInt16
  | .forward => self.rev
  | .reverse => self.fwd

variable {m : RpMotorController} {pwmMaxOutput : UInt16}

theorem safe_stopOutput (h : m.Safe pwmMaxOutput) (d : Direction) :
    (m.stopOutput d).Safe pwmMaxOutput := by
  cases d with
  | forward => exact ⟨Or.inl rfl, UInt16.zero_le, h.rev_le, h.pwmMaxOutput_eq⟩
  | reverse => exact ⟨Or.inr rfl, h.fwd_le, UInt16.zero_le, h.pwmMaxOutput_eq⟩

theorem safe_stop (h : m.Safe pwmMaxOutput) : m.stop.Safe pwmMaxOutput :=
  safe_stopOutput (safe_stopOutput h .forward) .reverse

/-- With the other output off, an output may be set to anything the PWM takes. -/
theorem safe_setOutput {d : Direction} (h : m.Safe pwmMaxOutput) (hd : m.opposite d = 0)
    (level : UInt16) : (m.setOutput d level).2.Safe pwmMaxOutput := by
  by_cases hle : level ≤ m.pwmMaxOutput
  · rw [setOutput.eq_def, if_pos hle]
    rw [h.pwmMaxOutput_eq] at hle
    cases d with
    | forward => exact ⟨Or.inr hd, hle, h.rev_le, h.pwmMaxOutput_eq⟩
    | reverse => exact ⟨Or.inl hd, h.fwd_le, hle, h.pwmMaxOutput_eq⟩
  · rw [setOutput.eq_def, if_neg hle]
    exact h

/-- `Safe` does not look at the directions. -/
theorem Safe.congr {m' : RpMotorController} (h : m.Safe pwmMaxOutput)
    (hfwd : m'.fwd = m.fwd) (hrev : m'.rev = m.rev) (htop : m'.pwmMaxOutput = m.pwmMaxOutput) :
    m'.Safe pwmMaxOutput := by
  obtain ⟨h₁, h₂, h₃, h₄⟩ := h
  rw [← hfwd, ← hrev] at h₁
  rw [← hfwd] at h₂
  rw [← hrev] at h₃
  exact ⟨h₁, h₂, h₃, htop.trans h₄⟩

theorem safe_of_mem_stopWrites (h : m.Safe pwmMaxOutput) :
    ∀ m' ∈ m.stopWrites, m'.Safe pwmMaxOutput := by
  intro m' hm'
  simp only [stopWrites, List.mem_cons, List.not_mem_nil, or_false] at hm'
  rcases hm' with rfl | rfl
  · exact safe_stopOutput h .forward
  · exact safe_stop h

theorem safe_of_mem_setOutputLevelWrites (h : m.Safe pwmMaxOutput) (level : UInt16)
    (d : Direction) : ∀ m' ∈ m.setOutputLevelWrites level d, m'.Safe pwmMaxOutput := by
  have hdir : ({ m with dir := d } : RpMotorController).Safe pwmMaxOutput := h.congr rfl rfl rfl
  intro m' hm'
  cases d with
  | forward =>
    simp only [setOutputLevelWrites, List.mem_cons, List.not_mem_nil, or_false] at hm'
    rcases hm' with rfl | rfl
    · exact safe_stopOutput hdir .reverse
    · exact safe_setOutput (safe_stopOutput hdir .reverse) rfl level
  | reverse =>
    simp only [setOutputLevelWrites, List.mem_cons, List.not_mem_nil, or_false] at hm'
    rcases hm' with rfl | rfl
    · exact safe_stopOutput hdir .forward
    · exact safe_setOutput (safe_stopOutput hdir .forward) rfl level

theorem safe_startPulse (h : m.Safe pwmMaxOutput) : m.startPulse.Safe pwmMaxOutput := by
  have hstop := safe_stop h
  cases hd : m.ackDir with
  | forward =>
    have hp : m.startPulse =
        (({ m.stop with ackDir := .reverse } : RpMotorController).setOutput .forward
          (UInt16.ofNat (m.pwmMaxOutput.toNat * 50 / 100))).2 := by
      simp only [startPulse, stop, stopOutput, hd]
    have hdir : ({ m.stop with ackDir := .reverse } : RpMotorController).Safe pwmMaxOutput :=
      hstop.congr rfl rfl rfl
    rw [hp]
    exact safe_setOutput hdir rfl _
  | reverse =>
    have hp : m.startPulse =
        (({ m.stop with ackDir := .forward } : RpMotorController).setOutput .reverse
          (UInt16.ofNat (m.pwmMaxOutput.toNat * 50 / 100))).2 := by
      simp only [startPulse, stop, stopOutput, hd]
    have hdir : ({ m.stop with ackDir := .forward } : RpMotorController).Safe pwmMaxOutput :=
      hstop.congr rfl rfl rfl
    rw [hp]
    exact safe_setOutput hdir rfl _

theorem safe_of_mem_startPulseWrites (h : m.Safe pwmMaxOutput) :
    ∀ m' ∈ m.startPulseWrites, m'.Safe pwmMaxOutput := by
  intro m' hm'
  rcases List.mem_append.mp hm' with hm' | hm'
  · exact safe_of_mem_stopWrites h m' hm'
  · rw [List.mem_singleton.mp hm']
    exact safe_startPulse h

end RpMotorController

variable {κ β : Type} {cfg : Setup κ β} {s s' : State κ} {a : Action β}
  {t : List (Event (State κ) (Action β))} {pwmMaxOutput : UInt16}

/-- The driver after each write of the `set_output` that follows a measurement. -/
def ControllerTask.finishOutputWrites (cfg : Setup κ β) (self : ControllerTask κ)
    (bemf : Except Unit β) (nowMs : ℕ) : List RpMotorController :=
  match bemf with
  | .error _ => []
  | .ok bemf =>
    match (cfg.speedControl.compute self.speedControl bemf
      self.lastOutputLevel.setpoint.toUInt32 nowMs).1 with
    | .ok (some output) =>
      self.motorController.setOutputLevelWrites output self.lastOutputLevel.dir
    | _ => []

/-- The driver after each write of a command. -/
def ControllerTask.serveWrites (self : ControllerTask κ) : Command → List RpMotorController
  | .acknowledgeCv => self.motorController.startPulseWrites
  | .reset => self.motorController.stopWrites
  | .setVelocity128 _ => []

/-- The driver after each write of a step of the tasks. -/
def State.writes (cfg : Setup κ β) (s : State κ) : Action β → List RpMotorController
  | .controllerReceive =>
    match s.motorControllerChannel.items with
    | c :: _ => s.controller.serveWrites c
    | [] => []
  | .pidTimer => s.controller.motorController.stopWrites
  | .settled => s.controller.motorController.stopWrites
  | .sampled bemf nowMs => s.controller.finishOutputWrites cfg bemf nowMs
  | .pulsed =>
    match s.controller.phase with
    | .acknowledging direction => [s.controller.motorController.stopOutput direction]
    | _ => []
  | _ => []

/-! ### One step -/

theorem safe_of_mem_writes (h : s.controller.motorController.Safe pwmMaxOutput) :
    ∀ m ∈ s.writes cfg a, m.Safe pwmMaxOutput := by
  have hstop := RpMotorController.safe_of_mem_stopWrites h
  intro m hm
  cases a with
  | controllerReceive =>
    simp only [State.writes] at hm
    split at hm
    · rename_i c _ _
      cases c with
      | acknowledgeCv => exact RpMotorController.safe_of_mem_startPulseWrites h m hm
      | reset => exact hstop m hm
      | setVelocity128 v => cases hm
    · cases hm
  | pidTimer => exact hstop m hm
  | settled => exact hstop m hm
  | sampled bemf nowMs =>
    cases bemf with
    | error _ => cases hm
    | ok bemf =>
      simp only [State.writes, ControllerTask.finishOutputWrites] at hm
      split at hm
      · exact RpMotorController.safe_of_mem_setOutputLevelWrites h _ _ m hm
      · cases hm
  | pulsed =>
    simp only [State.writes] at hm
    split at hm
    · rw [List.mem_singleton.mp hm]
      exact RpMotorController.safe_stopOutput h _
    · cases hm
  | _ => cases hm

/-- The driver a step leaves is the one after its last write. -/
theorem motorController_of_step (h : s.Step cfg a s') :
    s'.controller.motorController = (s.writes cfg a).getLastD s.controller.motorController := by
  have hset : ∀ level, (s.controller.setOutput cfg level).motorController =
      s.controller.motorController.stop := by
    intro level
    by_cases hl : (level.getD s.controller.lastOutputLevel).setpoint ≠ 0
    · simp only [ControllerTask.setOutput, if_pos hl]
    · simp only [ControllerTask.setOutput, if_neg hl]
  cases h with
  | @controllerReceive c ch hp hs hch =>
    simp only [State.writes, hch]
    cases c <;> rfl
  | pidTimer hp hs ht => exact hset none
  | settled hp => exact hset _
  | @sampled bemf nowMs hp =>
    cases bemf with
    | error _ => rfl
    | ok bemf =>
      simp only [State.writes, ControllerTask.finishOutputWrites, ControllerTask.finishOutput]
      rcases hout : (cfg.speedControl.compute s.controller.speedControl bemf
        s.controller.lastOutputLevel.setpoint.toUInt32 nowMs).1 with _ | _ | output
      · rfl
      · rfl
      · rfl
  | pulsed hp =>
    simp only [State.writes, hp]
    rfl
  | _ => rfl

/-- The motor is not driven while it coasts and while the back-EMF is sampled. -/
def ControllerTask.Coasts (c : ControllerTask κ) : Prop :=
  c.phase = .coasting ∨ c.phase = .sampling → c.motorController.Stopped

theorem coasts_setOutput (c : ControllerTask κ) (cfg : Setup κ β) (level : Option OutputLevel) :
    (c.setOutput cfg level).Coasts := by
  intro _
  by_cases hl : (level.getD c.lastOutputLevel).setpoint ≠ 0
  · simp only [ControllerTask.setOutput, if_pos hl]
    exact c.motorController.stop_stopped
  · simp only [ControllerTask.setOutput, if_neg hl]
    exact c.motorController.stop_stopped

theorem coasts_step (h : s.Step cfg a s') (hi : s.controller.Coasts) : s'.controller.Coasts := by
  cases h with
  | takeLevel hp hl => exact fun h => by rcases h with h | h <;> cases h
  | @controllerReceive c ch hp hs hch =>
    cases c with
    | acknowledgeCv => exact fun h => by rcases h with h | h <;> cases h
    | reset => exact fun _ => s.controller.motorController.stop_stopped
    | setVelocity128 v => exact hi
  | pidTimer hp hs ht => exact coasts_setOutput _ cfg _
  | settled hp => exact coasts_setOutput _ cfg _
  | coasted hp => exact fun _ => hi (Or.inl hp)
  | @sampled bemf nowMs hp =>
    intro h
    rw [(s.controller.finishOutput_frame cfg bemf nowMs).1] at h
    rcases h with h | h <;> cases h
  | pulsed hp => exact fun h => by rcases h with h | h <;> cases h
  | _ => exact hi

/-- What the driver and the motor task guarantee between two steps. -/
theorem driverInv_step (h : s.Step cfg a s')
    (hi : s.controller.motorController.Safe pwmMaxOutput ∧ s.controller.Coasts) :
    s'.controller.motorController.Safe pwmMaxOutput ∧ s'.controller.Coasts := by
  refine ⟨?_, coasts_step h hi.2⟩
  rw [motorController_of_step h]
  have hmem := List.getLastD_mem_cons (l := s.writes cfg a) (a := s.controller.motorController)
  rcases List.mem_cons.mp hmem with hlast | hlast
  · rw [hlast]
    exact hi.1
  · exact safe_of_mem_writes hi.1 _ hlast

theorem phase_of_sampled {bemf : Except Unit β} {nowMs : ℕ}
    (h : s.Step cfg (.sampled bemf nowMs) s') : s.controller.phase = .sampling := by
  cases h with
  | sampled hp => exact hp

/-! ### Every run -/

/-- The guarantees hold wherever a run from startup takes a step. -/
theorem driverInv_run {accelConfig : Config} {speedControl : κ} {commands : List Command}
    (h : Run (fun s a s' => State.next cfg s a = some s')
      (.init accelConfig pwmMaxOutput speedControl commands) t s) :
    ∀ e ∈ t, e.pre.Step cfg e.label e.post ∧
      e.pre.controller.motorController.Safe pwmMaxOutput ∧ e.pre.controller.Coasts := by
  have hinv := h.invariant
    (I := fun s => s.controller.motorController.Safe pwmMaxOutput ∧ s.controller.Coasts)
    (fun s a s' hs hi => driverInv_step (step_of_next hs) hi)
    ⟨⟨Or.inl rfl, UInt16.zero_le, UInt16.zero_le, rfl⟩, fun _ => ⟨rfl, rfl⟩⟩
  intro e he
  exact ⟨step_of_next (h.step_of_mem e he), (hinv.2 e he).1⟩

/-- **The outputs exclude each other.**  From startup, in whatever order the
tasks run, no single write of the driver leaves both outputs on or one above the
top of the PWM, the steps leave the driver as their last write left it, and both
outputs are off when the back-EMF is sampled. -/
theorem outputs_exclusive {accelConfig : Config} {speedControl : κ} {commands : List Command}
    (h : Run (fun s a s' => State.next cfg s a = some s')
      (.init accelConfig pwmMaxOutput speedControl commands) t s) :
    ∀ e ∈ t, (∀ m ∈ e.pre.writes cfg e.label, m.Safe pwmMaxOutput) ∧
      e.post.controller.motorController =
        (e.pre.writes cfg e.label).getLastD e.pre.controller.motorController ∧
      (∀ bemf nowMs, e.label = .sampled bemf nowMs → e.pre.controller.motorController.Stopped) := by
  intro e he
  obtain ⟨hstep, hsafe, hcoasts⟩ := driverInv_run h e he
  refine ⟨safe_of_mem_writes hsafe, motorController_of_step hstep, fun bemf nowMs hlabel => ?_⟩
  exact hcoasts (Or.inr (phase_of_sampled (hlabel ▸ hstep)))

/-- A velocity and an acknowledgement: the motor is driven, and then pulsed. -/
theorem outputs_exclusive_run :
    ∃ t s, Run (fun s a s' => State.next linearSetup s a = some s')
        (linearInit [.setVelocity128 ⟨.num 5, .forward⟩, .acknowledgeCv]) t s ∧
      s.controller.motorController.fwd = 500 ∧
      ∀ e ∈ t, ∀ m ∈ e.pre.writes linearSetup e.label, m.Safe 1000 := by
  have hrun := Run.of_exec (State.next linearSetup)
    [.submit, .submit, .dispatch, .forward, .accelReceive, .takeLevel, .settled, .coasted,
      .sampled (.ok ()) 0, .dispatch, .forward, .controllerReceive]
    (s := linearInit [.setVelocity128 ⟨.num 5, .forward⟩, .acknowledgeCv]) rfl
  exact ⟨_, _, hrun, rfl, fun e he => (outputs_exclusive hrun e he).1⟩

end Rp2040.Motor
