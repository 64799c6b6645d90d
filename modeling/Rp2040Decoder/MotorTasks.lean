/-
The three motor tasks (`application/src/motor/handler.rs`) and the motor
driver they share (`application/src/motor/mod.rs`).

`packet_handler` sends commands into `MOTOR_CHANNEL`; `dispatcher` forwards
each one to `ACCEL_HELPER_CHANNEL`, to `MOTOR_CONTROLLER_CHANNEL` or to both;
`accel_helper_task` turns velocities into output levels and signals them
through `MOTOR_SPEED_CHANNEL`, where a new level overwrites an unread one;
`motor_controller_task` drives the motor.

`State.next` is the step function of the whole: an action runs one task from
one await to its next.  `select` and `select3` poll their branches in order,
so a later branch is taken only when the earlier ones are not ready.  What the
tasks do not decide (when a timer expires, what the ADC reads) is part of the
action.
-/
import Rp2040Decoder.Accel
import Rp2040Decoder.Fifo

namespace Rp2040.Motor

open Accel

inductive Command
  | acknowledgeCv
  | reset
  /-- A 128 speed step velocity setpoint. -/
  | setVelocity128 (v : VelocitySetpoint)
  deriving DecidableEq, Repr

structure OutputLevel where
  dir : Direction
  setpoint : UInt16
  deriving DecidableEq, Repr

/-- `motor::speed::table::SpeedTable` -/
abbrev SpeedTable := Vector UInt16 127

/-- The speed controller as the motor task uses it: `κ` is its state and `β`
the type of a back-EMF measurement. -/
structure SpeedController (κ β : Type) where
  reset : κ → κ
  /-- measurement, setpoint and time in ms to an output, if there is one -/
  compute : κ → β → UInt32 → ℕ → Except Unit (Option UInt16) × κ

/-- What the tasks are started with. -/
structure Setup (κ β : Type) where
  profile : Profile
  speedTable : SpeedTable
  speedControl : SpeedController κ β

variable {κ β : Type}

/-! ### The motor driver -/

inductive PwmError
  | invalidDutyCycle
  deriving DecidableEq, Repr

/-- `RpMotorController`: the duty cycles of its two outputs, the direction last
driven and the direction of the next acknowledgement pulse. -/
structure RpMotorController where
  pwmMaxOutput : UInt16
  dir : Direction
  fwd : UInt16
  rev : UInt16
  ackDir : Direction
  deriving DecidableEq, Repr

namespace RpMotorController

def new (pwmMaxOutput : UInt16) : RpMotorController :=
  ⟨pwmMaxOutput, .forward, 0, 0, .forward⟩

/-- `DirectionControl::set_output`; the PWM refuses more than its top. -/
def setOutput (self : RpMotorController) (direction : Direction) (dutyCycle : UInt16) :
    Except PwmError Unit × RpMotorController :=
  if dutyCycle ≤ self.pwmMaxOutput then
    match direction with
    | .forward => (.ok (), { self with fwd := dutyCycle })
    | .reverse => (.ok (), { self with rev := dutyCycle })
  else (.error .invalidDutyCycle, self)

/-- `DirectionControl::stop` -/
def stopOutput (self : RpMotorController) (direction : Direction) : RpMotorController :=
  match direction with
  | .forward => { self with fwd := 0 }
  | .reverse => { self with rev := 0 }

def stop (self : RpMotorController) : RpMotorController :=
  (self.stopOutput .forward).stopOutput .reverse

def setOutputLevel (self : RpMotorController) (pwmLevel : UInt16) (direction : Direction) :
    Except PwmError Unit × RpMotorController :=
  let self := { self with dir := direction }
  match direction with
  | .forward => (self.stopOutput .reverse).setOutput .forward pwmLevel
  | .reverse => (self.stopOutput .forward).setOutput .reverse pwmLevel

/-- The first half of `acknowledge_cv`: both outputs off, then half power in
the pulse direction, which alternates. -/
def startPulse (self : RpMotorController) : RpMotorController :=
  let self := self.stop
  let half := UInt16.ofNat (self.pwmMaxOutput.toNat * 50 / 100)
  match self.ackDir with
  | .forward => (({ self with ackDir := .reverse }).setOutput .forward half).2
  | .reverse => (({ self with ackDir := .forward }).setOutput .reverse half).2

/-- Neither output drives the motor. -/
def Stopped (self : RpMotorController) : Prop := self.fwd = 0 ∧ self.rev = 0

instance (self : RpMotorController) : Decidable self.Stopped := by
  unfold Stopped
  infer_instance

theorem stop_stopped (m : RpMotorController) : m.stop.Stopped := ⟨rfl, rfl⟩

/-- The pulse drives one output only, so ending it stops the motor. -/
theorem startPulse_stopOutput_stopped (m : RpMotorController) :
    (m.startPulse.stopOutput m.ackDir).Stopped := by
  cases hd : m.ackDir <;>
    simp only [startPulse, stop, stopOutput, setOutput, hd] <;> split <;> exact ⟨rfl, rfl⟩

end RpMotorController

/-! ### `accel_helper_task` -/

/-- The locals of `accel_helper_task`; `accelTimer` says whether the timer is
armed, that is, not set to `INSTANT_MAX_FIXED`. -/
structure AccelTask where
  accelHelper : Helper
  previousSetpoint : Option VelocitySetpoint
  accelTimer : Bool
  deriving DecidableEq, Repr

/-- Converts the velocity to an output level by indexing into the speed table. -/
def toOutputLevel (speedTable : SpeedTable) (v : VelocitySetpoint) : OutputLevel :=
  ⟨v.direction, speedTable.get ⟨min v.speedStep.idx.toNat 126, by omega⟩⟩

namespace AccelTask

/-- Sends the output level to the speed channel if the setpoint has changed. -/
def maybeSendToChannel (speedTable : SpeedTable) (self : AccelTask)
    (setpoint : VelocitySetpoint) : AccelTask × Option OutputLevel :=
  if self.previousSetpoint ≠ some setpoint then
    ({ self with previousSetpoint := some setpoint }, some (toOutputLevel speedTable setpoint))
  else (self, none)

/-- One step of the helper, its setpoint sent and the timer set to the delay;
`none` is a panic. -/
def advance (cfg : Setup κ β) (self : AccelTask) : Option (AccelTask × Option OutputLevel) :=
  (self.accelHelper.step cfg.profile).map fun ((setpoint, delay), accelHelper) =>
    let (self, level) :=
      { self with accelHelper }.maybeSendToChannel cfg.speedTable setpoint
    ({ self with accelTimer := decide (delay ≠ .max) }, level)

/-- The body of the first `select` branch: a command was received. -/
def serve (cfg : Setup κ β) (self : AccelTask) :
    Command → Option (AccelTask × Option OutputLevel)
  | .acknowledgeCv => some (self, none)
  | .reset => some ({ self with accelHelper := self.accelHelper.reset, accelTimer := false }, none)
  | .setVelocity128 v => { self with accelHelper := self.accelHelper.setTarget v }.advance cfg

end AccelTask

/-! ### `motor_controller_task` -/

/-- The await `motor_controller_task` stands at. -/
inductive Phase
  /-- `select3` -/
  | select
  /-- the millisecond between reading a level and applying it -/
  | settling (level : OutputLevel)
  /-- `measure`: the wait between cutting the power and sampling -/
  | coasting
  /-- `measure`: the ADC read -/
  | sampling
  /-- the acknowledgement pulse on this output -/
  | acknowledging (direction : Direction)
  deriving DecidableEq, Repr

/-- The locals of `motor_controller_task`; `pidSampleTimer` says whether the
timer is armed. -/
structure ControllerTask (κ : Type) where
  phase : Phase
  motorController : RpMotorController
  speedControl : κ
  lastOutputLevel : OutputLevel
  pidSampleTimer : Bool

namespace ControllerTask

/-- `set_output` up to its first await: a zero setpoint stops the motor, any
other starts a measurement, which cuts the power. -/
def setOutput (cfg : Setup κ β) (self : ControllerTask κ) (newOutputLevel : Option OutputLevel) :
    ControllerTask κ :=
  let lastOutputLevel := newOutputLevel.getD self.lastOutputLevel
  if lastOutputLevel.setpoint ≠ 0 then
    { self with
      lastOutputLevel
      motorController := self.motorController.stop
      phase := .coasting }
  else
    { self with
      lastOutputLevel
      speedControl := cfg.speedControl.reset self.speedControl
      motorController := self.motorController.stop
      pidSampleTimer := false
      phase := .select }

/-- `set_output` after the measurement: the output is computed and set, errors
are only logged, and the PID timer is started. -/
def finishOutput (cfg : Setup κ β) (self : ControllerTask κ) (bemf : Except Unit β) (nowMs : ℕ) :
    ControllerTask κ :=
  let self := { self with pidSampleTimer := true, phase := .select }
  match bemf with
  | .error _ => self
  | .ok bemf =>
    let (output, speedControl) := cfg.speedControl.compute self.speedControl bemf
      self.lastOutputLevel.setpoint.toUInt32 nowMs
    let self := { self with speedControl }
    match output with
    | .ok (some output) =>
      { self with
        motorController :=
          (self.motorController.setOutputLevel output self.lastOutputLevel.dir).2 }
    | .ok none => self
    | .error _ => self

/-- The body of the second `select3` branch up to its first await. -/
def serve (cfg : Setup κ β) (self : ControllerTask κ) : Command → ControllerTask κ
  | .acknowledgeCv =>
    { self with
      motorController := self.motorController.startPulse
      phase := .acknowledging self.motorController.ackDir }
  | .reset =>
    { self with
      motorController := self.motorController.stop
      speedControl := cfg.speedControl.reset self.speedControl
      pidSampleTimer := false }
  -- handled by the speed channel
  | .setVelocity128 _ => self

/-- The rest of `acknowledge_cv` and of its branch. -/
def finishPulse (self : ControllerTask κ) (direction : Direction) : ControllerTask κ :=
  { self with
    motorController := self.motorController.stopOutput direction
    pidSampleTimer := false
    phase := .select }

end ControllerTask

/-! ### The tasks together -/

/-- The await `dispatcher` stands at. -/
inductive Dispatcher
  | receiving
  | toAccel (c : Command)
  | toController (c : Command)
  deriving DecidableEq, Repr

/-- The first send of the `match` in `dispatcher`. -/
def Dispatcher.route : Command → Dispatcher
  | .acknowledgeCv => .toController .acknowledgeCv
  | .reset => .toAccel .reset
  | .setVelocity128 v => .toAccel (.setVelocity128 v)

/-- The channels and the three tasks.  `input` are the commands
`packet_handler` has still to send. -/
structure State (κ : Type) where
  input : List Command
  motorChannel : Fifo Command 5
  dispatcher : Dispatcher
  accelHelperChannel : Fifo Command 5
  motorControllerChannel : Fifo Command 5
  motorSpeedChannel : Option OutputLevel
  accel : AccelTask
  controller : ControllerTask κ

/-- One task runs from one await to its next. -/
inductive Action (β : Type)
  /-- `packet_handler` sends its next command -/
  | submit
  | dispatch
  | forward
  | accelReceive
  | accelTimer
  | takeLevel
  | controllerReceive
  | pidTimer
  | settled
  | coasted
  | sampled (bemf : Except Unit β) (nowMs : ℕ)
  | pulsed

namespace State

def init (accelConfig : Config) (pwmMaxOutput : UInt16) (speedControl : κ)
    (commands : List Command) : State κ where
  input := commands
  motorChannel := .empty
  dispatcher := .receiving
  accelHelperChannel := .empty
  motorControllerChannel := .empty
  motorSpeedChannel := none
  accel := ⟨.new accelConfig, none, false⟩
  controller := ⟨.select, .new pwmMaxOutput, speedControl, ⟨.forward, 0⟩, false⟩

def submit (s : State κ) : Option (State κ) :=
  match s.input with
  | [] => none
  | c :: input => (s.motorChannel.send c).map fun ch => { s with input, motorChannel := ch }

def dispatch (s : State κ) : Option (State κ) :=
  if s.dispatcher = .receiving then
    s.motorChannel.receive.map fun (c, ch) =>
      { s with motorChannel := ch, dispatcher := .route c }
  else none

/-- The pending send of `dispatcher`; a `Reset` goes on to the second channel. -/
def forward (s : State κ) : Option (State κ) :=
  match s.dispatcher with
  | .receiving => none
  | .toAccel c => (s.accelHelperChannel.send c).map fun ch =>
      { s with
        accelHelperChannel := ch
        dispatcher := if c = .reset then .toController c else .receiving }
  | .toController c => (s.motorControllerChannel.send c).map fun ch =>
      { s with motorControllerChannel := ch, dispatcher := .receiving }

/-- Signalling overwrites a level that has not been read. -/
def signal (s : State κ) (r : AccelTask × Option OutputLevel) : State κ :=
  { s with accel := r.1, motorSpeedChannel := r.2.or s.motorSpeedChannel }

def accelReceive (cfg : Setup κ β) (s : State κ) : Option (State κ) :=
  s.accelHelperChannel.receive.bind fun (c, ch) =>
    (s.accel.serve cfg c).map ({ s with accelHelperChannel := ch }).signal

def accelTimer (cfg : Setup κ β) (s : State κ) : Option (State κ) :=
  if s.accelHelperChannel.items = [] ∧ s.accel.accelTimer = true then
    (s.accel.advance cfg).map s.signal
  else none

def takeLevel (s : State κ) : Option (State κ) :=
  if s.controller.phase = .select then
    s.motorSpeedChannel.map fun level =>
      { s with
        motorSpeedChannel := none
        controller := { s.controller with phase := .settling level } }
  else none

def controllerReceive (cfg : Setup κ β) (s : State κ) : Option (State κ) :=
  if s.controller.phase = .select ∧ s.motorSpeedChannel = none then
    s.motorControllerChannel.receive.map fun (c, ch) =>
      { s with motorControllerChannel := ch, controller := s.controller.serve cfg c }
  else none

def pidTimer (cfg : Setup κ β) (s : State κ) : Option (State κ) :=
  if s.controller.phase = .select ∧ s.motorSpeedChannel = none ∧
      s.motorControllerChannel.items = [] ∧ s.controller.pidSampleTimer = true then
    some { s with controller := s.controller.setOutput cfg none }
  else none

def settled (cfg : Setup κ β) (s : State κ) : Option (State κ) :=
  match s.controller.phase with
  | .settling level => some { s with controller := s.controller.setOutput cfg (some level) }
  | _ => none

def coasted (s : State κ) : Option (State κ) :=
  if s.controller.phase = .coasting then
    some { s with controller := { s.controller with phase := .sampling } }
  else none

def sampled (cfg : Setup κ β) (s : State κ) (bemf : Except Unit β) (nowMs : ℕ) :
    Option (State κ) :=
  if s.controller.phase = .sampling then
    some { s with controller := s.controller.finishOutput cfg bemf nowMs }
  else none

def pulsed (s : State κ) : Option (State κ) :=
  match s.controller.phase with
  | .acknowledging direction => some { s with controller := s.controller.finishPulse direction }
  | _ => none

/-- The state after an action, if the action is enabled. -/
def next (cfg : Setup κ β) (s : State κ) : Action β → Option (State κ)
  | .submit => s.submit
  | .dispatch => s.dispatch
  | .forward => s.forward
  | .accelReceive => s.accelReceive cfg
  | .accelTimer => s.accelTimer cfg
  | .takeLevel => s.takeLevel
  | .controllerReceive => s.controllerReceive cfg
  | .pidTimer => s.pidTimer cfg
  | .settled => s.settled cfg
  | .coasted => s.coasted
  | .sampled bemf nowMs => s.sampled cfg bemf nowMs
  | .pulsed => s.pulsed

/-- Nothing is in flight: every channel and the signal are empty, the accel
timer is disarmed, and all tasks wait at the head of their loops. -/
structure Quiescent (s : State κ) : Prop where
  input : s.input = []
  motorChannel : s.motorChannel.items = []
  dispatcher : s.dispatcher = .receiving
  accelHelperChannel : s.accelHelperChannel.items = []
  motorControllerChannel : s.motorControllerChannel.items = []
  motorSpeedChannel : s.motorSpeedChannel = none
  accelTimer : s.accel.accelTimer = false
  phase : s.controller.phase = .select

end State

end Rp2040.Motor
