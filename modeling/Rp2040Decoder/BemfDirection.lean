/-
The direction the back-EMF is measured in.

`measure` reads the ADC channel of the direction driven last, which only
`set_output_level` changes, after the measurement; and a level in the other
direction does not reset the speed controller, which has been running in this
one.  A motor that is never measured for a reverse level shows neither.

`motor_controller_task` runs alone here, with any levels and commands.

* `channel_next` — the channel follows a level that `compute` was called for;
* `measured_iff_forward` — both laws hold exactly in the runs that measure for
  forward levels only.
-/
import Rp2040Decoder.MotorReset

namespace Rp2040.Motor

open Transition

variable {κ β : Type}

/-- What the motor task receives at its `select3`, and the awaits it goes on
from.  A measurement reads one of the two channels of the ADC. -/
inductive ControllerAction (β : Type)
  | signal (level : OutputLevel)
  | receive (c : Command)
  | pidTimer
  | settled
  | coasted
  | sampled (adc : Direction → Except Unit β) (nowMs : ℕ)
  | pulsed

namespace ControllerTask

/-- The ADC channel `measure` reads. -/
def channel (self : ControllerTask κ) : Direction := self.motorController.dir

/-- The second half of `measure`. -/
def measure (self : ControllerTask κ) (adc : Direction → Except Unit β) : Except Unit β :=
  adc self.channel

/-- The task as it is spawned. -/
def init (pwmMaxOutput : UInt16) (speedControl : κ) : ControllerTask κ :=
  ⟨.select, .new pwmMaxOutput, speedControl, ⟨.forward, 0⟩, false⟩

def next (cfg : Setup κ β) (self : ControllerTask κ) :
    ControllerAction β → Option (ControllerTask κ)
  | .signal level =>
    if self.phase = .select then some { self with phase := .settling level } else none
  | .receive c => if self.phase = .select then some (self.serve cfg c) else none
  | .pidTimer =>
    if self.phase = .select ∧ self.pidSampleTimer = true then some (self.setOutput cfg none)
    else none
  | .settled =>
    match self.phase with
    | .settling level => some (self.setOutput cfg (some level))
    | _ => none
  | .coasted => if self.phase = .coasting then some { self with phase := .sampling } else none
  | .sampled adc nowMs =>
    if self.phase = .sampling then some (self.finishOutput cfg (self.measure adc) nowMs) else none
  | .pulsed =>
    match self.phase with
    | .acknowledging direction => some (self.finishPulse direction)
    | _ => none

/-- The steps of the task. -/
inductive Step (cfg : Setup κ β) (c : ControllerTask κ) :
    ControllerAction β → ControllerTask κ → Prop
  | signal {level : OutputLevel} :
      c.phase = .select → Step cfg c (.signal level) { c with phase := .settling level }
  | receive {command : Command} :
      c.phase = .select → Step cfg c (.receive command) (c.serve cfg command)
  | pidTimer : c.phase = .select → c.pidSampleTimer = true →
      Step cfg c .pidTimer (c.setOutput cfg none)
  | settled {level : OutputLevel} : c.phase = .settling level →
      Step cfg c .settled (c.setOutput cfg (some level))
  | coasted : c.phase = .coasting → Step cfg c .coasted { c with phase := .sampling }
  | sampled {adc : Direction → Except Unit β} {nowMs : ℕ} : c.phase = .sampling →
      Step cfg c (.sampled adc nowMs) (c.finishOutput cfg (c.measure adc) nowMs)
  | pulsed {direction : Direction} : c.phase = .acknowledging direction →
      Step cfg c .pulsed (c.finishPulse direction)

/-- Inversion of the step function. -/
theorem step_of_next {cfg : Setup κ β} {c c' : ControllerTask κ} {b : ControllerAction β}
    (h : c.next cfg b = some c') : c.Step cfg b c' := by
  cases b with
  | signal level =>
    obtain ⟨hp, h⟩ := Option.ite_none_right_eq_some.mp h
    exact Option.some.inj h ▸ .signal hp
  | receive command =>
    obtain ⟨hp, h⟩ := Option.ite_none_right_eq_some.mp h
    exact Option.some.inj h ▸ .receive hp
  | pidTimer =>
    obtain ⟨⟨hp, ht⟩, h⟩ := Option.ite_none_right_eq_some.mp h
    exact Option.some.inj h ▸ .pidTimer hp ht
  | settled =>
    simp only [next] at h
    split at h
    · rename_i level hp
      exact Option.some.inj h ▸ .settled hp
    · cases h
  | coasted =>
    obtain ⟨hp, h⟩ := Option.ite_none_right_eq_some.mp h
    exact Option.some.inj h ▸ .coasted hp
  | sampled adc nowMs =>
    obtain ⟨hp, h⟩ := Option.ite_none_right_eq_some.mp h
    exact Option.some.inj h ▸ .sampled hp
  | pulsed =>
    simp only [next] at h
    split at h
    · rename_i direction hp
      exact Option.some.inj h ▸ .pulsed hp
    · cases h

end ControllerTask

/-! ### The two laws -/

variable {cfg : Setup κ β} {self self' : ControllerTask κ} {b : ControllerAction β}
  {t : List (Event (ControllerTask κ) (ControllerAction β))}

/-- `compute` is called, with a measurement that succeeded. -/
def Computes (e : Event (ControllerTask κ) (ControllerAction β)) : Prop :=
  ∃ adc nowMs bemf, e.label = .sampled adc nowMs ∧ e.pre.measure adc = .ok bemf

/-- The speed controller is reset: for a `Reset`, or a level that is zero. -/
def ResetsSpeedControl (e : Event (ControllerTask κ) (ControllerAction β)) : Prop :=
  match e.label with
  | .receive c => c = .reset
  | .settled => ∃ level, e.pre.phase = .settling level ∧ level.setpoint = 0
  | .pidTimer => e.pre.lastOutputLevel.setpoint = 0
  | _ => False

/-- Every measurement passed to `compute` is read from the channel of the
direction of the level. -/
def MeasuredOnChannel (t : List (Event (ControllerTask κ) (ControllerAction β))) : Prop :=
  ∀ e ∈ t, Computes e → e.pre.channel = e.pre.lastOutputLevel.dir

/-- Between two levels of different directions that `compute` is called for one
after the other, the speed controller is reset. -/
def ResetOnReversal (t : List (Event (ControllerTask κ) (ControllerAction β))) : Prop :=
  ∀ t₁ e t₂ e' t₃, t = t₁ ++ e :: (t₂ ++ e' :: t₃) → Computes e → Computes e' →
    (∀ r ∈ t₂, ¬ Computes r) → e.pre.lastOutputLevel.dir ≠ e'.pre.lastOutputLevel.dir →
    ∃ r ∈ t₂, ResetsSpeedControl r

/-! ### The channel -/

namespace RpMotorController

theorem stopOutput_dir (m : RpMotorController) (direction : Direction) :
    (m.stopOutput direction).dir = m.dir := by
  cases direction <;> rfl

theorem setOutput_dir (m : RpMotorController) (direction : Direction) (dutyCycle : UInt16) :
    (m.setOutput direction dutyCycle).2.dir = m.dir := by
  simp only [setOutput]
  split
  · cases direction <;> rfl
  · rfl

/-- The direction is set even when the PWM refuses the level. -/
theorem setOutputLevel_dir (m : RpMotorController) (pwmLevel : UInt16) (direction : Direction) :
    (m.setOutputLevel pwmLevel direction).2.dir = direction := by
  cases direction <;> exact (setOutput_dir _ _ _).trans (stopOutput_dir _ _)

theorem startPulse_dir (m : RpMotorController) : m.startPulse.dir = m.dir := by
  cases h : m.ackDir <;> simp only [startPulse, stop, stopOutput, setOutput, h] <;> split <;> rfl

end RpMotorController

namespace ControllerTask

theorem setOutput_channel (c : ControllerTask κ) (l : Option OutputLevel) :
    (c.setOutput cfg l).channel = c.channel := by
  rw [setOutput]
  split <;> rfl

theorem serve_channel (c : ControllerTask κ) (command : Command) :
    (c.serve cfg command).channel = c.channel := by
  cases command with
  | acknowledgeCv => exact c.motorController.startPulse_dir
  | reset => rfl
  | setVelocity128 v => rfl

/-- Only an output that `compute` returns changes the channel. -/
theorem finishOutput_channel (c : ControllerTask κ) (bemf : Except Unit β) (nowMs : ℕ) :
    (c.finishOutput cfg bemf nowMs).channel = c.channel ∨
      (∃ x, bemf = .ok x) ∧ (c.finishOutput cfg bemf nowMs).channel = c.lastOutputLevel.dir := by
  cases bemf with
  | error _ => exact Or.inl rfl
  | ok bemf =>
    simp only [finishOutput]
    split
    · exact Or.inr ⟨⟨bemf, rfl⟩, RpMotorController.setOutputLevel_dir _ _ _⟩
    · exact Or.inl rfl
    · exact Or.inl rfl

end ControllerTask

/-- The channel stays, or becomes the one of the level `compute` was called for. -/
theorem channel_next (h : self.next cfg b = some self') :
    self'.channel = self.channel ∨
      Computes ⟨self, b, self'⟩ ∧ self'.channel = self.lastOutputLevel.dir := by
  cases ControllerTask.step_of_next h with
  | receive hp => exact Or.inl (self.serve_channel _)
  | pidTimer hp ht => exact Or.inl (self.setOutput_channel none)
  | settled hp => exact Or.inl (self.setOutput_channel _)
  | @sampled adc nowMs hp =>
    refine (self.finishOutput_channel _ nowMs).imp_right fun h => ⟨?_, h.2⟩
    obtain ⟨x, hx⟩ := h.1
    exact ⟨adc, nowMs, x, rfl, hx⟩
  | pulsed hp => exact Or.inl (RpMotorController.stopOutput_dir _ _)
  | _ => exact Or.inl rfl

variable {pwmMaxOutput : UInt16} {speedControl : κ}

/-- As long as every measurement is of its level's channel, the channel is the
first one: a reverse level is measured before it is ever driven. -/
theorem channel_forward
    (hrun : Run (fun s a s' => ControllerTask.next cfg s a = some s')
      (.init pwmMaxOutput speedControl) t self)
    (hdir : ∀ e ∈ t, Computes e →
      e.pre.channel = .forward → e.pre.lastOutputLevel.dir = .forward) :
    ∀ e ∈ t, e.pre.channel = .forward := by
  -- a step moves the channel only to the direction of a level measured for
  have hstep : ∀ e : Event (ControllerTask κ) (ControllerAction β),
      (Computes e → e.pre.channel = .forward → e.pre.lastOutputLevel.dir = .forward) →
      e.pre.next cfg e.label = some e.post → e.pre.channel = .forward →
      e.post.channel = .forward := by
    intro e he hst hpre
    rcases channel_next hst with h | ⟨hcomp, h⟩
    · rw [h, hpre]
    · rw [h, he hcomp hpre]
  have hrest := hrun.invariant_on (I := fun c => c.channel = .forward) hstep rfl hdir
  exact fun e he => (hrest.2 e he).1

/-- **The back-EMF and the direction.**  In a run of the motor task every
measurement is of the channel of its level, and the speed controller is reset
between levels of different directions, if and only if every level that
`compute` is called for is a forward one. -/
theorem measured_iff_forward
    (hrun : Run (fun s a s' => ControllerTask.next cfg s a = some s')
      (.init pwmMaxOutput speedControl) t self) :
    MeasuredOnChannel t ∧ ResetOnReversal t ↔
      ∀ e ∈ t, Computes e → e.pre.lastOutputLevel.dir = .forward := by
  constructor
  · -- the channel is forward until a reverse level is measured for, on that channel
    rintro ⟨hchannel, -⟩ e he hcomp
    rw [← hchannel e he hcomp]
    exact channel_forward hrun (fun e he hcomp hfwd => (hchannel e he hcomp).symm.trans hfwd) e he
  · intro hfwd
    refine ⟨fun e he hcomp => ?_, fun t₁ e t₂ e' t₃ ht hcomp hcomp' _ hne => absurd ?_ hne⟩
    · rw [hfwd e he hcomp]
      exact channel_forward hrun (fun e he hcomp _ => hfwd e he hcomp) e he
    · rw [hfwd e (by simp [ht]) hcomp, hfwd e' (by simp [ht]) hcomp']

/-- The start of the traces. -/
def linearTask : ControllerTask Unit := .init 1000 ()

/-- A forward level, set twice. -/
theorem measured_forward :
    ∃ t s, Run (fun s a s' => ControllerTask.next linearSetup s a = some s') linearTask t s ∧
      s.motorController.fwd = 40 ∧ MeasuredOnChannel t ∧ ResetOnReversal t := by
  have hrun := Run.of_exec (ControllerTask.next linearSetup)
    [.signal ⟨.forward, 40⟩, .settled, .coasted, .sampled (fun _ => .ok ()) 0,
      .pidTimer, .coasted, .sampled (fun _ => .ok ()) 5] (s := linearTask) rfl
  refine ⟨_, _, hrun, rfl, (measured_iff_forward hrun).mpr ?_⟩
  intro e he _
  simp only [List.mem_cons, List.not_mem_nil, or_false] at he
  rcases he with rfl | rfl | rfl | rfl | rfl | rfl | rfl <;> rfl

/-- A reverse level after a forward one is measured on the forward channel,
and the speed controller runs on. -/
theorem reverse_measured_forward :
    ∃ t s, Run (fun s a s' => ControllerTask.next linearSetup s a = some s') linearTask t s ∧
      ¬ MeasuredOnChannel t ∧ ¬ ResetOnReversal t := by
  have hrun := Run.of_exec (ControllerTask.next linearSetup)
    [.signal ⟨.forward, 40⟩, .settled, .coasted, .sampled (fun _ => .ok ()) 0,
      .signal ⟨.reverse, 40⟩, .settled, .coasted, .sampled (fun _ => .ok ()) 5]
    (s := linearTask) rfl
  -- the second measurement is the last step, and no step before it resets
  refine ⟨_, _, hrun, fun h => ?_, fun h => ?_⟩
  · exact absurd (h _ (List.mem_of_getElem? (i := 7) rfl) ⟨_, 5, (), rfl, rfl⟩) (by decide)
  · have hreset := h [_, _, _] _ [_, _, _] _ [] rfl ⟨_, 0, (), rfl, rfl⟩ ⟨_, 5, (), rfl, rfl⟩
    obtain ⟨r, hr, hreset⟩ := hreset (by
      rintro r hr ⟨adc, nowMs, bemf, hlabel, -⟩
      simp only [List.mem_cons, List.not_mem_nil, or_false] at hr
      rcases hr with rfl | rfl | rfl <;> cases hlabel) (by decide)
    simp only [List.mem_cons, List.not_mem_nil, or_false] at hr
    rcases hr with rfl | rfl | rfl
    · exact hreset
    · obtain ⟨level, hp, h0⟩ := hreset
      rw [← Phase.settling.inj hp] at h0
      cases h0
    · exact hreset

end Rp2040.Motor
