/-
The acceleration helper (`motor/src/speed/accel.rs`).

`Helper.step` moves the current setpoint one step towards the target and
returns the setpoint to drive with the delay before the next call.  Its two
`u8` operations are unguarded; `Profile` says what an overflow does.

* `Helper.step_cases` — the target is reached already, or one speed step is
  taken from the setpoint with the direction switched;
* `Helper.step_frame` — a step leaves the configuration and the target alone;
* `Helper.step_eq_target` — a step that asks for no further call has reached the
  target.
-/
import Rp2040Decoder.Overflow
import Rp2040Decoder.Runs
import Rp2040Decoder.Velocity

namespace Rp2040.Accel

open Transition

/-- `core::time::Duration`; `max` is `Duration::MAX`, the wait that does not
end. -/
inductive Duration
  | nanos (n : ℕ)
  | max
  deriving DecidableEq, Repr

structure Config where
  /-- CV3 -/
  accelRate : UInt8
  /-- CV4 -/
  decelRate : UInt8
  /-- CV175, in nanoseconds -/
  loopDelay : ℕ
  deriving DecidableEq, Repr

structure Helper where
  config : Config
  target : VelocitySetpoint
  current : VelocitySetpoint
  deriving DecidableEq, Repr

namespace Helper

def new (config : Config) : Helper := ⟨config, default, default⟩

def setTarget (self : Helper) (target : VelocitySetpoint) : Helper :=
  { self with target }

def reset (self : Helper) : Helper :=
  { self with current := default, target := default }

/-- The current setpoint after the direction switch at the head of `step`:
with no deceleration rate, or already stopped, the direction changes at once. -/
def switchDirection (self : Helper) : VelocitySetpoint :=
  if self.current.direction ≠ self.target.direction then
    if self.config.decelRate = 0 ∨ self.current.speedStep.idx = 0 then
      ⟨.stop, self.target.direction⟩
    else self.current
  else self.current

/-- Whether the step made from `current` goes up. -/
def accelerating (self : Helper) (current : VelocitySetpoint) : Bool :=
  decide (current.speedStep.idx < self.target.speedStep.idx) &&
    decide (current.direction = self.target.direction)

/-- The speed step after one step from `current`; `none` is a panic. -/
def nextSpeedStep (p : Profile) (self : Helper) (current : VelocitySetpoint) :
    Option SpeedStep :=
  if self.target.speedStep = .emergencyStop then some .emergencyStop
  else if self.accelerating current then
    if self.config.accelRate > 0 then (p.addU8 current.speedStep.idx 1).map .num
    -- there is no acceleration rate, so jump directly to the target
    else some (.num self.target.speedStep.idx)
  else
    if self.config.decelRate > 0 then (p.subU8 current.speedStep.idx 1).map .num
    else some (.num self.target.speedStep.idx)

/-- The wait after a step that has not reached the target. -/
def stepDelay (self : Helper) (accelerating : Bool) : Duration :=
  if accelerating then .nanos (self.config.accelRate.toNat * self.config.loopDelay)
  else .nanos (self.config.decelRate.toNat * self.config.loopDelay)

/-- Calculates the new setpoint after a single step: the setpoint to drive,
the delay before calling `step` again, and the helper afterwards.  `none` is
a panic. -/
def step (p : Profile) (self : Helper) :
    Option ((VelocitySetpoint × Duration) × Helper) :=
  if self.current.equivalent self.target then some ((self.target, .max), self)
  else
    (self.nextSpeedStep p self.switchDirection).map fun speedStep =>
      let current : VelocitySetpoint := ⟨speedStep, self.switchDirection.direction⟩
      -- if, after updating, we've reached the target, we're done!
      if current.equivalent self.target then
        ((self.target, .max), { self with current })
      else
        ((current, self.stepDelay (self.accelerating self.switchDirection)),
          { self with current })

/-! ### What one step does -/

/-- A step short of the target takes the next speed step from the switched
setpoint. -/
theorem step_of_next {p : Profile} {h : Helper} {s : SpeedStep}
    (he : h.current.equivalent h.target = false)
    (hn : h.nextSpeedStep p h.switchDirection = some s) :
    h.step p = some
      (if VelocitySetpoint.equivalent ⟨s, h.switchDirection.direction⟩ h.target then
          (h.target, .max)
        else
          (⟨s, h.switchDirection.direction⟩,
            h.stepDelay (h.accelerating h.switchDirection)),
        { h with current := ⟨s, h.switchDirection.direction⟩ }) := by
  rw [step, if_neg (by simp [he]), hn, Option.map_some]
  simp only
  split <;> rfl

/-- Inversion of `step`: the target is reached already, or one speed step is
taken from the switched setpoint, to the target or short of it. -/
theorem step_cases {p : Profile} {h h' : Helper} {r : VelocitySetpoint × Duration}
    (hs : h.step p = some (r, h')) :
    (h.current.equivalent h.target = true ∧ r = (h.target, .max) ∧ h' = h) ∨
    (h.current.equivalent h.target = false ∧
      ∃ s, h.nextSpeedStep p h.switchDirection = some s ∧
        h' = { h with current := ⟨s, h.switchDirection.direction⟩ } ∧
        ((h'.current.equivalent h.target = true ∧ r = (h.target, .max)) ∨
          (h'.current.equivalent h.target = false ∧
            r = (h'.current, h.stepDelay (h.accelerating h.switchDirection))))) := by
  cases he : h.current.equivalent h.target with
  | true =>
    rw [step, if_pos he, Option.some.injEq, Prod.mk.injEq] at hs
    exact Or.inl ⟨rfl, hs.1.symm, hs.2.symm⟩
  | false =>
    cases hn : h.nextSpeedStep p h.switchDirection with
    | none =>
      rw [step, if_neg (by simp [he]), hn] at hs
      cases hs
    | some s =>
      rw [step_of_next he hn, Option.some.injEq, Prod.mk.injEq] at hs
      obtain ⟨rfl, rfl⟩ := hs
      refine Or.inr ⟨rfl, s, rfl, rfl, ?_⟩
      cases he' : VelocitySetpoint.equivalent ⟨s, h.switchDirection.direction⟩ h.target with
      | true => exact Or.inl ⟨rfl, if_pos rfl⟩
      | false => exact Or.inr ⟨rfl, if_neg Bool.false_ne_true⟩

/-- A step leaves the configuration and the target alone. -/
theorem step_frame {p : Profile} {h h' : Helper} {r : VelocitySetpoint × Duration}
    (hs : h.step p = some (r, h')) : h'.config = h.config ∧ h'.target = h.target := by
  rcases step_cases hs with ⟨-, -, rfl⟩ | ⟨-, s, -, rfl, -⟩
  · exact ⟨rfl, rfl⟩
  · exact ⟨rfl, rfl⟩

/-- A step that asks for no further call has reached the target. -/
theorem step_eq_target {p : Profile} {h h' : Helper} {v : VelocitySetpoint}
    (hs : h.step p = some ((v, .max), h')) : v = h.target := by
  rcases step_cases hs with ⟨-, hr, -⟩ | ⟨-, s, -, -, ⟨-, hr⟩ | ⟨-, hr⟩⟩
  · exact congrArg Prod.fst hr
  · exact congrArg Prod.fst hr
  · have hd := congrArg Prod.snd hr
    cases ha : h.accelerating h.switchDirection <;> simp [stepDelay, ha] at hd

end Helper

end Rp2040.Accel
