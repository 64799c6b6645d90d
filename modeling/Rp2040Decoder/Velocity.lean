/-
Velocity setpoints (`motor/src/lib.rs`): a direction and a speed step, which
is `Stop`, `EmergencyStop` or a numbered step.
-/
import Mathlib.Data.Nat.Notation

namespace Rp2040

inductive Direction
  | forward
  | reverse
  deriving DecidableEq, Repr

inductive SpeedStep
  | stop
  | emergencyStop
  | num (n : UInt8)
  deriving DecidableEq, Repr

/-- Index of the speed step. -/
def SpeedStep.idx : SpeedStep → UInt8
  | .stop => 0
  | .emergencyStop => 0
  | .num n => n

@[simp] theorem SpeedStep.idx_stop : SpeedStep.stop.idx = 0 := rfl

@[simp] theorem SpeedStep.idx_emergencyStop : SpeedStep.emergencyStop.idx = 0 := rfl

@[simp] theorem SpeedStep.idx_num (n : UInt8) : (SpeedStep.num n).idx = n := rfl

/-- A vector of speed and direction. -/
structure VelocitySetpoint where
  speedStep : SpeedStep
  direction : Direction
  deriving DecidableEq, Repr

instance : Inhabited VelocitySetpoint := ⟨⟨.stop, .forward⟩⟩

namespace VelocitySetpoint

/-- Same index and same direction; `Stop`, `EmergencyStop` and step 0 are not
told apart. -/
def equivalent (self other : VelocitySetpoint) : Bool :=
  self.speedStep.idx == other.speedStep.idx && self.direction == other.direction

theorem equivalent_iff {v w : VelocitySetpoint} :
    v.equivalent w = true ↔
      v.speedStep.idx = w.speedStep.idx ∧ v.direction = w.direction := by
  simp [equivalent]

end VelocitySetpoint

end Rp2040
