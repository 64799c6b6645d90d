/-
The packet handler task (`packet_handler` in `application/src/main.rs`).

Three filters stand between an operation and the pins: a velocity that repeats
the last operation is dropped, and the function handler skips a direction or
flags it already has.  None of them leaves an output stale.

* `follows_finish` — what the operations so far ask for, and what the task
  remembers of them;
* `outputs_follow_operations` — the pins after any operations.
-/
import Mathlib.Data.List.Induction
import Rp2040Decoder.FunctionOutputs
import Rp2040Decoder.MotorTasks
import Rp2040Decoder.ServiceMode

namespace Rp2040

open Functions Words

/-- The locals of `packet_handler`. -/
structure PacketHandler (G P : Type) where
  lastCommand : Option Op
  fgHandler : Functions.Handler G P
  deriving DecidableEq

namespace PacketHandler

variable {G P : Type}

/-- What an operation sends through `MOTOR_CHANNEL`. -/
def command (self : PacketHandler G P) (op : Op) : Option Motor.Command :=
  match op with
  | .acknowledgeCv => some .acknowledgeCv
  | .reset => some .reset
  -- only sent if something changed
  | .velocity128 sp => if self.lastCommand ≠ some op then some (.setVelocity128 sp) else none
  | .setFunctions _ => none
  | .reboot => none

variable [Output G] [PwmOutput P]

/-- The rest of the loop body, after the send. -/
def finish (self : PacketHandler G P) (op : Op) : PacketHandler G P :=
  let fgHandler :=
    match op with
    | .velocity128 sp =>
      if self.lastCommand ≠ some op then self.fgHandler.setDirection sp.direction
      else self.fgHandler
    | .setFunctions fg => self.fgHandler.handle fg
    | _ => self.fgHandler
  ⟨some op, fgHandler⟩

/-- The body of the loop for an operation; a reboot does not return. -/
def execute (self : PacketHandler G P) (op : Op) :
    Option (Option Motor.Command × PacketHandler G P) :=
  if op = .reboot then none else some (self.command op, self.finish op)

/-- The task as it is spawned. -/
def start (store : Settings) : PacketHandler G P := ⟨none, newHandler store⟩

/-- The task after the operations. -/
def run (self : PacketHandler G P) (ops : List Op) : Option (PacketHandler G P) :=
  ops.foldlM (fun self op => (self.execute op).map Prod.snd) self

end PacketHandler

/-! ### What the operations ask for -/

def Op.velocity : Op → Option VelocitySetpoint
  | .velocity128 v => some v
  | _ => none

def Op.functionGroup : Op → Option FunctionGroup
  | .setFunctions fg => some fg
  | _ => none

/-- The direction of the last velocity. -/
def directionOf (ops : List Op) : Direction :=
  ((ops.filterMap Op.velocity).getLast?.map VelocitySetpoint.direction).getD .forward

/-- The flags after the function groups. -/
def flagsOf (ops : List Op) : FunctionGroupFlags :=
  (ops.filterMap Op.functionGroup).foldl (fun flags fg => fg.unionWithMask flags) 0

theorem directionOf_concat (ops : List Op) (op : Op) :
    directionOf (ops ++ [op]) = (op.velocity.map VelocitySetpoint.direction).getD
      (directionOf ops) := by
  cases op <;> simp [directionOf, Op.velocity]

theorem flagsOf_concat (ops : List Op) (op : Op) :
    flagsOf (ops ++ [op]) =
      (op.functionGroup.map fun fg => fg.unionWithMask (flagsOf ops)).getD (flagsOf ops) := by
  rw [flagsOf, List.filterMap_append, List.foldl_append]
  cases op <;> rfl

namespace PacketHandler

variable {G P : Type} [Output G] [PwmOutput P] {self : PacketHandler G P} {store : Settings}
  {ops : List Op}

/-- The task has executed the operations. -/
structure Follows (store : Settings) (ops : List Op) (s : PacketHandler G P) : Prop where
  lastCommand : s.lastCommand = ops.getLast?
  config : s.fgHandler.config = store.config
  flags : s.fgHandler.flags = flagsOf ops
  direction : s.fgHandler.direction = directionOf ops
  reflects : s.fgHandler.Reflects

theorem follows_start : (start store : PacketHandler G P).Follows store [] where
  lastCommand := rfl
  config := rfl
  flags := rfl
  direction := rfl
  reflects := newHandler_reflects store

/-- A velocity that repeats the last operation has the direction already. -/
theorem Follows.direction_of_repeated (h : self.Follows store ops) {v : VelocitySetpoint}
    (hlast : self.lastCommand = some (.velocity128 v)) :
    self.fgHandler.direction = v.direction := by
  obtain ⟨ops', rfl⟩ := List.getLast?_eq_some_iff.mp (h.lastCommand.symm.trans hlast)
  rw [h.direction, directionOf_concat]
  rfl

@[simp] theorem finish_config (s : PacketHandler G P) (op : Op) :
    (s.finish op).fgHandler.config = s.fgHandler.config := by
  cases op with
  | velocity128 sp =>
    simp only [finish]
    split
    · exact Functions.Handler.setDirection_config _ _
    · rfl
  | setFunctions fg => exact Functions.Handler.handle_config _ _
  | _ => rfl

@[simp] theorem finish_flags (s : PacketHandler G P) (op : Op) :
    (s.finish op).fgHandler.flags =
      (op.functionGroup.map fun fg => fg.unionWithMask s.fgHandler.flags).getD
        s.fgHandler.flags := by
  cases op with
  | velocity128 sp =>
    simp only [finish]
    split
    · exact Functions.Handler.setDirection_flags _ _
    · rfl
  | setFunctions fg => exact Functions.Handler.handle_flags _ _
  | _ => rfl

theorem finish_reflects (h : self.fgHandler.Reflects) (op : Op) :
    (self.finish op).fgHandler.Reflects := by
  cases op with
  | velocity128 sp =>
    simp only [finish]
    split
    · exact Functions.Handler.setDirection_reflects _ h
    · exact h
  | setFunctions fg => exact Functions.Handler.handle_reflects fg h
  | _ => exact h

theorem Follows.finish_direction (h : self.Follows store ops) (op : Op) :
    (self.finish op).fgHandler.direction = directionOf (ops ++ [op]) := by
  rw [directionOf_concat, ← h.direction]
  cases op with
  | velocity128 sp =>
    by_cases hlast : self.lastCommand ≠ some (.velocity128 sp)
    · simp only [finish, if_pos hlast]
      exact Functions.Handler.setDirection_direction _ _
    · -- dropped: the operation before was this velocity
      simp only [finish, if_neg hlast]
      exact h.direction_of_repeated (not_not.mp hlast)
  | setFunctions fg => exact Functions.Handler.handle_direction _ _
  | _ => rfl

/-- No filter leaves the task behind the operations. -/
theorem follows_finish (h : self.Follows store ops) (op : Op) :
    (self.finish op).Follows store (ops ++ [op]) where
  lastCommand := List.getLast?_concat.symm
  config := (finish_config self op).trans h.config
  flags := by rw [finish_flags, flagsOf_concat, h.flags]
  direction := h.finish_direction op
  reflects := finish_reflects h.reflects op

theorem follows_run (h : Op.reboot ∉ ops) :
    ∃ s, (start store : PacketHandler G P).run ops = some s ∧ s.Follows store ops := by
  induction ops using List.reverseRecOn with
  | nil => exact ⟨_, rfl, follows_start⟩
  | append_singleton ops op ih =>
    obtain ⟨hops, hop⟩ := not_or.mp (mt List.mem_append.mpr h)
    obtain ⟨s, hs, hf⟩ := ih hops
    refine ⟨s.finish op, ?_, follows_finish hf op⟩
    have hne : op ≠ .reboot := fun h' => hop (h' ▸ List.mem_singleton.mpr rfl)
    rw [run] at hs ⊢
    rw [List.foldlM_append, hs]
    show (s.execute op).map Prod.snd >>= _ = _
    rw [execute, if_neg hne]
    rfl

/-- **The pins follow the operations.**  After any operations, with their
repeated velocities, the outputs that are on are those of the pins that some
function with its flag set has in its map for the direction of the last
velocity; a pin is driven if its output is on and can drive it. -/
theorem outputs_follow_operations (store : Settings) (ops : List Op) (h : Op.reboot ∉ ops) :
    ∃ s, (start store : PacketHandler G P).run ops = some s ∧
      s.fgHandler.flags = flagsOf ops ∧
      s.fgHandler.outputDrivers.toList.map OutputDriver.pin = functionPins ∧
      ∀ d ∈ s.fgHandler.outputDrivers.toList,
        d.Shows (decide (store.config.Wants (directionOf ops) (flagsOf ops) d.pin.toNat)) ∧
        (d.Driven ↔
          store.config.Wants (directionOf ops) (flagsOf ops) d.pin.toNat ∧ d.Drivable) := by
  obtain ⟨s, hs, hf⟩ : ∃ s : PacketHandler G P, (start store).run ops = some s ∧
    s.Follows store ops := follows_run h
  refine ⟨s, hs, hf.flags, hf.reflects.pins, fun d hd => ?_⟩
  have hshows := hf.reflects.shows d hd
  rw [hf.config, hf.flags, hf.direction] at hshows
  refine ⟨hshows, ?_⟩
  rw [OutputDriver.driven_iff hshows, decide_eq_true_iff]

/-- The lamp is switched on and the direction reversed, by a repeated velocity. -/
theorem outputs_after_reversing :
    (((start lampStore : PacketHandler Gpio PwmChannel).run
        [.setFunctions (.new 0b11111 1), .velocity128 ⟨.num 5, .reverse⟩,
          .velocity128 ⟨.num 5, .reverse⟩]).map fun s =>
      (s.fgHandler.outputDrivers.toList.filter fun d => d.Driven).map OutputDriver.pin) =
        some [1] ∧
    ∃ s, (start lampStore : PacketHandler Gpio PwmChannel).run
        [.setFunctions (.new 0b11111 1), .velocity128 ⟨.num 5, .reverse⟩,
          .velocity128 ⟨.num 5, .reverse⟩] = some s ∧
      ∀ d ∈ s.fgHandler.outputDrivers.toList,
        d.Driven ↔ lampStore.config.Wants .reverse 1 d.pin.toNat ∧ d.Drivable := by
  refine ⟨by decide +kernel, ?_⟩
  obtain ⟨s, hs, -, -, hd⟩ := outputs_follow_operations (G := Gpio) (P := PwmChannel) lampStore
    [.setFunctions (.new 0b11111 1), .velocity128 ⟨.num 5, .reverse⟩,
      .velocity128 ⟨.num 5, .reverse⟩] (by decide)
  exact ⟨s, hs, fun d hmem => (hd d hmem).2⟩

end PacketHandler

end Rp2040
