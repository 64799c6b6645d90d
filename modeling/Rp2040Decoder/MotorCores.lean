/-
The two cores of the C firmware at the motor outputs (`controller_general`,
`measure`, `adjust_pwm_level` and the loop of `core1_entry` in
`Software/core1.c`; `instruction_evaluation`, `reset_message_check`,
`acknowledge` and `adc_offset_adjustment` in `Software/core0.c`).

Core 0 writes the two speed targets one after the other, and the motor outputs
for an acknowledgement; core 1 reads the targets several times in a call of the
controller, and writes the outputs one after the other.  A step is one such
access; only a call of the speed helper reads all it needs in one step.

* `step_of_next` — what a step can do;
* `exec_targets` — the evaluation of a packet brings the targets as core 0 does
  here;
* `Leveled.step` — no level exceeds the maximum.
-/
import Rp2040Decoder.Core1Controller
import Rp2040Decoder.OperationPackets
import Rp2040Decoder.SpeedHelper

namespace Rp2040

open Core0 Transition

/-- `get_direction_of_speed_step` -/
def directionOfSpeedStep (speedStep : UInt8) : Direction :=
  if getDirectionOfSpeedStep speedStep = 1 then .forward else .reverse

def Direction.opposite : Direction → Direction
  | .forward => .reverse
  | .reverse => .forward

/-- Where core 1 stands in `controller_general`. -/
inductive Core1Phase
  | idle
  /-- the target is read, the previous target is not -/
  | checking (target : UInt8)
  | measuring
  | clearingFwd (direction : Direction)
  | clearingRev (direction : Direction)
  | sampling (direction : Direction)
  /-- `adjust_pwm_level` is called -/
  | adjusting (level : UInt16)
  | clearing (direction : Direction) (level : UInt16)
  | setting (direction : Direction) (level : UInt16)
  deriving DecidableEq, Repr

/-- Where core 0 stands. -/
inductive Core0Phase
  | idle
  /-- the previous target is written, the target is not -/
  | target (speedStep : UInt8)
  /-- the pulses of `acknowledge` -/
  | pulseFwd
  | pulseGap
  | pulseRev
  /-- `adc_offset_adjustment` has cleared the forward output -/
  | calibrating
  deriving DecidableEq, Repr

/-- The state of both cores, the levels of the motor outputs and the CVs. -/
structure Cores (F : Type) where
  helper : SpeedHelper
  core1 : Core1 F
  phase : Core1Phase
  core0 : Core0Phase
  /-- of `MOTOR_FWD_PIN` and `MOTOR_REV_PIN` -/
  levels : Direction → UInt16
  cvArrayFlash : ℕ → UInt8

namespace Cores

/-- A step of one of the cores. -/
inductive Action (F : Type)
  /-- core 0 evaluates a speed instruction -/
  | speed (speedStep : UInt8)
  /-- core 0 evaluates a reset message -/
  | reset
  | acknowledge
  | calibrate
  /-- core 0 programs the flash, and core 1 is halted -/
  | program (cvArrayFlash : ℕ → UInt8)
  /-- core 0 goes on with what it began -/
  | core0
  /-- `speed_helper_flag` -/
  | helper
  /-- `controller_flag` -/
  | controller
  /-- core 1 goes on with the call -/
  | core1
  /-- the samples of the measurement are taken -/
  | sample (measurement : F)

variable {F : Type}

/-- `pwm_set_gpio_level` -/
def setLevel (direction : Direction) (level : UInt16) (self : Cores F) : Cores F :=
  { self with levels := Function.update self.levels direction level }

/-- Core 0 goes on. -/
def nextCore0 (self : Cores F) : Option (Cores F) :=
  match self.core0 with
  | .idle => none
  | .target speedStep =>
    some { self with
      helper := { self.helper with speedStepTarget := speedStep }
      core0 := .idle }
  | .pulseFwd => some { self.setLevel .forward 0 with core0 := .pulseGap }
  | .pulseGap =>
    some { self.setLevel .reverse (maxLevel self.cvArrayFlash) with core0 := .pulseRev }
  | .pulseRev => some { self.setLevel .reverse 0 with core0 := .idle }
  | .calibrating => some { self.setLevel .reverse 0 with core0 := .idle }

/-- The emergency stop of the direction. -/
def emergencyStop (speedStep : UInt8) : UInt8 :=
  if getDirectionOfSpeedStep speedStep = 1 then SPEED_STEP_FORWARD_EMERGENCY_STOP
  else SPEED_STEP_REVERSE_EMERGENCY_STOP

/-- Core 0 writes the previous target. -/
def beginTarget (speedStep : UInt8) (self : Cores F) : Cores F :=
  { self with
    helper := { self.helper with speedStepTargetPrev := self.helper.speedStepTarget }
    core0 := .target speedStep }

/-- `ctrl_par->speed_table[i]` -/
def speedTable (self : Cores F) (i : UInt8) : UInt16 :=
  if h : i.toNat < SPEED_TABLE_LEN then self.core1.speedTable ⟨i.toNat, h⟩ else 0

variable [CFloat F]

/-- Core 1 goes on. -/
def nextCore1 (self : Cores F) : Option (Cores F) :=
  match self.phase with
  | .idle => none
  | .checking target =>
    if self.helper.setpoint = 0 ∨ getDirectionOfSpeedStep target ≠
        getDirectionOfSpeedStep self.helper.speedStepTargetPrev then
      some { self with core1 := self.core1.reset, phase := .adjusting 0 }
    else some { self with phase := .measuring }
  | .measuring =>
    some { self with phase := .clearingFwd (directionOfSpeedStep self.helper.speedStepTarget) }
  | .clearingFwd direction => some { self.setLevel .forward 0 with phase := .clearingRev direction }
  | .clearingRev direction => some { self.setLevel .reverse 0 with phase := .sampling direction }
  | .sampling _ => none
  | .adjusting level =>
    some { self with phase := .clearing (directionOfSpeedStep self.helper.speedStepTarget) level }
  | .clearing direction level =>
    some { self.setLevel direction.opposite 0 with phase := .setting direction level }
  | .setting direction level => some { self.setLevel direction level with phase := .idle }

/-- The controller has a measurement. -/
def nextSample (divZero : UInt16) (measurement : F) (self : Cores F) : Option (Cores F) :=
  match self.phase with
  | .sampling _ =>
    let (level, core1) :=
      self.core1.respond divZero (maxLevel self.cvArrayFlash) self.helper.setpoint measurement
    some { self with core1, phase := level.elim .idle .adjusting }
  | _ => none

/-- A step; `divZero` is what `get_initial_level` returns when it divides by 0. -/
def next (divZero : UInt16) (self : Cores F) : Action F → Option (Cores F)
  | .speed speedStep => if self.core0 = .idle then some (self.beginTarget speedStep) else none
  | .reset =>
    if self.core0 = .idle then
      some (self.beginTarget (emergencyStop self.helper.speedStepTarget))
    else none
  | .acknowledge =>
    if self.core0 = .idle then
      some { self.setLevel .forward (maxLevel self.cvArrayFlash) with core0 := .pulseFwd }
    else none
  | .calibrate =>
    if self.core0 = .idle then some { self.setLevel .forward 0 with core0 := .calibrating }
    else none
  | .program cvArrayFlash => if self.core0 = .idle then some { self with cvArrayFlash } else none
  | .core0 => self.nextCore0
  | .helper =>
    if self.phase = .idle then
      some { self with
        helper := self.helper.speedHelper self.speedTable (self.cvArrayFlash 2)
          (self.cvArrayFlash 3) }
    else none
  | .controller =>
    if self.phase = .idle then
      some { self with phase := .checking self.helper.speedStepTarget }
    else none
  | .core1 => self.nextCore1
  | .sample measurement => self.nextSample divZero measurement

/-- At startup. -/
def boot (cvArrayFlash : ℕ → UInt8) : Cores F :=
  ⟨SpeedHelper.boot, .init cvArrayFlash, .idle, .idle, fun _ => 0, cvArrayFlash⟩

/-! ### One step -/

/-- What a step can do. -/
inductive Step (divZero : UInt16) (s : Cores F) : Action F → Cores F → Prop
  | speed (b : UInt8) : s.core0 = .idle → Step divZero s (.speed b) (s.beginTarget b)
  | reset : s.core0 = .idle →
      Step divZero s .reset (s.beginTarget (emergencyStop s.helper.speedStepTarget))
  | acknowledge : s.core0 = .idle → Step divZero s .acknowledge
      { s.setLevel .forward (maxLevel s.cvArrayFlash) with core0 := .pulseFwd }
  | calibrate : s.core0 = .idle →
      Step divZero s .calibrate { s.setLevel .forward 0 with core0 := .calibrating }
  | program (cvArrayFlash : ℕ → UInt8) : s.core0 = .idle →
      Step divZero s (.program cvArrayFlash) { s with cvArrayFlash }
  | writeTarget (b : UInt8) : s.core0 = .target b →
      Step divZero s .core0
        { s with helper := { s.helper with speedStepTarget := b }, core0 := .idle }
  | endFwd : s.core0 = .pulseFwd →
      Step divZero s .core0 { s.setLevel .forward 0 with core0 := .pulseGap }
  | beginRev : s.core0 = .pulseGap → Step divZero s .core0
      { s.setLevel .reverse (maxLevel s.cvArrayFlash) with core0 := .pulseRev }
  | endRev : s.core0 = .pulseRev →
      Step divZero s .core0 { s.setLevel .reverse 0 with core0 := .idle }
  | endCalibrate : s.core0 = .calibrating →
      Step divZero s .core0 { s.setLevel .reverse 0 with core0 := .idle }
  | helper : s.phase = .idle → Step divZero s .helper
      { s with
        helper := s.helper.speedHelper s.speedTable (s.cvArrayFlash 2) (s.cvArrayFlash 3) }
  | controller : s.phase = .idle →
      Step divZero s .controller { s with phase := .checking s.helper.speedStepTarget }
  | idle (b : UInt8) : s.phase = .checking b →
      (s.helper.setpoint = 0 ∨
        getDirectionOfSpeedStep b ≠ getDirectionOfSpeedStep s.helper.speedStepTargetPrev) →
      Step divZero s .core1 { s with core1 := s.core1.reset, phase := .adjusting 0 }
  | control (b : UInt8) : s.phase = .checking b →
      ¬ (s.helper.setpoint = 0 ∨
        getDirectionOfSpeedStep b ≠ getDirectionOfSpeedStep s.helper.speedStepTargetPrev) →
      Step divZero s .core1 { s with phase := .measuring }
  | measure : s.phase = .measuring → Step divZero s .core1
      { s with phase := .clearingFwd (directionOfSpeedStep s.helper.speedStepTarget) }
  | clearFwd (d : Direction) : s.phase = .clearingFwd d →
      Step divZero s .core1 { s.setLevel .forward 0 with phase := .clearingRev d }
  | clearRev (d : Direction) : s.phase = .clearingRev d →
      Step divZero s .core1 { s.setLevel .reverse 0 with phase := .sampling d }
  | adjust (level : UInt16) : s.phase = .adjusting level → Step divZero s .core1
      { s with phase := .clearing (directionOfSpeedStep s.helper.speedStepTarget) level }
  | clear (d : Direction) (level : UInt16) : s.phase = .clearing d level →
      Step divZero s .core1 { s.setLevel d.opposite 0 with phase := .setting d level }
  | set (d : Direction) (level : UInt16) : s.phase = .setting d level →
      Step divZero s .core1 { s.setLevel d level with phase := .idle }
  | sample (measurement : F) (d : Direction) (level : Option UInt16) (core1 : Core1 F) :
      s.phase = .sampling d →
      s.core1.respond divZero (maxLevel s.cvArrayFlash) s.helper.setpoint measurement =
        (level, core1) →
      Step divZero s (.sample measurement) { s with core1, phase := level.elim .idle .adjusting }

variable {divZero : UInt16} {self self' : Cores F} {a : Action F}

theorem step_of_nextCore0 (h : self.nextCore0 = some self') : Step divZero self .core0 self' := by
  rw [nextCore0] at h
  split at h
  · cases h
  · rename_i b heq
    obtain rfl := Option.some.inj h
    exact .writeTarget b heq
  · rename_i heq
    obtain rfl := Option.some.inj h
    exact .endFwd heq
  · rename_i heq
    obtain rfl := Option.some.inj h
    exact .beginRev heq
  · rename_i heq
    obtain rfl := Option.some.inj h
    exact .endRev heq
  · rename_i heq
    obtain rfl := Option.some.inj h
    exact .endCalibrate heq

theorem step_of_nextCore1 (h : self.nextCore1 = some self') : Step divZero self .core1 self' := by
  rw [nextCore1] at h
  split at h
  · cases h
  · rename_i b heq
    split at h
    · rename_i hidle
      obtain rfl := Option.some.inj h
      exact .idle b heq hidle
    · rename_i hidle
      obtain rfl := Option.some.inj h
      exact .control b heq hidle
  · rename_i heq
    obtain rfl := Option.some.inj h
    exact .measure heq
  · rename_i d heq
    obtain rfl := Option.some.inj h
    exact .clearFwd d heq
  · rename_i d heq
    obtain rfl := Option.some.inj h
    exact .clearRev d heq
  · cases h
  · rename_i level heq
    obtain rfl := Option.some.inj h
    exact .adjust level heq
  · rename_i d level heq
    obtain rfl := Option.some.inj h
    exact .clear d level heq
  · rename_i d level heq
    obtain rfl := Option.some.inj h
    exact .set d level heq

theorem step_of_next (h : self.next divZero a = some self') : Step divZero self a self' := by
  cases a with
  | speed b =>
    obtain ⟨hidle, h⟩ := Option.ite_none_right_eq_some.mp h
    exact Option.some.inj h ▸ .speed b hidle
  | reset =>
    obtain ⟨hidle, h⟩ := Option.ite_none_right_eq_some.mp h
    exact Option.some.inj h ▸ .reset hidle
  | acknowledge =>
    obtain ⟨hidle, h⟩ := Option.ite_none_right_eq_some.mp h
    exact Option.some.inj h ▸ .acknowledge hidle
  | calibrate =>
    obtain ⟨hidle, h⟩ := Option.ite_none_right_eq_some.mp h
    exact Option.some.inj h ▸ .calibrate hidle
  | program cvArrayFlash =>
    obtain ⟨hidle, h⟩ := Option.ite_none_right_eq_some.mp h
    exact Option.some.inj h ▸ .program cvArrayFlash hidle
  | core0 => exact step_of_nextCore0 h
  | helper =>
    obtain ⟨hidle, h⟩ := Option.ite_none_right_eq_some.mp h
    exact Option.some.inj h ▸ .helper hidle
  | controller =>
    obtain ⟨hidle, h⟩ := Option.ite_none_right_eq_some.mp h
    exact Option.some.inj h ▸ .controller hidle
  | core1 => exact step_of_nextCore1 h
  | sample measurement =>
    rw [next, nextSample] at h
    split at h
    · rename_i d heq
      exact Option.some.inj h ▸ .sample measurement d _ _ heq rfl
    · cases h

/-! ### Packets -/

/-- The speed targets. -/
def targets (self : Cores F) : UInt8 × UInt8 :=
  (self.helper.speedStepTarget, self.helper.speedStepTargetPrev)

/-- The action brings a new target. -/
def Action.Targets : Action F → Prop
  | .speed _ => True
  | .reset => True
  | _ => False

/-- A packet that core 0 evaluates brings a target in two steps, or none. -/
theorem exec_targets {core0 core0' : Core0} {board : Board} {overallAvgOffset : UInt8}
    {packet : Message} (divZero : UInt16) (hidle : self.core0 = .idle)
    (htargets : core0.targets = self.targets) (hlen : 2 ≤ packet.length)
    (h : ((evaluatePacket board overallAvgOffset packet).run core0).2 = core0') :
    core0'.targets = self.targets ∨ ∃ a t self', a.Targets ∧
      exec (next divZero) self [a, .core0] = some (t, self') ∧ self'.core0 = .idle ∧
      core0'.targets = self'.targets := by
  have htarget : core0.speedStepTarget = self.helper.speedStepTarget := congrArg Prod.fst htargets
  obtain hsame | ⟨b, hb, hnew, -⟩ := targets_evaluatePacket overallAvgOffset hlen h
  · exact Or.inl (hsame.trans htargets)
  · right
    rw [htarget] at hnew
    obtain rfl | - := hb
    · rw [Core0.emergencyStop, htarget] at hnew
      refine ⟨.reset, ?_⟩
      simp only [exec, next, if_pos hidle, Option.bind_some]
      exact ⟨_, _, trivial, rfl, rfl, hnew⟩
    · refine ⟨.speed b, ?_⟩
      simp only [exec, next, if_pos hidle, Option.bind_some]
      exact ⟨_, _, trivial, rfl, rfl, hnew⟩

/-! ### The levels -/

/-- The level that a call is about to drive. -/
def inFlight : Core1Phase → UInt16
  | .adjusting level => level
  | .clearing _ level => level
  | .setting _ level => level
  | _ => 0

/-- No level exceeds `max`, and the speed table is read where it has entries. -/
structure Leveled (max : UInt16) (cores : Cores F) : Prop where
  bounded : cores.core1.Bounded max
  inFlight : inFlight cores.phase ≤ max
  levels : ∀ d, cores.levels d ≤ max
  index : cores.helper.speedTableIndex.toNat < SPEED_TABLE_LEN

theorem update_le {levels : Direction → UInt16} {max level : UInt16} (h : ∀ d, levels d ≤ max)
    (hlevel : level ≤ max) (d d' : Direction) : Function.update levels d level d' ≤ max := by
  rw [Function.update_apply]
  split
  · exact hlevel
  · exact h d'

theorem endIndex_lt (helper : SpeedHelper) : helper.endIndex.toNat < SPEED_TABLE_LEN := by
  have hall : ∀ b : Fin 256,
      (getSpeedStepTableIndexOfSpeedStep (UInt8.ofFin b)).toNat < SPEED_TABLE_LEN := by
    decide +kernel
  exact hall helper.speedStepTarget.toFin

/-- The helper moves no further than the end. -/
theorem speedTableIndex_lt {table : UInt8 → UInt16} {accelRate decelRate : UInt8}
    {helper : SpeedHelper} (h : helper.speedTableIndex.toNat < SPEED_TABLE_LEN) :
    (helper.speedHelper table accelRate decelRate).speedTableIndex.toNat < SPEED_TABLE_LEN := by
  have hend := endIndex_lt helper
  have hlen : SPEED_TABLE_LEN = 127 := rfl
  rw [SpeedHelper.speedHelper]
  split_ifs with hemergency hup _ hdown
  · show (0 : UInt8).toNat < _
    decide
  · exact hend
  · -- one entry up
    have hlt := UInt8.lt_iff_toNat_lt.mp hup.1
    show (helper.speedTableIndex + 1).toNat < _
    rw [UInt8.toNat_add, UInt8.toNat_one]
    omega
  · exact hend
  · -- one entry down
    have hlt := UInt8.lt_iff_toNat_lt.mp hdown.1
    have hone : (1 : UInt8) ≤ helper.speedTableIndex := by
      rw [UInt8.le_iff_toNat_le, UInt8.toNat_one]
      omega
    show (helper.speedTableIndex - 1).toNat < _
    rw [UInt8.toNat_sub_of_le _ _ hone, UInt8.toNat_one]
    omega
  · exact hend
  · exact h
  · exact h

theorem Leveled.step {max : UInt16} (h : self.Leveled max) (hs : Step divZero self a self')
    (hf : CFloat.Documented F) (hdiv : divZero ≤ max) (hmax : maxLevel self.cvArrayFlash ≤ max) :
    self'.Leveled max := by
  have hflight := h.inFlight
  have hzero : (0 : UInt16) ≤ max := UInt16.zero_le
  cases hs with
  | speed b _ => exact ⟨h.bounded, h.inFlight, h.levels, h.index⟩
  | reset _ => exact ⟨h.bounded, h.inFlight, h.levels, h.index⟩
  | acknowledge _ => exact ⟨h.bounded, h.inFlight, update_le h.levels hmax _, h.index⟩
  | calibrate _ => exact ⟨h.bounded, h.inFlight, update_le h.levels hzero _, h.index⟩
  | program _ _ => exact ⟨h.bounded, h.inFlight, h.levels, h.index⟩
  | writeTarget b _ => exact ⟨h.bounded, h.inFlight, h.levels, h.index⟩
  | endFwd _ => exact ⟨h.bounded, h.inFlight, update_le h.levels hzero _, h.index⟩
  | beginRev _ => exact ⟨h.bounded, h.inFlight, update_le h.levels hmax _, h.index⟩
  | endRev _ => exact ⟨h.bounded, h.inFlight, update_le h.levels hzero _, h.index⟩
  | endCalibrate _ => exact ⟨h.bounded, h.inFlight, update_le h.levels hzero _, h.index⟩
  | helper _ => exact ⟨h.bounded, h.inFlight, h.levels, speedTableIndex_lt h.index⟩
  | controller _ => exact ⟨h.bounded, hzero, h.levels, h.index⟩
  | idle b _ _ => exact ⟨h.bounded.reset, hzero, h.levels, h.index⟩
  | control b _ _ => exact ⟨h.bounded, hzero, h.levels, h.index⟩
  | measure _ => exact ⟨h.bounded, hzero, h.levels, h.index⟩
  | clearFwd d _ => exact ⟨h.bounded, hzero, update_le h.levels hzero _, h.index⟩
  | clearRev d _ => exact ⟨h.bounded, hzero, update_le h.levels hzero _, h.index⟩
  | adjust level hphase =>
    rw [hphase] at hflight
    exact ⟨h.bounded, hflight, h.levels, h.index⟩
  | clear d level hphase =>
    rw [hphase] at hflight
    exact ⟨h.bounded, hflight, update_le h.levels hzero _, h.index⟩
  | set d level hphase =>
    rw [hphase] at hflight
    exact ⟨h.bounded, hzero, update_le h.levels hflight _, h.index⟩
  | sample measurement d level core1 _ hrespond =>
    obtain ⟨hlevel, hbounded⟩ := h.bounded.respond hf hdiv hmax _ _ hrespond
    refine ⟨hbounded, ?_, h.levels, h.index⟩
    cases level with
    | none => exact hzero
    | some level => exact hlevel level rfl

end Cores

end Rp2040
