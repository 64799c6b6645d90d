/-
The motor controller of the C firmware: `init_controller`, `get_kp`,
`controller_startup_mode`, `controller_pid_mode` and `controller_general` in
`Software/core1.c`, between the reads and writes of what core 0 uses too.

Division by zero is left to a parameter, since the first start from an empty
buffer depends on it.

* `Bounded`, `Bounded.respond`, `bounded_init` — no level exceeds the maximum
  that CV9 allows.
-/
import Rp2040Decoder.Recipient
import Rp2040Decoder.SpeedTable
import Rp2040Decoder.StartupPhase

namespace Rp2040

open Startup RingBuffer

/-- `float`, as far as the controller computes with it. -/
class CFloat (F : Type) extends F32 F where
  add : F → F → F
  sub : F → F → F
  div : F → F → F
  neg : F → F
  ofU32 : UInt32 → F
  /-- `(uint16_t)` -/
  toU16 : F → UInt16

/-- The integers are ordered as they are, and what is neither below 0 nor above
one of them is converted to at most that. -/
structure CFloat.Documented (F : Type) [CFloat F] : Prop where
  lt_ofU16 : ∀ a b : UInt16, F32.lt (F32.ofU16 a : F) (F32.ofU16 b) = decide (a < b)
  toU16_le : ∀ (max : UInt16) (x : F), F32.lt x (F32.ofU16 0) = false →
    F32.lt (F32.ofU16 max) x = false → CFloat.toU16 x ≤ max

def _125M : ℕ := 125000000

/-- The level of a duty cycle of 100%, of CV9. -/
def maxLevel (cvArrayFlash : ℕ → UInt8) : UInt16 := mainOutputMax _125M (cvArrayFlash 8)

/-- `pid_parameters_t`, less what only `init_controller` uses. -/
structure PidParameters (F : Type) where
  ci0 : F
  cd0 : F
  cd1 : F
  intLimMax : F
  intLimMin : F
  maxOutput : F
  kP : F
  e : F
  ePrev : F
  iPrev : F
  dPrev : F
  kPX1 : F
  kPY0 : F
  kPY1 : F
  kPM1 : F
  kPM2 : F

/-- `controller_parameter_t`, less the setpoint and the parameters of the
measurement. -/
structure Core1 (F : Type) where
  param : ControllerParameter F
  speedTable : SpeedTable
  pid : PidParameters F
  measurement : F
  measurementPrev : F
  measurementCorrected : F
  adcOffset : F

namespace Core1

variable {F : Type} [CFloat F]

open CFloat F32

theorem lastStep_lt : 126 < SPEED_TABLE_LEN := by decide

/-- `init_controller` -/
def init (cvArrayFlash : ℕ → UInt8) : Core1 F :=
  let num (i : ℕ) : F := ofU16 (cvArrayFlash i).toUInt16
  let speedTable :=
    SpeedTable.core1SpeedTable ⟨cvArrayFlash 1, cvArrayFlash 5, cvArrayFlash 4⟩
  let top : F := ofU16 (speedTable ⟨126, lastStep_lt⟩)
  let kI := div (num 49) (ofU16 10)
  let kD := div (num 50) (ofU16 10000)
  let tau := div (num 47) (ofU16 1000)
  let t := div (num 48) (ofU16 1000)
  let tau₂ := mul (ofU16 2) tau
  let kPX1Shift := div (num 59) (ofU16 255)
  let kPX1 := mul top kPX1Shift
  let kPX2 := mul top (sub (ofU16 1) kPX1Shift)
  let kPY0 := div (ofU16 (get16bitCV cvArrayFlash 53)) (ofU16 100)
  let kPY1 := div (ofU16 (get16bitCV cvArrayFlash 55)) (ofU16 100)
  let kPY2 := div (ofU16 (get16bitCV cvArrayFlash 57)) (ofU16 100)
  { param := .init (div (num 46) (ofU16 255))
    speedTable
    pid := {
      ci0 := div (mul kI t) (ofU16 2)
      cd0 := div (neg (mul (ofU16 2) kD)) (add tau₂ t)
      cd1 := div (sub tau₂ t) (add tau₂ t)
      intLimMax := mul (ofU16 10) (num 51)
      intLimMin := mul (neg (ofU16 10)) (num 52)
      maxOutput := ofU16 (maxLevel cvArrayFlash)
      kP := ofU16 0
      e := ofU16 0
      ePrev := ofU16 0
      iPrev := ofU16 0
      dPrev := ofU16 0
      kPX1
      kPY0
      kPY1
      kPM1 := div (sub kPY1 kPY0) kPX1
      kPM2 := div (sub kPY2 kPY1) kPX2 }
    measurement := ofU16 0
    measurementPrev := ofU16 0
    measurementCorrected := ofU16 0
    adcOffset := num 171 }

/-- `get_kp` -/
def getKp (setpoint : UInt32) (pid : PidParameters F) : F :=
  let sp := ofU32 setpoint
  if lt sp pid.kPX1 then add (mul pid.kPM1 sp) pid.kPY0
  else add (mul pid.kPM2 (sub sp pid.kPX1)) pid.kPY1

/-- `controller_startup_mode`, with the level that is driven; `divZero` is what
`get_initial_level` returns when it divides by 0. -/
def startupMode (divZero maxLevel : UInt16) (measurementCorrected : F)
    (self : ControllerParameter F) : StartupOutcome F × ControllerParameter F :=
  let initialLevel := self.getInitialLevel.getD divZero
  let level := if self.level = 0 then initialLevel else self.level
  if lt measurementCorrected CONTROLLER_HANDOVER then
    let next := level + maxLevel / 250
    -- try again with half value...
    (.driven level, { self with level := if maxLevel < next then initialLevel / 2 else next })
  else
    let feedFwd := mul self.kFf (ofU16 level)
    (.handover level feedFwd,
      { self with
        basePwmArr := Function.update self.basePwmArr self.basePwmArrI level
        basePwmArrI := increment self.basePwmArrI
        mode := .pid
        feedFwd
        level })

/-- `controller_pid_mode`, with the level that is driven. -/
def pidMode (setpoint : UInt32) (self : Core1 F) : UInt16 × Core1 F :=
  let pid := self.pid
  let kP := getKp setpoint pid
  let p := mul kP pid.e
  let i := add (mul pid.ci0 (add pid.e pid.ePrev)) pid.iPrev
  let d := add (mul pid.cd0 (sub self.measurement self.measurementPrev)) (mul pid.cd1 pid.dPrev)
  let i :=
    if lt pid.intLimMax i then pid.intLimMax
    else if lt i pid.intLimMin then pid.intLimMin
    else i
  let outputF := add (add (add self.param.feedFwd p) i) d
  let outputF :=
    if lt outputF (ofU16 0) then ofU16 0
    else if lt pid.maxOutput outputF then pid.maxOutput
    else outputF
  (toU16 outputF, { self with pid := { pid with kP, ePrev := pid.e, iPrev := i, dPrev := d } })

/-- `controller_general` where there is nothing to control. -/
def reset (self : Core1 F) : Core1 F :=
  { self with
    pid := { self.pid with dPrev := ofU16 0, iPrev := ofU16 0, ePrev := ofU16 0 }
    param := { self.param with mode := .startup, level := 0 } }

/-- `controller_general` behind the measurement; no level is driven when the
startup hands over. -/
def respond (divZero maxLevel : UInt16) (setpoint : UInt32) (measurement : F) (self : Core1 F) :
    Option UInt16 × Core1 F :=
  let measurementCorrected := sub measurement self.adcOffset
  let self := { self with
    measurement
    measurementCorrected
    pid := { self.pid with e := sub (ofU32 setpoint) measurementCorrected } }
  match self.param.mode with
  | .startup =>
    match startupMode divZero maxLevel measurementCorrected self.param with
    | (.driven level, param) => (some level, { self with param, measurementPrev := measurement })
    | (_, param) => (none, { self with param, measurementPrev := measurement })
  | .pid =>
    let (level, self) := self.pidMode setpoint
    (some level, { self with measurementPrev := measurement })

variable {self : Core1 F} {divZero max : UInt16}

/-! ### No level above the maximum -/

/-- The levels kept do not exceed `max`. -/
structure Bounded (max : UInt16) (core1 : Core1 F) : Prop where
  level : core1.param.level ≤ max
  base : ∀ i, core1.param.basePwmArr i ≤ max
  maxOutput : ∃ m ≤ max, core1.pid.maxOutput = ofU16 m

omit [CFloat F] in
theorem getInitialLevel_le {param : ControllerParameter F} {level : UInt16}
    (hbase : ∀ i, param.basePwmArr i ≤ max) (h : param.getInitialLevel = some level) :
    level ≤ max := by
  rw [ControllerParameter.getInitialLevel, sumEntries_eq] at h
  simp only [Nat.zero_add] at h
  obtain ⟨-, h⟩ := Option.ite_none_left_eq_some.mp h
  have hmean : meanLevel ((List.ofFn param.basePwmArr).takeWhile (0 < ·)) ≤ max.toNat := by
    refine meanLevel_le fun v hv => ?_
    obtain ⟨i, rfl⟩ := List.mem_ofFn.mp ((List.takeWhile_sublist _).subset hv)
    exact UInt16.le_iff_toNat_le.mp (hbase i)
  have hlt := max.toNat_lt
  rw [← Option.some.inj h, UInt16.le_iff_toNat_le, UInt16.toNat_ofNat_of_lt' (by
    show _ < 2 ^ 16
    exact hmean.trans_lt hlt)]
  exact hmean

omit [CFloat F] in
theorem initialLevel_le {param : ControllerParameter F} (hdiv : divZero ≤ max)
    (hbase : ∀ i, param.basePwmArr i ≤ max) : param.getInitialLevel.getD divZero ≤ max := by
  cases h : param.getInitialLevel with
  | none => exact hdiv
  | some level => exact getInitialLevel_le hbase h

omit [CFloat F] in
theorem half_le {level : UInt16} (h : level ≤ max) : level / 2 ≤ max := by
  rw [UInt16.le_iff_toNat_le] at h ⊢
  rw [UInt16.toNat_div]
  exact (Nat.div_le_self _ _).trans h

/-- A call in the startup mode drives a level up to the maximum, and keeps only
such. -/
theorem startupMode_le {param : ControllerParameter F} {maxLevel : UInt16} {measurement : F}
    (hdiv : divZero ≤ max) (hmax : maxLevel ≤ max) (hlevel : param.level ≤ max)
    (hbase : ∀ i, param.basePwmArr i ≤ max) {r : StartupOutcome F × ControllerParameter F}
    (h : startupMode divZero maxLevel measurement param = r) :
    (∀ level, r.1 = .driven level → level ≤ max) ∧ r.2.level ≤ max ∧
      ∀ i, r.2.basePwmArr i ≤ max := by
  have hinitial := initialLevel_le hdiv hbase
  have hstart : (if param.level = 0 then param.getInitialLevel.getD divZero else param.level) ≤
      max := by
    split
    · exact hinitial
    · exact hlevel
  rw [startupMode] at h
  simp only at h
  generalize (if param.level = 0 then param.getInitialLevel.getD divZero else param.level) =
    level at hstart h
  split at h
  · rw [← h]
    refine ⟨fun level' hlevel' => ?_, ?_, hbase⟩
    · obtain rfl := StartupOutcome.driven.inj hlevel'
      exact hstart
    · show (if _ then _ else _) ≤ max
      split
      · exact half_le hinitial
      · rename_i hnot
        exact UInt16.le_trans (UInt16.not_lt.mp hnot) hmax
  · rw [← h]
    refine ⟨fun level' hlevel' => ?_, hstart, fun i => ?_⟩
    · cases hlevel'
    · show Function.update param.basePwmArr param.basePwmArrI level i ≤ max
      rw [Function.update_apply]
      split
      · exact hstart
      · exact hbase i

theorem pidMode_le (hf : CFloat.Documented F) (setpoint : UInt32) (h : self.Bounded max) :
    (self.pidMode setpoint).1 ≤ max := by
  obtain ⟨m, hm, hmax⟩ := h.maxOutput
  have hzero : lt (ofU16 m : F) (ofU16 0) = false := by
    rw [hf.lt_ofU16, decide_eq_false (UInt16.not_lt.mpr UInt16.zero_le)]
  have hrefl (a : UInt16) : lt (ofU16 a : F) (ofU16 a) = false := by
    rw [hf.lt_ofU16, decide_eq_false (UInt16.lt_irrefl a)]
  -- the output is clamped between 0 and the maximum
  have hclamp (x : F) : toU16 (if lt x (ofU16 0) then ofU16 0
      else if lt self.pid.maxOutput x then self.pid.maxOutput else x) ≤ max := by
    refine UInt16.le_trans ?_ hm
    rw [hmax]
    split
    · exact hf.toU16_le m _ (hrefl 0) hzero
    · rename_i hlow
      split
      · exact hf.toU16_le m _ hzero (hrefl m)
      · rename_i hhigh
        exact hf.toU16_le m x (eq_false_of_ne_true hlow) (eq_false_of_ne_true hhigh)
  exact hclamp _

theorem Bounded.reset (h : self.Bounded max) : self.reset.Bounded max :=
  ⟨UInt16.zero_le, h.base, h.maxOutput⟩

/-- A measurement is answered with a level up to the maximum. -/
theorem Bounded.respond (h : self.Bounded max) (hf : CFloat.Documented F)
    {maxLevel : UInt16} (hdiv : divZero ≤ max) (hmax : maxLevel ≤ max) (setpoint : UInt32)
    (measurement : F) {r : Option UInt16 × Core1 F}
    (hr : self.respond divZero maxLevel setpoint measurement = r) :
    (∀ level ∈ r.1, level ≤ max) ∧ r.2.Bounded max := by
  rw [Core1.respond] at hr
  simp only at hr
  split at hr
  · have hstart {r}
        (h' : startupMode divZero maxLevel (sub measurement self.adcOffset) self.param = r) :=
      startupMode_le hdiv hmax h.level h.base h'
    split at hr
    · rename_i level param heq
      obtain ⟨hle, hlevel, hbase⟩ := hstart heq
      rw [← hr]
      refine ⟨fun level' hlevel' => ?_, hlevel, hbase, h.maxOutput⟩
      rw [← Option.some.inj hlevel']
      exact hle level rfl
    · rename_i o param hne heq
      obtain ⟨-, hlevel, hbase⟩ := hstart heq
      rw [← hr]
      exact ⟨nofun, hlevel, hbase, h.maxOutput⟩
  · rw [← hr]
    refine ⟨fun level' hlevel' => ?_, h.level, h.base, h.maxOutput⟩
    rw [← Option.some.inj hlevel']
    exact pidMode_le hf setpoint ⟨h.level, h.base, h.maxOutput⟩

/-- The speed table is that of `init_controller`. -/
theorem respond_speedTable (divZero maxLevel : UInt16) (setpoint : UInt32) (measurement : F)
    (self : Core1 F) :
    (self.respond divZero maxLevel setpoint measurement).2.speedTable = self.speedTable := by
  rw [Core1.respond]
  simp only
  split
  · split <;> rfl
  · rfl

theorem bounded_init {cvArrayFlash : ℕ → UInt8} (h : maxLevel cvArrayFlash ≤ max) :
    (init cvArrayFlash : Core1 F).Bounded max :=
  ⟨UInt16.zero_le, fun _ => UInt16.zero_le, _, h, rfl⟩

end Core1

/-! ### Rational numbers -/

instance : CFloat ℚ where
  add a b := a + b
  sub a b := a - b
  div a b := a / b
  neg a := -a
  ofU32 v := v.toNat
  toU16 := Rounding.asU16

theorem documented_rat : CFloat.Documented ℚ where
  lt_ofU16 a b := by
    refine decide_eq_decide.mpr ?_
    rw [UInt16.lt_iff_toNat_lt]
    exact Nat.cast_lt
  toU16_le max x _ h₁ := by
    have hle : x ≤ max.toNat := not_lt.mp (of_decide_eq_false h₁)
    have hfloor := Int.floor_mono hle
    rw [Int.floor_natCast] at hfloor
    have hlt := max.toNat_lt
    show Rounding.asU16 x ≤ max
    rw [Rounding.asU16, UInt16.le_iff_toNat_le,
      UInt16.toNat_ofNat_of_lt' (by show _ < 2 ^ 16; omega)]
    omega

end Rp2040
