/-
The function outputs (`application/src/functions/handler.rs`).

Each of the ten function pins is a GPIO output or one half of a PWM slice; the
function map gives the pins of a function in either direction.

* `bit_outputMask` — the loop collects the pins of the functions that are on;
* `updateOutputs_reflects` — an update leaves every pin as the flags and the
  direction want it;
* `handle_reflects`, `setDirection_reflects` — and so do the calls that skip
  the update.
-/
import Rp2040Decoder.FunctionGroups
import Rp2040Decoder.Velocity

namespace Rp2040.Functions

open Words

/-! ### The outputs -/

/-- `embassy_rp::gpio::Output` -/
class Output (G : Type) where
  /-- `Output::new(pin, Level::Low)` -/
  newLow : UInt8 → G
  setHigh : G → G
  setLow : G → G
  isSetHigh : G → Bool
  isSetHigh_newLow (pin : UInt8) : isSetHigh (newLow pin) = false
  isSetHigh_setHigh (g : G) : isSetHigh (setHigh g) = true
  isSetHigh_setLow (g : G) : isSetHigh (setLow g) = false

/-- One half of a PWM slice (`embassy_rp::pwm::PwmOutput`). -/
class PwmOutput (P : Type) where
  /-- The half that drives the pin, of a slice with this top and divider. -/
  newOutput : UInt8 → UInt16 → UInt8 → P
  /-- `SetDutyCycle::set_duty_cycle`; every caller discards the result -/
  setDutyCycle : P → UInt16 → P
  dutyCycle : P → UInt16
  maxDutyCycle : P → UInt16
  dutyCycle_newOutput (pin : UInt8) (top : UInt16) (divider : UInt8) :
    dutyCycle (newOutput pin top divider) = 0
  /-- More than the maximum is refused. -/
  dutyCycle_setDutyCycle (p : P) (duty : UInt16) :
    dutyCycle (setDutyCycle p duty) = if duty ≤ maxDutyCycle p then duty else dutyCycle p
  maxDutyCycle_setDutyCycle (p : P) (duty : UInt16) :
    maxDutyCycle (setDutyCycle p duty) = maxDutyCycle p

inductive OutputDriverImpl (G P : Type)
  | gpio (pin : G)
  | pwm (pwm : P)
  deriving DecidableEq

structure OutputDriver (G P : Type) where
  pin : UInt8
  pwmLevel : UInt16
  inner : OutputDriverImpl G P
  deriving DecidableEq

structure OutputDrivers (G P : Type) where
  gpio0 : OutputDriver G P
  gpio1 : OutputDriver G P
  gpio2 : OutputDriver G P
  gpio3 : OutputDriver G P
  gpio4 : OutputDriver G P
  gpio5 : OutputDriver G P
  aux0 : OutputDriver G P
  aux1 : OutputDriver G P
  aux2 : OutputDriver G P
  aux3 : OutputDriver G P
  deriving DecidableEq

/-- `dcc::cv::store::PwmConfig` -/
structure PwmConfig where
  wrap : UInt16
  divider : UInt8
  aLevel : UInt16
  bLevel : UInt16
  deriving DecidableEq, Repr

structure Config where new ::
  /-- Mapping from function group index to pin outputs in forward direction -/
  functionMapForward : Vector UInt32 32
  /-- Mapping from function group index to pin outputs in reverse direction -/
  functionMapReverse : Vector UInt32 32
  deriving DecidableEq

/-- What `new_handler` reads from the store. -/
structure Settings where
  pwmEnabledMask : UInt32
  functionOutputMask : Fin 32 → Direction → UInt32
  pwmConfiguration : Fin 8 → PwmConfig

structure Handler (G P : Type) where
  config : Config
  direction : Direction
  flags : FunctionGroupFlags
  outputDrivers : OutputDrivers G P
  deriving DecidableEq

variable {G P : Type}

namespace OutputDrivers

/-- The drivers in the order of the loop in `update_outputs`. -/
def toList (self : OutputDrivers G P) : List (OutputDriver G P) :=
  [self.gpio0, self.gpio1, self.gpio2, self.gpio3, self.gpio4, self.gpio5, self.aux0, self.aux1,
    self.aux2, self.aux3]

def map (f : OutputDriver G P → OutputDriver G P) (self : OutputDrivers G P) :
    OutputDrivers G P :=
  ⟨f self.gpio0, f self.gpio1, f self.gpio2, f self.gpio3, f self.gpio4, f self.gpio5,
    f self.aux0, f self.aux1, f self.aux2, f self.aux3⟩

theorem toList_map (f : OutputDriver G P → OutputDriver G P) (self : OutputDrivers G P) :
    (self.map f).toList = self.toList.map f := rfl

end OutputDrivers

/-- The outputs of the functions whose flag is set, OR-ed together. -/
def outputMask (map : Vector UInt32 32) (flags : FunctionGroupFlags) : UInt32 :=
  (List.finRange 32).foldl
    (fun mask i =>
      if flags &&& 1 <<< UInt32.ofNat i.val ≠ 0 then mask ||| map.get i else mask) 0

/-- The map for the direction. -/
def Config.functionMap (self : Config) : Direction → Vector UInt32 32
  | .forward => self.functionMapForward
  | .reverse => self.functionMapReverse

/-! ### The handler -/

section Definitions

variable [Output G] [PwmOutput P]

namespace OutputDriverImpl

def setOn (level : UInt16) : OutputDriverImpl G P → OutputDriverImpl G P
  | gpio pin => gpio (Output.setHigh pin)
  | pwm p => pwm (PwmOutput.setDutyCycle p level)

def setOff : OutputDriverImpl G P → OutputDriverImpl G P
  | gpio pin => gpio (Output.setLow pin)
  | pwm p => pwm (PwmOutput.setDutyCycle p 0)

end OutputDriverImpl

namespace OutputDriver

def fromGpio (pin : UInt8) (output : G) : OutputDriver G P := ⟨pin, 0, .gpio output⟩

def fromPwm (pin : UInt8) (level : UInt16) (pwm : P) : OutputDriver G P := ⟨pin, level, .pwm pwm⟩

def setOn (self : OutputDriver G P) : OutputDriver G P :=
  { self with inner := self.inner.setOn self.pwmLevel }

def setOff (self : OutputDriver G P) : OutputDriver G P :=
  { self with inner := self.inner.setOff }

end OutputDriver

/-- The drivers of the two pins of a slice. -/
def buildSliceOutputs (pwmEnabledMask : UInt32) (cfg : PwmConfig) (numA numB : UInt8) :
    OutputDriver G P × OutputDriver G P :=
  let pwmA := decide (pwmEnabledMask &&& 1 <<< numA.toUInt32 ≠ 0)
  let pwmB := decide (pwmEnabledMask &&& 1 <<< numB.toUInt32 ≠ 0)
  let gpio (num : UInt8) := OutputDriver.fromGpio num (Output.newLow num)
  let pwm (num : UInt8) (level : UInt16) :=
    OutputDriver.fromPwm num level (PwmOutput.newOutput num cfg.wrap cfg.divider)
  match pwmA, pwmB with
  | true, true => (pwm numA cfg.aLevel, pwm numB cfg.bLevel)
  | true, false => (pwm numA cfg.aLevel, gpio numB)
  | false, true => (gpio numA, pwm numB cfg.bLevel)
  | false, false => (gpio numA, gpio numB)

namespace Handler

def new (config : Config) (outputDrivers : OutputDrivers G P) : Handler G P :=
  ⟨config, .forward, 0, outputDrivers⟩

def updateOutputs (self : Handler G P) : Handler G P :=
  let mask := outputMask (self.config.functionMap self.direction) self.flags
  { self with
    outputDrivers := self.outputDrivers.map fun output =>
      if mask &&& 1 <<< output.pin.toUInt32 ≠ 0 then output.setOn else output.setOff }

def handle (functionGroup : FunctionGroup) (self : Handler G P) : Handler G P :=
  let old := self.flags
  let self := { self with flags := functionGroup.unionWithMask self.flags }
  if self.flags ≠ old then self.updateOutputs else self

def setDirection (direction : Direction) (self : Handler G P) : Handler G P :=
  if self.direction ≠ direction then { self with direction }.updateOutputs else self

end Handler

def Settings.config (self : Settings) : Config :=
  .new (.ofFn (self.functionOutputMask · .forward)) (.ofFn (self.functionOutputMask · .reverse))

/-- `new_handler`: the pins GPIO0 to GPIO5 and AUX0 to AUX3. -/
def newHandler (store : Settings) : Handler G P :=
  let build (slice : Fin 8) :=
    buildSliceOutputs store.pwmEnabledMask (store.pwmConfiguration slice)
  let (gpio0, gpio1) := build 0 0 1
  let (gpio2, gpio3) := build 1 2 3
  let (gpio4, gpio5) := build 2 4 5
  let (aux0, aux1) := build 4 24 25
  let (aux2, aux3) := build 5 26 27
  .new store.config
    ⟨gpio0, gpio1, gpio2, gpio3, gpio4, gpio5, aux0, aux1, aux2, aux3⟩

/-! ### What the pins show -/

/-- The pins `new_handler` is given. -/
def functionPins : List UInt8 := [0, 1, 2, 3, 4, 5, 24, 25, 26, 27]

/-- The output stands as it was switched on or off last: a GPIO pin is high or
low, and a PWM output has the duty cycle of its level, if the slice takes it, or none. -/
def OutputDriver.Shows (self : OutputDriver G P) (on : Bool) : Prop :=
  match self.inner with
  | .gpio pin => Output.isSetHigh pin = on
  | .pwm p => PwmOutput.dutyCycle p =
      if on ∧ self.pwmLevel ≤ PwmOutput.maxDutyCycle p then self.pwmLevel else 0

/-- The pin is driven. -/
def OutputDriver.Driven (self : OutputDriver G P) : Prop :=
  match self.inner with
  | .gpio pin => Output.isSetHigh pin = true
  | .pwm p => PwmOutput.dutyCycle p ≠ 0

/-- Switching the output on drives the pin: a PWM level is neither zero nor more than the
slice takes. -/
def OutputDriver.Drivable (self : OutputDriver G P) : Prop :=
  match self.inner with
  | .gpio _ => True
  | .pwm p => self.pwmLevel ≠ 0 ∧ self.pwmLevel ≤ PwmOutput.maxDutyCycle p

instance (d : OutputDriver G P) : Decidable d.Driven := by
  unfold OutputDriver.Driven
  split <;> infer_instance

end Definitions

/-- Some function whose flag is set has the pin in its map for the direction. -/
def Config.Wants (self : Config) (direction : Direction) (flags : FunctionGroupFlags)
    (pin : ℕ) : Prop :=
  ∃ i : Fin 32, bit flags i = true ∧ bit ((self.functionMap direction).get i) pin = true

instance (config : Config) (direction : Direction) (flags : FunctionGroupFlags) (pin : ℕ) :
    Decidable (config.Wants direction flags pin) :=
  inferInstanceAs (Decidable (∃ _ : Fin 32, _))

theorem Config.not_wants_zero (config : Config) (direction : Direction) (pin : ℕ) :
    ¬ config.Wants direction 0 pin := by
  rintro ⟨i, hi, -⟩
  rw [bit_zero] at hi
  cases hi

theorem bit_foldl_or {map : Vector UInt32 32} {flags : FunctionGroupFlags} {k : ℕ}
    (l : List (Fin 32)) (mask : UInt32) :
    bit (l.foldl (fun mask i =>
        if flags &&& 1 <<< UInt32.ofNat i.val ≠ 0 then mask ||| map.get i else mask) mask) k =
      true ↔ bit mask k = true ∨ ∃ i ∈ l, bit flags i = true ∧ bit (map.get i) k = true := by
  induction l generalizing mask with
  | nil => simp
  | cons i l ih =>
    rw [List.foldl_cons, ih]
    -- the function adds its pins if its flag is set
    by_cases hi : bit flags i = true
    · rw [if_pos ((bit_and_one_shiftLeft i.isLt).mpr hi)]
      simp [hi, or_assoc]
    · rw [if_neg fun h => hi ((bit_and_one_shiftLeft i.isLt).mp h)]
      simp [hi]

/-- The loop collects the pins of the functions that are on. -/
theorem bit_outputMask {map : Vector UInt32 32} {flags : FunctionGroupFlags} {k : ℕ} :
    bit (outputMask map flags) k = true ↔
      ∃ i : Fin 32, bit flags i = true ∧ bit (map.get i) k = true := by
  rw [outputMask, bit_foldl_or, bit_zero]
  simp [List.mem_finRange]

variable [Output G] [PwmOutput P] {d : OutputDriver G P} {self : Handler G P}

namespace OutputDriver

/-- A level the slice refuses leaves an output off that was off. -/
theorem shows_setOn {on : Bool} (h : d.Shows on) : d.setOn.Shows true := by
  obtain ⟨pin, pwmLevel, inner⟩ := d
  cases inner with
  | gpio g => exact Output.isSetHigh_setHigh g
  | pwm p =>
    simp only [Shows, setOn, OutputDriverImpl.setOn, PwmOutput.dutyCycle_setDutyCycle,
      PwmOutput.maxDutyCycle_setDutyCycle, true_and] at h ⊢
    by_cases hle : pwmLevel ≤ PwmOutput.maxDutyCycle p
    · rw [if_pos hle, if_pos hle]
    · rw [if_neg hle, if_neg hle, h, if_neg fun hon => hle hon.2]

theorem shows_setOff : d.setOff.Shows false := by
  obtain ⟨pin, pwmLevel, inner⟩ := d
  cases inner with
  | gpio g => exact Output.isSetHigh_setLow g
  | pwm p =>
    simp only [Shows, setOff, OutputDriverImpl.setOff, PwmOutput.dutyCycle_setDutyCycle,
      UInt16.zero_le, Bool.false_eq_true, false_and, if_true, if_false]

/-- A pin is driven when its output is on and can drive it. -/
theorem driven_iff {on : Bool} (h : d.Shows on) : d.Driven ↔ on = true ∧ d.Drivable := by
  obtain ⟨pin, pwmLevel, inner⟩ := d
  cases inner with
  | gpio g =>
    simp only [Shows, Driven, Drivable, and_true] at h ⊢
    rw [h]
  | pwm p =>
    simp only [Shows, Driven, Drivable] at h ⊢
    rw [h]
    by_cases hon : on = true ∧ pwmLevel ≤ PwmOutput.maxDutyCycle p
    · simp [hon]
    · rw [if_neg hon]
      refine ⟨fun h0 => absurd rfl h0, fun h0 => absurd ⟨h0.1, h0.2.2⟩ hon⟩

end OutputDriver

namespace Handler

/-- Every output stands as the flags and the direction want it. -/
structure Reflects (s : Handler G P) : Prop where
  shows : ∀ d ∈ s.outputDrivers.toList,
    d.Shows (decide (s.config.Wants s.direction s.flags d.pin.toNat))
  pins : s.outputDrivers.toList.map OutputDriver.pin = functionPins

theorem Reflects.pin_lt (h : self.Reflects) : ∀ d ∈ self.outputDrivers.toList,
    d.pin.toNat < 32 := by
  intro d hd
  have hall : ∀ pin ∈ functionPins, pin.toNat < 32 := by simp [functionPins]
  exact hall d.pin (h.pins ▸ List.mem_map_of_mem hd)

@[simp] theorem handle_config (functionGroup : FunctionGroup) (s : Handler G P) :
    (s.handle functionGroup).config = s.config := by
  rw [handle]
  split <;> rfl

@[simp] theorem handle_direction (functionGroup : FunctionGroup) (s : Handler G P) :
    (s.handle functionGroup).direction = s.direction := by
  rw [handle]
  split <;> rfl

@[simp] theorem handle_flags (functionGroup : FunctionGroup) (s : Handler G P) :
    (s.handle functionGroup).flags = functionGroup.unionWithMask s.flags := by
  rw [handle]
  split <;> rfl

@[simp] theorem setDirection_config (direction : Direction) (s : Handler G P) :
    (s.setDirection direction).config = s.config := by
  rw [setDirection]
  split <;> rfl

@[simp] theorem setDirection_flags (direction : Direction) (s : Handler G P) :
    (s.setDirection direction).flags = s.flags := by
  rw [setDirection]
  split <;> rfl

@[simp] theorem setDirection_direction (direction : Direction) (s : Handler G P) :
    (s.setDirection direction).direction = direction := by
  rw [setDirection]
  split
  · rfl
  · rename_i h
    exact not_not.mp h

theorem toUInt32_eq (pin : UInt8) : pin.toUInt32 = UInt32.ofNat pin.toNat := by
  refine UInt32.toNat_inj.mp ?_
  rw [UInt8.toNat_toUInt32, UInt32.toNat_ofNat', Nat.mod_eq_of_lt]
  exact Nat.lt_trans pin.toNat_lt (by decide)

/-- An update sets every output, whatever flags and direction it stood for. -/
theorem updateOutputs_reflects (h : self.Reflects) {s : Handler G P}
    (hs : s.outputDrivers = self.outputDrivers) : s.updateOutputs.Reflects := by
  constructor
  · intro d hd
    rw [updateOutputs, OutputDrivers.toList_map, hs] at hd
    obtain ⟨d, hmem, rfl⟩ := List.mem_map.mp hd
    -- the bit of the mask says whether the pin is wanted
    have hwants : outputMask (s.config.functionMap s.direction) s.flags &&&
        1 <<< d.pin.toUInt32 ≠ 0 ↔ s.config.Wants s.direction s.flags d.pin.toNat := by
      rw [toUInt32_eq, bit_and_one_shiftLeft (h.pin_lt d hmem), bit_outputMask]
      rfl
    by_cases hw : s.config.Wants s.direction s.flags d.pin.toNat
    · rw [if_pos (hwants.mpr hw)]
      show d.setOn.Shows (decide (s.config.Wants s.direction s.flags d.pin.toNat))
      rw [decide_eq_true hw]
      exact OutputDriver.shows_setOn (h.shows d hmem)
    · rw [if_neg fun hm => hw (hwants.mp hm)]
      show d.setOff.Shows (decide (s.config.Wants s.direction s.flags d.pin.toNat))
      rw [decide_eq_false hw]
      exact OutputDriver.shows_setOff
  · rw [updateOutputs, OutputDrivers.toList_map, hs, List.map_map, ← h.pins]
    refine List.map_congr_left fun d _ => ?_
    simp only [Function.comp_apply]
    split <;> rfl

theorem handle_reflects (functionGroup : FunctionGroup) (h : self.Reflects) :
    (self.handle functionGroup).Reflects := by
  -- unchanged flags skip the update, and stand for the same outputs
  by_cases hflags : functionGroup.unionWithMask self.flags = self.flags
  · rw [handle, hflags, if_neg (not_not.mpr rfl)]
    exact h
  · rw [handle, if_pos hflags]
    exact updateOutputs_reflects h rfl

theorem setDirection_reflects (direction : Direction) (h : self.Reflects) :
    (self.setDirection direction).Reflects := by
  by_cases hdir : self.direction ≠ direction
  · rw [setDirection, if_pos hdir]
    exact updateOutputs_reflects h rfl
  · rw [setDirection, if_neg hdir]
    exact h

end Handler

theorem buildSliceOutputs_off (pwmEnabledMask : UInt32) (cfg : PwmConfig) (numA numB : UInt8) :
    let outputs : OutputDriver G P × OutputDriver G P :=
      buildSliceOutputs pwmEnabledMask cfg numA numB
    (outputs.1.Shows false ∧ outputs.1.pin = numA) ∧
      outputs.2.Shows false ∧ outputs.2.pin = numB := by
  have hgpio (num : UInt8) :
      (OutputDriver.fromGpio num (Output.newLow num) : OutputDriver G P).Shows false :=
    Output.isSetHigh_newLow num
  have hpwm (num : UInt8) (level : UInt16) :
      (OutputDriver.fromPwm num level (PwmOutput.newOutput num cfg.wrap cfg.divider) :
        OutputDriver G P).Shows false := by
    simp only [OutputDriver.fromPwm, OutputDriver.Shows, PwmOutput.dutyCycle_newOutput,
      Bool.false_eq_true, false_and, if_false]
  simp only [buildSliceOutputs]
  split
  · exact ⟨⟨hpwm _ _, rfl⟩, hpwm _ _, rfl⟩
  · exact ⟨⟨hpwm _ _, rfl⟩, hgpio _, rfl⟩
  · exact ⟨⟨hgpio _, rfl⟩, hpwm _ _, rfl⟩
  · exact ⟨⟨hgpio _, rfl⟩, hgpio _, rfl⟩

/-- At start no function is on, and neither is an output. -/
theorem newHandler_reflects (store : Settings) : (newHandler store : Handler G P).Reflects := by
  have hoff (slice : Fin 8) (numA numB : UInt8) :=
    @buildSliceOutputs_off G P _ _ store.pwmEnabledMask (store.pwmConfiguration slice)
      numA numB
  constructor
  · intro d hd
    -- every pin is built switched off
    have hfalse : d.Shows false := by
      simp only [newHandler, Handler.new, OutputDrivers.toList, List.mem_cons, List.not_mem_nil,
        or_false] at hd
      rcases hd with rfl | rfl | rfl | rfl | rfl | rfl | rfl | rfl | rfl | rfl
      all_goals first | exact (hoff _ _ _).1.1 | exact (hoff _ _ _).2.1
    show d.Shows (decide (store.config.Wants .forward 0 d.pin.toNat))
    rwa [decide_eq_false (Config.not_wants_zero _ _ _)]
  · simp only [newHandler, Handler.new, OutputDrivers.toList, List.map_cons, List.map_nil,
      (hoff _ _ _).1.2, (hoff _ _ _).2.2]
    rfl

/-! ### Outputs to run traces with -/

structure Gpio where
  high : Bool
  deriving DecidableEq, Repr

instance : Output Gpio where
  newLow _ := ⟨false⟩
  setHigh _ := ⟨true⟩
  setLow _ := ⟨false⟩
  isSetHigh := Gpio.high
  isSetHigh_newLow _ := rfl
  isSetHigh_setHigh _ := rfl
  isSetHigh_setLow _ := rfl

/-- The registers of one half of a slice. -/
structure PwmChannel where
  top : UInt16
  compare : UInt16
  deriving DecidableEq, Repr

instance : PwmOutput PwmChannel where
  newOutput _ top _ := ⟨top, 0⟩
  setDutyCycle p duty := if duty ≤ p.top then { p with compare := duty } else p
  dutyCycle := PwmChannel.compare
  maxDutyCycle := PwmChannel.top
  dutyCycle_newOutput _ _ _ := rfl
  dutyCycle_setDutyCycle p duty := by split <;> rfl
  maxDutyCycle_setDutyCycle p duty := by split <;> rfl

/-- A lamp for function 0: GPIO0 forward, and GPIO1 with a PWM output in reverse. -/
def lampStore : Settings where
  pwmEnabledMask := 0b10
  functionOutputMask i direction :=
    if i = 0 then (match direction with | .forward => 0b01 | .reverse => 0b10) else 0
  pwmConfiguration _ := ⟨100, 1, 0, 60⟩

end Rp2040.Functions
