/-
The CVs of the function outputs (`pwm_enabled_mask`, `function_output_mask` and
`pwm_configuration` in `dcc/src/cv/store.rs`, with `new_handler` in
`application/src/functions/handler.rs`, and `init_outputs` in
`Software/core0.c`).

Both firmwares read the same CVs; the C firmware counts them from 0, and the sum
of a divider and 1 wraps there where the Rust firmware saturates.

* `newHandlerOf_eq` — the handler in terms of the CVs;
* `get32bitCV_eq`, `get16bitCV_eq` — the words of the two firmwares;
* `initOutputs_levelTable`, `initOutputs_slice` — the registers after start-up.
-/
import Rp2040Decoder.ByteWrite
import Rp2040Decoder.Folds
import Rp2040Decoder.FunctionOutputs
import Rp2040Decoder.PidBoot

namespace Rp2040

open Functions ReadableStore Words

/-! ### The accessors -/

/-- `u8::saturating_add` -/
def saturatingAddU8 (a b : UInt8) : UInt8 := if 255 - a < b then 255 else a + b

def FUNCTION_MAP_BASE : ℕ := 257

def FUNCTION_MAP_STRIDE : ℕ := 8

def FUNCTION_MAP_DIR_OFFSET : ℕ := 4

def PWM_SLICE_CONFIG_BASE : ℕ := 116

def PWM_SLICE_CONFIG_STRIDE : ℕ := 7

/-- Where the bytes for a direction start. -/
def dirOffset : Direction → ℕ
  | .forward => 0
  | .reverse => FUNCTION_MAP_DIR_OFFSET

namespace Store

variable {S : Type} [Store S]

def pwmEnabledMask (self : S) : Except (Fault StoreError) UInt32 :=
  readCvU32 self Cv.enablePwmOutputMask.number

def functionOutputMask (functionIndex : UInt8) (direction : Direction) (self : S) :
    Except (Fault StoreError) (Option UInt32) :=
  if 32 ≤ functionIndex then .ok none
  else do
    let cvStart :=
      FUNCTION_MAP_BASE + functionIndex.toNat * FUNCTION_MAP_STRIDE + dirOffset direction
    return some (← readCvU32 self cvStart)

def pwmConfiguration (slice : UInt8) (self : S) : Except (Fault StoreError) (Option PwmConfig) :=
  if 8 ≤ slice then .ok none
  else do
    let base := PWM_SLICE_CONFIG_BASE + slice.toNat * PWM_SLICE_CONFIG_STRIDE
    return some {
      wrap := ← readCvU16 self base
      divider := saturatingAddU8 (← readByte self (base + 2)) 1
      aLevel := ← readCvU16 self (base + 3)
      bLevel := ← readCvU16 self (base + 5) }

end Store

/-- `new_handler`; none is a panic. -/
def newHandlerOf {S G P : Type} [Store S] [Output G] [PwmOutput P] (store : S) :
    Option (Functions.Handler G P) := do
  let pwmEnabledMask ← unwrap (Store.pwmEnabledMask store)
  let functionMapForward ← Vector.ofFnM fun idx : Fin 32 =>
    (unwrap (Store.functionOutputMask (UInt8.ofNat idx.val) .forward store)).join
  let functionMapReverse ← Vector.ofFnM fun idx : Fin 32 =>
    (unwrap (Store.functionOutputMask (UInt8.ofNat idx.val) .reverse store)).join
  let config := Config.new functionMapForward functionMapReverse
  let build (slice numA numB : UInt8) : Option (OutputDriver G P × OutputDriver G P) :=
    (unwrap (Store.pwmConfiguration slice store)).join.map fun cfg =>
      buildSliceOutputs pwmEnabledMask cfg numA numB
  let (gpio0, gpio1) ← build 0 0 1
  let (gpio2, gpio3) ← build 1 2 3
  let (gpio4, gpio5) ← build 2 4 5
  let (aux0, aux1) ← build 4 24 25
  let (aux2, aux3) ← build 5 26 27
  return .new config ⟨gpio0, gpio1, gpio2, gpio3, gpio4, gpio5, aux0, aux1, aux2, aux3⟩

/-! ### In terms of the CVs -/

/-- The word in four CVs. -/
def cvLong (cvs : ℕ → UInt8) (a : ℕ) : UInt32 :=
  (cvs a).toUInt32 <<< 24 ||| (cvs (a + 1)).toUInt32 <<< 16 ||| (cvs (a + 2)).toUInt32 <<< 8 |||
    (cvs (a + 3)).toUInt32

def cvPwmConfig (cvs : ℕ → UInt8) (slice : ℕ) : PwmConfig where
  wrap := cvWord cvs (116 + 7 * slice)
  divider := saturatingAddU8 (cvs (118 + 7 * slice)) 1
  aLevel := cvWord cvs (119 + 7 * slice)
  bLevel := cvWord cvs (121 + 7 * slice)

/-- What the function handler is configured with. -/
def cvSettings (cvs : ℕ → UInt8) : Settings where
  pwmEnabledMask := cvLong cvs 112
  functionOutputMask i direction := cvLong cvs (257 + 8 * i + dirOffset direction)
  pwmConfiguration slice := cvPwmConfig cvs slice

section Accessors

variable {S : Type} [Store S] [ReadableStore S]

theorem readCvU32_eq (s : S) {a : ℕ} (h₁ : 1 ≤ a) (h₂ : a + 3 ≤ CV_SIZE) :
    Store.readCvU32 s a = .ok (cvLong (cvs s) a) := by
  rw [Store.readCvU32, readBytes_eq s h₁ (by omega)]
  rfl

theorem readCvU16_eq (s : S) {a : ℕ} (h₁ : 1 ≤ a) (h₂ : a + 1 ≤ CV_SIZE) :
    Store.readCvU16 s a = .ok (cvWord (cvs s) a) := by
  rw [Store.readCvU16, readBytes_eq s h₁ (by omega)]
  rfl

theorem functionOutputMask_eq (s : S) (direction : Direction) (i : Fin 32) :
    (unwrap (Store.functionOutputMask (UInt8.ofNat i.val) direction s)).join =
      some ((cvSettings (cvs s)).functionOutputMask i direction) := by
  have hi : (UInt8.ofNat i.val).toNat = i.val := by
    rw [UInt8.toNat_ofNat', Nat.mod_eq_of_lt (by omega)]
  have hlt : ¬ (32 : UInt8) ≤ UInt8.ofNat i.val := by
    rw [UInt8.le_iff_toNat_le, hi]
    exact Nat.not_le.mpr i.isLt
  have hsize : CV_SIZE = 1024 := rfl
  have hdir : dirOffset direction ≤ 4 := by cases direction <;> decide
  have hread := readCvU32_eq s (a := 257 + 8 * i.val + dirOffset direction) (by omega) (by omega)
  rw [Store.functionOutputMask, if_neg hlt, hi, FUNCTION_MAP_BASE, FUNCTION_MAP_STRIDE,
    Nat.mul_comm]
  simp only [hread]
  rfl

theorem pwmConfiguration_eq (s : S) (slice : Fin 8) :
    (unwrap (Store.pwmConfiguration (UInt8.ofNat slice.val) s)).join =
      some ((cvSettings (cvs s)).pwmConfiguration slice) := by
  have hi : (UInt8.ofNat slice.val).toNat = slice.val := by
    rw [UInt8.toNat_ofNat', Nat.mod_eq_of_lt (by omega)]
  have hlt : ¬ (8 : UInt8) ≤ UInt8.ofNat slice.val := by
    rw [UInt8.le_iff_toNat_le, hi]
    exact Nat.not_le.mpr slice.isLt
  have hsize : CV_SIZE = 1024 := rfl
  have hwrap := readCvU16_eq s (a := 116 + 7 * slice.val) (by omega) (by omega)
  have hdivider := readByte_eq s (a := 116 + 7 * slice.val + 2) (by omega) (by omega)
  have ha := readCvU16_eq s (a := 116 + 7 * slice.val + 3) (by omega) (by omega)
  have hb := readCvU16_eq s (a := 116 + 7 * slice.val + 5) (by omega) (by omega)
  rw [Nat.add_right_comm] at hdivider ha hb
  rw [Store.pwmConfiguration, if_neg hlt, hi, PWM_SLICE_CONFIG_BASE, PWM_SLICE_CONFIG_STRIDE,
    Nat.mul_comm]
  simp only [Nat.add_right_comm 116 (7 * slice.val), hwrap, hdivider, ha, hb]
  rfl

/-- Every CV that the handler needs is there: its construction does not panic. -/
theorem newHandlerOf_eq {G P : Type} [Output G] [PwmOutput P] (store : S) :
    (newHandlerOf store : Option (Functions.Handler G P)) =
      some (newHandler (cvSettings (cvs store))) := by
  have hmask : unwrap (Store.pwmEnabledMask store) = some (cvLong (cvs store) 112) := by
    rw [Store.pwmEnabledMask, show Cv.enablePwmOutputMask.number = 112 from rfl,
      readCvU32_eq store (by decide) (by decide)]
    rfl
  have hmap (direction : Direction) : (Vector.ofFnM fun idx : Fin 32 =>
      (unwrap (Store.functionOutputMask (UInt8.ofNat idx.val) direction store)).join) =
      some (Vector.ofFn fun idx => (cvSettings (cvs store)).functionOutputMask idx direction) := by
    simp only [functionOutputMask_eq]
    exact Vector.ofFnM_pure
  have h₀ : (unwrap (Store.pwmConfiguration 0 store)).join = _ := pwmConfiguration_eq store 0
  have h₁ : (unwrap (Store.pwmConfiguration 1 store)).join = _ := pwmConfiguration_eq store 1
  have h₂ : (unwrap (Store.pwmConfiguration 2 store)).join = _ := pwmConfiguration_eq store 2
  have h₄ : (unwrap (Store.pwmConfiguration 4 store)).join = _ := pwmConfiguration_eq store 4
  have h₅ : (unwrap (Store.pwmConfiguration 5 store)).join = _ := pwmConfiguration_eq store 5
  rw [newHandlerOf, hmask, hmap, hmap]
  simp only [Option.bind_eq_bind, Option.bind_some, h₀, h₁, h₂, h₄, h₅, Option.map_some]
  rfl

end Accessors

/-! ### The C firmware -/

namespace Core0

/-- What `init_outputs` leaves in `level_table` and in the PWM slices. -/
structure PwmSlices where
  levelTable : ℕ → UInt16
  wrap : ℕ → UInt16
  clkdiv : ℕ → UInt8

/-- After a reset of the chip. -/
def PwmSlices.reset : PwmSlices := ⟨fun _ => 0, fun _ => 0xFFFF, fun _ => 1⟩

/-- `pwm_gpio_to_slice_num` -/
def pwmGpioToSliceNum (gpio : ℕ) : ℕ := gpio / 2 % 8

/-- `pwm_gpio_to_channel`: channel A is 0, channel B is 1. -/
def pwmGpioToChannel (gpio : ℕ) : ℕ := gpio % 2

/-- The body of the loop of `init_outputs`. -/
def initOutput (self : Core0) (pwmEnabledOutputs : UInt32) (slices : PwmSlices) (i : ℕ) :
    PwmSlices :=
  if maskBit pwmEnabledOutputs i then
    let slice := pwmGpioToSliceNum i
    let channel := pwmGpioToChannel i
    let wrap := get16bitCV self.cvArrayFlash (115 + 7 * slice)
    let level := get16bitCV self.cvArrayFlash (118 + 7 * slice + 2 * channel)
    let clockDivider := self.cvArrayFlash (117 + 7 * slice) + 1
    { levelTable := Function.update slices.levelTable i level
      wrap := Function.update slices.wrap slice wrap
      clkdiv := Function.update slices.clkdiv slice clockDivider }
  else slices

/-- `init_outputs` -/
def initOutputs (gpioAllowedOutputs : UInt32) (self : Core0) : PwmSlices :=
  let pwmEnabledOutputs := self.get32bitCV 111 &&& gpioAllowedOutputs
  (List.range 32).foldl (self.initOutput pwmEnabledOutputs) .reset

end Core0

theorem toUInt32_sum (b₀ b₁ b₂ b₃ : UInt8) :
    b₀.toUInt32 + b₁.toUInt32 <<< 8 + b₂.toUInt32 <<< 16 + b₃.toUInt32 <<< 24 =
      b₃.toUInt32 <<< 24 ||| b₂.toUInt32 <<< 16 ||| b₁.toUInt32 <<< 8 ||| b₀.toUInt32 := by
  have h₀ := b₀.toNat_lt
  have h₁ := b₁.toNat_lt
  have h₂ := b₂.toNat_lt
  have h₃ := b₃.toNat_lt
  refine UInt32.toNat_inj.mp ?_
  rw [toNat_u32, UInt32.toNat_add, UInt32.toNat_add, UInt32.toNat_add,
    toNat_shiftLeft_u32 b₁ (by decide), toNat_shiftLeft_u32 b₂ (by decide),
    toNat_shiftLeft_u32 b₃ (by decide), UInt8.toNat_toUInt32]
  show (((b₀.toNat + b₁.toNat * 2 ^ 8) % 2 ^ 32 + b₂.toNat * 2 ^ 16) % 2 ^ 32 +
    b₃.toNat * 2 ^ 24) % 2 ^ 32 = _
  simp only [beValue, List.foldl_cons, List.foldl_nil]
  omega

theorem get32bitCV_eq (self : Core0) (i : ℕ) :
    self.get32bitCV i = cvLong self.cv (i + 1) := toUInt32_sum _ _ _ _

theorem toUInt16_sum (b₀ b₁ : UInt8) :
    b₀.toUInt16 + b₁.toUInt16 <<< 8 = b₁.toUInt16 <<< 8 ||| b₀.toUInt16 := by
  have h₀ := b₀.toNat_lt
  have h₁ := b₁.toNat_lt
  refine UInt16.toNat_inj.mp ?_
  rw [toNat_u16, UInt16.toNat_add, toNat_shiftLeft_eight (by rw [UInt8.toNat_toUInt16]; exact h₁),
    UInt8.toNat_toUInt16, UInt8.toNat_toUInt16]
  simp only [beValue, List.foldl_cons, List.foldl_nil]
  omega

theorem get16bitCV_eq (self : Core0) (i : ℕ) :
    get16bitCV self.cvArrayFlash i = cvWord self.cv (i + 1) := toUInt16_sum _ _

namespace Core0

variable {self : Core0} {gpioAllowedOutputs : UInt32} {pin : ℕ}

theorem maskBit_of_bit {w : UInt32} (hpin : pin < 32) (h : bit w pin = true) :
    maskBit w pin = true := by
  rw [maskBit, decide_eq_true_iff, UInt32.and_comm]
  exact (bit_and_one_shiftLeft hpin).mpr h

variable (hpin : pin < 32) (h : bit (self.get32bitCV 111 &&& gpioAllowedOutputs) pin = true)

include hpin h

theorem initOutputs_levelTable : (self.initOutputs gpioAllowedOutputs).levelTable pin =
    cvWord self.cv (119 + 7 * pwmGpioToSliceNum pin + 2 * pwmGpioToChannel pin) := by
  have henabled := maskBit_of_bit hpin h
  refine Folds.foldl_place (fun slices : PwmSlices => slices.levelTable pin) (fun i => i = pin)
    ?_ ?_ ⟨pin, List.mem_range.mpr hpin, rfl⟩ .reset
  · rintro slices i rfl
    rw [initOutput, if_pos henabled]
    refine (Function.update_self _ _ _).trans ?_
    rw [get16bitCV_eq, Nat.add_right_comm _ _ 1, Nat.add_right_comm _ _ 1]
  · intro slices i hne
    rw [initOutput]
    split
    · exact Function.update_of_ne (Ne.symm hne) _ _
    · rfl

/-- The pins of a slice share its registers, and write the same to them. -/
theorem initOutputs_slice :
    ((self.initOutputs gpioAllowedOutputs).wrap (pwmGpioToSliceNum pin),
        (self.initOutputs gpioAllowedOutputs).clkdiv (pwmGpioToSliceNum pin)) =
      (cvWord self.cv (116 + 7 * pwmGpioToSliceNum pin),
        self.cv (118 + 7 * pwmGpioToSliceNum pin) + 1) := by
  have henabled := maskBit_of_bit hpin h
  refine Folds.foldl_place
    (fun slices : PwmSlices =>
      (slices.wrap (pwmGpioToSliceNum pin), slices.clkdiv (pwmGpioToSliceNum pin)))
    (fun i => maskBit (self.get32bitCV 111 &&& gpioAllowedOutputs) i = true ∧
      pwmGpioToSliceNum i = pwmGpioToSliceNum pin)
    ?_ ?_ ⟨pin, List.mem_range.mpr hpin, henabled, rfl⟩ .reset
  · rintro slices i ⟨hmask, hslice⟩
    rw [initOutput, if_pos hmask, hslice]
    have hindex : 118 + 7 * pwmGpioToSliceNum pin - 1 = 117 + 7 * pwmGpioToSliceNum pin := by omega
    refine Prod.ext ((Function.update_self _ _ _).trans ?_) ((Function.update_self _ _ _).trans ?_)
    · rw [get16bitCV_eq, Nat.add_right_comm]
    · rw [cv, hindex]
  · intro slices i hother
    rw [initOutput]
    split
    · rename_i hmask
      have hne : pwmGpioToSliceNum pin ≠ pwmGpioToSliceNum i :=
        fun heq => hother ⟨hmask, heq.symm⟩
      exact Prod.ext (Function.update_of_ne hne _ _) (Function.update_of_ne hne _ _)
    · rfl

end Core0

end Rp2040
