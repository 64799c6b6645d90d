/-
Configuration variables and the store that holds them (`dcc/src/cv/mod.rs`,
`dcc/src/cv/store.rs`).

* `Store` — the trait: CVs are numbered from 1, and a write may fail after it
  has changed the store;
* `ReadableStore`, `ReliableStore` — a store whose reads, and whose writes too,
  succeed, seen as a function from CV numbers to bytes;
* `addr_eq`, `reset_run` — the store extensions in these terms.
-/
import Mathlib.Data.List.Basic
import Rp2040Decoder.Procedure

namespace Rp2040

/-- The number of CV values. -/
def CV_SIZE : ℕ := 1024

inductive Cv
  | primaryAddress | vStart | accelerationRate | decelerationRate | vHigh | vMid
  | manufacturerVersionNumber | manufacturerId | motorPwmFrequency
  | extendedAddressMsb | extendedAddressLsb | consistAddress | decoderConfiguration
  | pidFf | pidFilterTc | pidSampleTime | pidKi | pidKd | pidILimitHigh | pidILimitLow
  | pidKpY0 | pidKpY1 | pidKpY2 | pidKpGainRange1End
  | emfMsrSamples | emfMsrDelay | emfMsrLowCutoff | emfMsrHighCutoff | kickStart
  | emfAdcOffset | motorPwmDivider | speedStepPeriod | enablePwmOutputMask
  deriving DecidableEq, Repr

namespace Cv

/-- The discriminant. -/
def number : Cv → ℕ
  | primaryAddress => 1
  | vStart => 2
  | accelerationRate => 3
  | decelerationRate => 4
  | vHigh => 5
  | vMid => 6
  | manufacturerVersionNumber => 7
  | manufacturerId => 8
  | motorPwmFrequency => 9
  | extendedAddressMsb => 17
  | extendedAddressLsb => 18
  | consistAddress => 19
  | decoderConfiguration => 29
  | pidFf => 47
  | pidFilterTc => 48
  | pidSampleTime => 49
  | pidKi => 50
  | pidKd => 51
  | pidILimitHigh => 52
  | pidILimitLow => 53
  | pidKpY0 => 54
  | pidKpY1 => 56
  | pidKpY2 => 58
  | pidKpGainRange1End => 60
  | emfMsrSamples => 61
  | emfMsrDelay => 62
  | emfMsrLowCutoff => 63
  | emfMsrHighCutoff => 64
  | kickStart => 65
  | emfAdcOffset => 172
  | motorPwmDivider => 174
  | speedStepPeriod => 175
  | enablePwmOutputMask => 112

def all : List Cv :=
  [primaryAddress, vStart, accelerationRate, decelerationRate, vHigh, vMid,
    manufacturerVersionNumber, manufacturerId, motorPwmFrequency, extendedAddressMsb,
    extendedAddressLsb, consistAddress, decoderConfiguration, pidFf, pidFilterTc, pidSampleTime,
    pidKi, pidKd, pidILimitHigh, pidILimitLow, pidKpY0, pidKpY1, pidKpY2, pidKpGainRange1End,
    emfMsrSamples, emfMsrDelay, emfMsrLowCutoff, emfMsrHighCutoff, kickStart, emfAdcOffset,
    motorPwmDivider, speedStepPeriod, enablePwmOutputMask]

/-- `IntEnum::try_from` -/
def tryFrom (n : ℕ) : Option Cv := all.find? fun c => c.number = n

end Cv

/-- `DEFAULT_VALUES` by CV number. -/
def defaultValue : ℕ → UInt8
  | 1 => 3
  | 2 => 8
  | 5 => 100
  | 6 => 63
  | 7 => 129
  | 8 => 13
  | 9 => 150
  | 10 => 1
  | 11 => 255
  | 12 => 4
  | 17 => 195
  | 18 => 232
  | 31 => 16
  | 47 => 230
  | 48 => 10
  | 49 => 5
  | 50 => 25
  | 51 => 50
  | 52 => 100
  | 53 => 100
  | 54 => 7
  | 55 => 208
  | 57 => 250
  | 59 => 150
  | 60 => 13
  | 61 => 100
  | 62 => 100
  | 63 => 15
  | 64 => 15
  | 107 => 1
  | 108 => 11
  | 172 => 255
  | 173 => 127
  | 174 => 1
  | 175 => 7
  | _ => 0

def DEFAULT_VALUES : List UInt8 := (List.range CV_SIZE).map fun i => defaultValue (i + 1)

theorem length_DEFAULT_VALUES : DEFAULT_VALUES.length = CV_SIZE := by
  rw [DEFAULT_VALUES, List.length_map, List.length_range]

/-! ### The store -/

inductive StoreError
  /-- The address is outside of the range supported by the store. -/
  | invalidAddress
  /-- Error reading / writing the store. -/
  | io
  deriving DecidableEq, Repr

/-- A configuration variable store. -/
class Store (S : Type) where
  readByte : S → ℕ → Except (Fault StoreError) UInt8
  readBytes : S → ℕ → ℕ → Except (Fault StoreError) (List UInt8)
  writeByte : ℕ → UInt8 → Proc S StoreError Unit
  /-- With `force` the write is persisted even if the value is present. -/
  writeBytes : ℕ → List UInt8 → Bool → Proc S StoreError Unit

/-- The 14-bit address in two bytes, the most significant first. -/
def extendedAddress (msb lsb : UInt8) : UInt16 :=
  (msb &&& 0b00111111).toUInt16 <<< 8 ||| lsb.toUInt16

/-- Reads the extended address from the start of the data; asserts that there
are at least two bytes. -/
def readExtendedAddress {ε : Type} (data : List UInt8) : Except (Fault ε) UInt16 :=
  match data with
  | d₀ :: d₁ :: _ => .ok (extendedAddress d₀ d₁)
  | _ => .error .panic

/-- The most significant byte of a word. -/
theorem toNat_shiftLeft_eight {v : UInt16} (h : v.toNat < 256) :
    (v <<< 8).toNat = v.toNat * 256 := by
  rw [UInt16.toNat_shiftLeft, Nat.shiftLeft_eq]
  exact Nat.mod_eq_of_lt (by show v.toNat * 2 ^ 8 < 2 ^ 16; omega)

theorem toNat_extendedAddress (msb lsb : UInt8) :
    (extendedAddress msb lsb).toNat = msb.toNat % 64 * 256 + lsb.toNat := by
  have hlsb := lsb.toNat_lt
  have hmsb : (msb &&& 0b00111111).toNat = msb.toNat % 64 :=
    (UInt8.toNat_and _ _).trans (Nat.and_two_pow_sub_one_eq_mod msb.toNat 6)
  have hshift : ((msb &&& 0b00111111).toUInt16 <<< 8).toNat = msb.toNat % 64 * 256 := by
    rw [toNat_shiftLeft_eight (by rw [UInt8.toNat_toUInt16]; exact UInt8.toNat_lt _),
      UInt8.toNat_toUInt16, hmsb]
  rw [extendedAddress, UInt16.toNat_or, hshift, UInt8.toNat_toUInt16, Nat.mul_comm,
    show 256 = 2 ^ 8 from rfl, Nat.two_pow_add_eq_or_of_lt hlsb]

namespace Store

variable {S : Type} [Store S]

/-- `StoreExt::addr` -/
def addr (self : S) : Except (Fault StoreError) UInt16 := do
  -- check if we are an extended address
  if 0b00100000 &&& (← readByte self Cv.decoderConfiguration.number) ≠ 0 then
    readExtendedAddress (← readBytes self Cv.extendedAddressMsb.number 2)
  else
    return (← readByte self Cv.primaryAddress.number).toUInt16

/-- `StoreExt::emf_adc_offset_clear` -/
def emfAdcOffsetClear : Proc S StoreError Unit := writeByte Cv.emfAdcOffset.number 255

/-- Resets the CV store to the default values. -/
def reset : Proc S StoreError Unit := writeBytes 1 DEFAULT_VALUES true

def ensurePopulated : Proc S StoreError Unit := do
  let primaryAddr ← Proc.read addr
  if primaryAddr = 0 then reset

end Store

/-! ### Stores whose I/O succeeds -/

/-- The CVs after the bytes `v` were written from number `a` on. -/
def overwrite (cvs : ℕ → UInt8) (a : ℕ) (v : List UInt8) : ℕ → UInt8 := fun n =>
  if a ≤ n then v[n - a]?.getD (cvs n) else cvs n

theorem overwrite_singleton (cvs : ℕ → UInt8) (a : ℕ) (x : UInt8) :
    overwrite cvs a [x] = Function.update cvs a x := by
  funext n
  rcases Nat.lt_trichotomy n a with h | rfl | h
  · rw [overwrite, if_neg (by omega), Function.update_of_ne (by omega)]
  · rw [overwrite, if_pos (Nat.le_refl _), Function.update_self, Nat.sub_self]
    rfl
  · rw [overwrite, if_pos (by omega), Function.update_of_ne (by omega),
      List.getElem?_eq_none (by simp; omega), Option.getD_none]

theorem overwrite_DEFAULT_VALUES (cvs : ℕ → UInt8) (n : ℕ) :
    overwrite cvs 1 DEFAULT_VALUES n =
      if 1 ≤ n ∧ n ≤ CV_SIZE then defaultValue n else cvs n := by
  by_cases h₁ : 1 ≤ n
  · rw [overwrite, if_pos h₁, DEFAULT_VALUES, List.getElem?_map]
    by_cases h₂ : n ≤ CV_SIZE
    · rw [List.getElem?_range (by omega), if_pos ⟨h₁, h₂⟩, Option.map_some, Option.getD_some,
        Nat.sub_add_cancel h₁]
    · rw [List.getElem?_eq_none (by rw [List.length_range]; omega), if_neg (by omega)]
      rfl
  · rw [overwrite, if_neg h₁, if_neg (by omega)]

/-- A store whose reads succeed and show the CVs, a function from CV numbers
to bytes. -/
class ReadableStore (S : Type) [Store S] where
  cvs : S → ℕ → UInt8
  readByte_eq (s : S) {a : ℕ} : 1 ≤ a → a ≤ CV_SIZE → Store.readByte s a = .ok (cvs s a)
  readBytes_eq (s : S) {a n : ℕ} : 1 ≤ a → a + n ≤ CV_SIZE + 1 →
    Store.readBytes s a n = .ok ((List.range n).map fun i => cvs s (a + i))

/-- A store whose writes succeed too, as long as it is in a `Good` state. -/
class ReliableStore (S : Type) [Store S] extends ReadableStore S where
  Good : S → Prop
  writeByte_run {s : S} {a : ℕ} (v : UInt8) : Good s → 1 ≤ a → a ≤ CV_SIZE →
    ∃ s', (Store.writeByte a v).run s = (.ok (), s') ∧ Good s' ∧
      cvs s' = Function.update (cvs s) a v
  writeBytes_run {s : S} {a : ℕ} {v : List UInt8} (force : Bool) : Good s → 1 ≤ a →
    a + v.length ≤ CV_SIZE + 1 →
    ∃ s', (Store.writeBytes a v force).run s = (.ok (), s') ∧ Good s' ∧
      cvs s' = overwrite (cvs s) a v

/-- The address the CVs select: CV17 and CV18 with bit 5 of CV29 set, CV1 with
the bit clear. -/
def cvAddr (cvs : ℕ → UInt8) : UInt16 :=
  if 0b00100000 &&& cvs 29 ≠ 0 then extendedAddress (cvs 17) (cvs 18) else (cvs 1).toUInt16

section ReliableStore

open ReadableStore ReliableStore

variable {S : Type} [Store S]

theorem addr_eq [ReadableStore S] (s : S) : Store.addr s = .ok (cvAddr (cvs s)) := by
  rw [Store.addr, readByte_eq s (by decide) (by decide), readByte_eq s (by decide) (by decide),
    readBytes_eq s (by decide) (by decide)]
  by_cases h : 0b00100000 &&& cvs s 29 ≠ 0
  · simp only [cvAddr, if_pos h]
    exact if_pos h
  · simp only [cvAddr, if_neg h]
    exact if_neg h

theorem reset_run [ReliableStore S] {s : S} (hs : Good s) :
    ∃ s' : S, Store.reset.run s = (.ok (), s') ∧ Good s' ∧
      cvs s' = overwrite (cvs s) 1 DEFAULT_VALUES :=
  writeBytes_run true hs (Nat.le_refl 1)
    (Nat.le_of_eq (by rw [length_DEFAULT_VALUES, Nat.add_comm]))

end ReliableStore

end Rp2040
