/-
Rounding a rational number to a machine number.

`roundAway` is the rounding of the C and Rust libraries: to the nearest integer,
ties away from zero.  On numbers that are not negative it is Mathlib's `round`,
whose facts it inherits.  `FloatRounding` is what a floating point format with a
24-bit significand does to a result.
-/
import Mathlib.Algebra.Order.Round
import Mathlib.Data.Rat.Floor

namespace Rounding

variable {x y lo hi : ℚ} {n : ℕ}

/-- To the nearest integer, ties away from zero. -/
def roundAway (x : ℚ) : ℤ := if 0 ≤ x then ⌊x + 1 / 2⌋ else ⌈x - 1 / 2⌉

/-- A Rust cast to `u16`: toward zero, and to the nearest value in range. -/
def asU16 (x : ℚ) : UInt16 := UInt16.ofNat (min ⌊x⌋.toNat 65535)

theorem roundAway_of_nonneg (h : 0 ≤ x) : roundAway x = round x := by
  rw [roundAway, if_pos h, round_eq]

theorem round_mono (h : x ≤ y) : round x ≤ round y := by
  rw [round_eq, round_eq]
  exact Int.floor_mono (add_le_add_left h _)

theorem natCast_le_round (h : (n : ℚ) ≤ x) : (n : ℤ) ≤ round x := by
  rw [← round_natCast (α := ℚ) n]
  exact round_mono h

theorem round_le_natCast (h : x ≤ (n : ℚ)) : round x ≤ (n : ℤ) := by
  rw [← round_natCast (α := ℚ) n]
  exact round_mono h

/-- The cast is exact on the integers in range. -/
theorem toNat_asU16 {z : ℤ} (h₀ : 0 ≤ z) (h : z ≤ 65535) : ((asU16 z).toNat : ℤ) = z := by
  rw [asU16, Int.floor_intCast, UInt16.toNat_ofNat_of_lt' (by show _ < 2 ^ 16; omega)]
  omega

/-- A C cast of an integer to `uint16_t`. -/
theorem toNat_ofInt {z : ℤ} (h₀ : 0 ≤ z) (h : z ≤ 65535) :
    ((UInt16.ofInt z).toNat : ℤ) = z := by
  rw [UInt16.ofInt, UInt16.toNat_ofNat_of_lt' (by show _ < 2 ^ 16; omega)]
  omega

/-- `f32::clamp` -/
def clamp (x lo hi : ℚ) : ℚ := if x < lo then lo else if hi < x then hi else x

theorem clamp_of_mem (h₀ : lo ≤ x) (h₁ : x ≤ hi) : clamp x lo hi = x := by
  rw [clamp, if_neg (not_lt.mpr h₀), if_neg (not_lt.mpr h₁)]

/-- The rounding of a floating point format of single precision. -/
structure FloatRounding where
  round : ℚ → ℚ
  mono : Monotone round
  natCast : ∀ n : ℕ, n ≤ 2 ^ 24 → round n = n

namespace FloatRounding

/-- Exact arithmetic. -/
def exact : FloatRounding := ⟨id, monotone_id, fun _ _ => rfl⟩

@[simp] theorem round_exact (x : ℚ) : exact.round x = x := rfl

end FloatRounding

end Rounding
