/-
The bits of 32-bit words.

`Words.bit w i` is bit `i` of `w`; the simp lemmas push it through the word
operations, and `ext` reduces an equation of words to its bits.

* `bit_and_one_shiftLeft` — the test `w & (1 << i) != 0`;
* `bit_ofNat_mask` — the word with the bits `m` to `n` set.
-/
import Mathlib.Algebra.Group.Nat.Defs
import Mathlib.Tactic.Common

namespace Words

def bit (w : UInt32) (i : ℕ) : Bool := w.toBitVec.getLsbD i

variable {a b : UInt32} {i k m n : ℕ}

@[simp] theorem bit_zero : bit 0 i = false := by simp [bit]

@[simp] theorem bit_and : bit (a &&& b) i = (bit a i && bit b i) := by simp [bit]

@[simp] theorem bit_or : bit (a ||| b) i = (bit a i || bit b i) := by simp [bit]

@[simp] theorem bit_not (hi : i < 32) : bit (~~~a) i = !bit a i := by simp [bit, hi]

theorem bit_of_ge (hi : 32 ≤ i) : bit a i = false := BitVec.getLsbD_of_ge _ _ hi

/-- Words with the same bits are equal. -/
theorem ext (h : ∀ i < 32, bit a i = bit b i) : a = b :=
  UInt32.toBitVec_inj.mp (BitVec.eq_of_getLsbD_eq fun i hi => h i hi)

theorem bit_ofNat (hi : i < 32) (v : ℕ) : bit (UInt32.ofNat v) i = v.testBit i := by
  rw [bit, UInt32.toBitVec_ofNat', BitVec.getLsbD_ofNat, decide_eq_true hi, Bool.true_and]

theorem bit_shiftLeft (hi : i < 32) (hk : k < 32) :
    bit (a <<< UInt32.ofNat k) i = (decide (k ≤ i) && bit a (i - k)) := by
  have hmod : (UInt32.ofNat k).toBitVec % 32 = BitVec.ofNat 32 k := by
    refine BitVec.eq_of_toNat_eq ?_
    show k % 2 ^ 32 % 32 = k % 2 ^ 32
    omega
  simp only [bit, UInt32.toBitVec_shiftLeft, hmod, BitVec.shiftLeft_eq', BitVec.getLsbD_shiftLeft,
    BitVec.toNat_ofNat]
  rw [Nat.mod_eq_of_lt (by omega), decide_eq_true hi, Bool.true_and]
  by_cases h : i < k
  · simp [h, Nat.not_le.mpr h]
  · simp [h, Nat.not_lt.mp h]

theorem bit_one : bit 1 i = decide (i = 0) := by
  by_cases hi : i < 32
  · rw [show (1 : UInt32) = UInt32.ofNat 1 from rfl, bit_ofNat hi, Bool.eq_iff_iff,
      Nat.testBit_one_eq_true_iff_self_eq_zero, decide_eq_true_eq]
  · rw [bit_of_ge (Nat.not_lt.mp hi), decide_eq_false (by omega)]

/-- The test of bit `i`. -/
theorem bit_and_one_shiftLeft (hi : i < 32) :
    a &&& 1 <<< UInt32.ofNat i ≠ 0 ↔ bit a i = true := by
  constructor
  · intro h
    by_contra hb
    refine h (ext fun j hj => ?_)
    rw [bit_and, bit_shiftLeft hj hi, bit_one, bit_zero]
    by_cases hj' : j = i
    · rw [hj', eq_false_of_ne_true hb, Bool.false_and]
    · have hne : (decide (i ≤ j) && decide (j - i = 0)) = false := by
        rw [Bool.and_eq_false_iff, decide_eq_false_iff_not, decide_eq_false_iff_not]
        omega
      rw [hne, Bool.and_false]
  · intro hb h
    have hbit := congrArg (fun w => bit w i) h
    simp only [bit_and, bit_shiftLeft hi hi, bit_one, hb, bit_zero, Nat.le_refl, Nat.sub_self,
      decide_true, Bool.and_self] at hbit
    cases hbit

/-- The word with the bits `m` to `n` set. -/
theorem bit_ofNat_mask (hi : i < 32) (hmn : m ≤ n + 1) :
    bit (UInt32.ofNat (2 ^ (n + 1) - 2 ^ m)) i = decide (m ≤ i ∧ i ≤ n) := by
  have hpow : 2 ^ (n + 1) - 2 ^ m = (2 ^ (n + 1 - m) - 1) * 2 ^ m := by
    rw [Nat.sub_mul, ← Nat.pow_add, Nat.sub_add_cancel hmn, Nat.one_mul]
  rw [bit_ofNat hi, hpow, Nat.testBit_mul_two_pow, Nat.testBit_two_pow_sub_one]
  by_cases h : m ≤ i
  · simp only [h, decide_true, Bool.true_and, true_and]
    exact decide_eq_decide.mpr (by omega)
  · simp [h]

end Words
