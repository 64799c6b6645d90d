/-
Averages of lists of natural numbers.

Some item is at most the average and some item is at least the average, of the
items themselves as of any function of them, so

* `exists_le_div`, `exists_div_le` — an average that is rounded down lies
  between two items;
* `exists_le_average`, `exists_average_le` — and so does the exact one;
* `exists_mul_sq_le` — some item is no further from a point than the root mean
  square deviation from it.

`toNat_foldl_add` and `toNat_sub_mul_sub` are sums and squared differences as
they are computed on 64 bits.
-/
import Mathlib.Algebra.BigOperators.Ring.List
import Mathlib.Algebra.Order.BigOperators.Group.List
import Mathlib.Algebra.Order.Round
import Mathlib.Data.Nat.Dist
import Mathlib.Data.Rat.Floor
import Mathlib.Tactic.Linarith

namespace Averages

variable {α : Type*} {f : α → ℕ} {l l' : List α} {m n : ℕ}

/-! ### Sums -/

theorem sum_map_le (h : ∀ a ∈ l, f a ≤ n) : (l.map f).sum ≤ l.length * n := by
  have hsum := List.sum_le_card_nsmul (l.map f) n (List.forall_mem_map.mpr h)
  rwa [List.length_map, Nat.nsmul_eq_mul] at hsum

theorem sum_map_const (n : ℕ) : (l.map fun _ => n).sum = l.length * n := by
  rw [List.map_const', List.sum_replicate, Nat.nsmul_eq_mul]

/-- Some item is at most the average. -/
theorem exists_length_mul_le (h : l ≠ []) (f : α → ℕ) :
    ∃ a ∈ l, l.length * f a ≤ (l.map f).sum := by
  obtain ⟨a, ha, hle⟩ := List.exists_le_of_sum_le h (fun a => l.length * f a)
    (fun _ => (l.map f).sum) (by rw [List.sum_map_mul_left, sum_map_const])
  exact ⟨a, ha, hle⟩

/-- Some item is at least the average. -/
theorem exists_le_length_mul (h : l ≠ []) (f : α → ℕ) :
    ∃ a ∈ l, (l.map f).sum ≤ l.length * f a := by
  obtain ⟨a, ha, hle⟩ := List.exists_le_of_sum_le h (fun _ => (l.map f).sum)
    (fun a => l.length * f a) (by rw [List.sum_map_mul_left, sum_map_const])
  exact ⟨a, ha, hle⟩

/-! ### Rounded averages -/

theorem exists_le_div (h : l ≠ []) (f : α → ℕ) : ∃ a ∈ l, f a ≤ (l.map f).sum / l.length := by
  obtain ⟨a, ha, hle⟩ := exists_length_mul_le h f
  exact ⟨a, ha, (Nat.le_div_iff_mul_le (List.length_pos_of_ne_nil h)).mpr (Nat.mul_comm _ _ ▸ hle)⟩

theorem exists_div_le (h : l ≠ []) (f : α → ℕ) : ∃ a ∈ l, (l.map f).sum / l.length ≤ f a := by
  obtain ⟨a, ha, hle⟩ := exists_le_length_mul h f
  exact ⟨a, ha, Nat.div_le_of_le_mul hle⟩

/-- The average as a rational number. -/
def average (f : α → ℕ) (l : List α) : ℚ := ((l.map f).sum : ℚ) / (l.length : ℚ)

theorem exists_le_average (h : l ≠ []) (f : α → ℕ) : ∃ a ∈ l, (f a : ℚ) ≤ average f l := by
  obtain ⟨a, ha, hle⟩ := exists_length_mul_le h f
  have hlength : (0 : ℚ) < l.length := by exact_mod_cast List.length_pos_of_ne_nil h
  refine ⟨a, ha, (le_div_iff₀ hlength).mpr ?_⟩
  rw [mul_comm]
  exact_mod_cast hle

theorem exists_average_le (h : l ≠ []) (f : α → ℕ) : ∃ a ∈ l, average f l ≤ (f a : ℚ) := by
  obtain ⟨a, ha, hle⟩ := exists_le_length_mul h f
  have hlength : (0 : ℚ) < l.length := by exact_mod_cast List.length_pos_of_ne_nil h
  refine ⟨a, ha, (div_le_iff₀ hlength).mpr ?_⟩
  rw [mul_comm]
  exact_mod_cast hle

theorem average_perm (h : l.Perm l') : average f l = average f l' := by
  rw [average, average, (h.map f).sum_nat, h.length_eq]

theorem average_nonneg : 0 ≤ average f l := div_nonneg (Nat.cast_nonneg _) (Nat.cast_nonneg _)

/-! ### Deviations -/

/-- The sum of the squared deviations from `m`. -/
def sqDev (f : α → ℕ) (m : ℕ) (l : List α) : ℕ := (l.map fun a => (f a).dist m ^ 2).sum

theorem sqDev_perm (h : l.Perm l') : sqDev f m l = sqDev f m l' := (h.map _).sum_nat

/-- Some item is no further from `m` than the root mean square deviation. -/
theorem exists_mul_sq_le (h : l ≠ []) (f : α → ℕ) (m : ℕ) :
    ∃ a ∈ l, l.length * (f a).dist m ^ 2 ≤ sqDev f m l :=
  exists_length_mul_le h _

/-! ### On 64 bits -/

theorem toNat_foldl_add (g : α → UInt64) (l : List α) (sum : UInt64)
    (h : sum.toNat + (l.map fun a => (g a).toNat).sum < 2 ^ 64) :
    (l.foldl (fun sum a => sum + g a) sum).toNat =
      sum.toNat + (l.map fun a => (g a).toNat).sum := by
  induction l generalizing sum with
  | nil => rfl
  | cons a l ih =>
    rw [List.map_cons, List.sum_cons] at h ⊢
    have hadd : (sum + g a).toNat = sum.toNat + (g a).toNat := by
      rw [UInt64.toNat_add]
      exact Nat.mod_eq_of_lt (by omega)
    rw [List.foldl_cons, ih _ (by rw [hadd]; omega), hadd]
    omega

theorem toNat_sub_mul_sub_of_le {a m : UInt64} (ha : a.toNat < 65536) (hle : m.toNat ≤ a.toNat) :
    ((a - m) * (a - m)).toNat = (a.toNat - m.toNat) ^ 2 := by
  have hsub : (a - m).toNat = a.toNat - m.toNat :=
    UInt64.toNat_sub_of_le a m (UInt64.le_iff_toNat_le.mpr hle)
  have hsq : (a.toNat - m.toNat) * (a.toNat - m.toNat) ≤ 65536 * 65536 :=
    Nat.mul_le_mul (by omega) (by omega)
  rw [UInt64.toNat_mul, hsub, sq]
  exact Nat.mod_eq_of_lt (by omega)

/-- The square of a difference that may be negative. -/
theorem toNat_sub_mul_sub {a m : UInt64} (ha : a.toNat < 65536) (hm : m.toNat < 65536) :
    ((a - m) * (a - m)).toNat = a.toNat.dist m.toNat ^ 2 := by
  rcases Nat.le_total m.toNat a.toNat with hle | hle
  · rw [toNat_sub_mul_sub_of_le ha hle, Nat.dist_eq_sub_of_le_right hle]
  · have hneg : (a - m) * (a - m) = (m - a) * (m - a) := by
      rw [← UInt64.neg_sub, UInt64.neg_mul_neg]
    rw [hneg, toNat_sub_mul_sub_of_le hm hle, Nat.dist_eq_sub_of_le hle]

end Averages
