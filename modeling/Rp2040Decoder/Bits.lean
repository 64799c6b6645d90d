/-
Numbers as lists of bits, most significant bit first.

* `bits_append` — putting two bit strings side by side is `u * 2 ^ n + v`;
* `bits_injective` — the `n` bits of a number below `2 ^ n` determine it;
* `bits_compl` — the bits of the complement are the complemented bits;
* `flatMap_injective` — a code of one fixed length is read back uniquely.
-/
import Mathlib.Data.List.Basic
import Mathlib.Tactic.Positivity
import Mathlib.Tactic.Ring

namespace Bits

/-- The low `n` bits of `v`, most significant first. -/
def bits : ℕ → ℕ → List Bool
  | 0, _ => []
  | n + 1, v => bits n (v / 2) ++ [v % 2 == 1]

@[simp]
theorem length_bits (n v : ℕ) : (bits n v).length = n := by
  induction n generalizing v with
  | zero => rfl
  | succ n ih => simp [bits, ih]

/-- Read from the end, the bits are those of the number. -/
theorem reverse_bits (n v : ℕ) : (bits n v).reverse = (List.range n).map v.testBit := by
  induction n generalizing v with
  | zero => rfl
  | succ n ih =>
    have hlow : (v % 2 == 1) = v.testBit 0 := by rw [Nat.testBit_zero]; rfl
    have hhalf : (v / 2).testBit = v.testBit ∘ Nat.succ :=
      funext fun i => (Nat.testBit_succ v i).symm
    rw [bits, List.reverse_append, ih, List.range_succ_eq_map, List.map_cons, List.map_map, hlow,
      hhalf]
    rfl

/-- Bits beyond the `n` lowest do not count. -/
theorem bits_mod {n k : ℕ} (h : n ≤ k) (v : ℕ) : bits n (v % 2 ^ k) = bits n v := by
  induction n generalizing v k with
  | zero => rfl
  | succ n ih =>
    obtain ⟨k, rfl⟩ : ∃ m, k = m + 1 := ⟨k - 1, by omega⟩
    have hhalf : v % 2 ^ (k + 1) / 2 = v / 2 % 2 ^ k := by
      rw [pow_succ', Nat.mod_mul_right_div_self]
    have hlow : v % 2 ^ (k + 1) % 2 = v % 2 :=
      Nat.mod_mod_of_dvd v (dvd_pow_self 2 (by omega))
    rw [bits, bits, hhalf, hlow, ih (by omega)]

theorem bits_append_of_lt {m n u v : ℕ} (h : v < 2 ^ n) :
    bits (m + n) (u * 2 ^ n + v) = bits m u ++ bits n v := by
  induction n generalizing v with
  | zero =>
    obtain rfl : v = 0 := by simpa using h
    simp [bits]
  | succ n ih =>
    rw [pow_succ] at h
    have hhalf : (u * 2 ^ (n + 1) + v) / 2 = u * 2 ^ n + v / 2 := by
      rw [pow_succ, ← mul_assoc]
      omega
    have hlow : (u * 2 ^ (n + 1) + v) % 2 = v % 2 := by
      rw [pow_succ, ← mul_assoc]
      omega
    rw [← Nat.add_assoc, bits, bits, hhalf, hlow, ih (by omega), List.append_assoc]

/-- Two bit strings side by side. -/
theorem bits_append (m n u v : ℕ) :
    bits (m + n) (u * 2 ^ n + v % 2 ^ n) = bits m u ++ bits n v := by
  rw [bits_append_of_lt (Nat.mod_lt v (by positivity)), bits_mod le_rfl]

theorem bits_split (m n v : ℕ) : bits (m + n) v = bits m (v / 2 ^ n) ++ bits n v := by
  rw [← bits_append, Nat.div_add_mod']

theorem bits_injective {n u v : ℕ} (hu : u < 2 ^ n) (hv : v < 2 ^ n) (h : bits n u = bits n v) :
    u = v := by
  induction n generalizing u v with
  | zero =>
    rw [pow_zero] at hu hv
    omega
  | succ n ih =>
    rw [pow_succ] at hu hv
    obtain ⟨hhalf, hlow⟩ := List.append_inj' h rfl
    have hdiv : u / 2 = v / 2 := ih (by omega) (by omega) hhalf
    have hmod : (u % 2 == 1) = (v % 2 == 1) := by simpa using hlow
    rw [Bool.eq_iff_iff, beq_iff_eq, beq_iff_eq] at hmod
    omega

/-- The bits of the complement. -/
theorem bits_compl {n v : ℕ} (h : v < 2 ^ n) : bits n (2 ^ n - 1 - v) = (bits n v).map (!·) := by
  induction n generalizing v with
  | zero => rfl
  | succ n ih =>
    rw [pow_succ] at h ⊢
    have hhalf : (2 ^ n * 2 - 1 - v) / 2 = 2 ^ n - 1 - v / 2 := by omega
    have hlow : ((2 ^ n * 2 - 1 - v) % 2 == 1) = !(v % 2 == 1) := by
      rw [Bool.eq_iff_iff, Bool.not_eq_true', beq_iff_eq, beq_eq_false_iff_ne]
      omega
    rw [bits, bits, hhalf, hlow, ih (by omega), List.map_append]
    rfl

variable {α β : Type*} {f : α → List β} {n : ℕ}

theorem length_flatMap (hlen : ∀ a, (f a).length = n) (l : List α) :
    (l.flatMap f).length = n * l.length := by
  induction l with
  | nil => rfl
  | cons a l ih =>
    rw [List.flatMap_cons, List.length_append, List.length_cons, hlen, ih]
    ring

/-- Code words of one fixed length are read back uniquely. -/
theorem flatMap_injective (hlen : ∀ a, (f a).length = n) (hn : 0 < n)
    (hf : Function.Injective f) {l l' : List α} (h : l.flatMap f = l'.flatMap f) : l = l' := by
  induction l generalizing l' with
  | nil =>
    have hl' := length_flatMap hlen l'
    rw [← h, List.flatMap_nil, List.length_nil] at hl'
    have : l'.length = 0 := by
      rcases Nat.mul_eq_zero.mp hl'.symm with hz | hz
      · omega
      · exact hz
    exact (List.length_eq_zero_iff.mp this).symm
  | cons a l ih =>
    cases l' with
    | nil =>
      have hl := length_flatMap hlen (a :: l)
      rw [h, List.flatMap_nil, List.length_nil, List.length_cons] at hl
      have : 0 < n * (l.length + 1) := by positivity
      omega
    | cons b l' =>
      rw [List.flatMap_cons, List.flatMap_cons] at h
      obtain ⟨hhead, htail⟩ := List.append_inj h (by rw [hlen, hlen])
      rw [hf hhead, ih htail]

end Bits
