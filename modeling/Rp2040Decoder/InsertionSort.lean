/-
Insertion sort that takes its items one at a time.

The array is a function of the index.  `insertInto key j` is the inner loop: it
moves the items before the place `j` up for as long as they are greater than
`key`, and puts `key` where it stops.  `fill items n` takes the first `n` items.

* `contents_insertInto_perm`, `contents_insertInto_sorted` — one item;
* `contents_fill_perm`, `contents_fill_sorted` — the items taken so far, sorted;
* `contents_fill` — they are what any other sort makes of them.
-/
import Mathlib.Data.List.Sort
import Mathlib.Order.Defs.LinearOrder

namespace InsertionSort

/-- The inner loop, below the place `j`. -/
def insertInto {α : Type*} [LT α] [DecidableLT α] (key : α) : ℕ → (ℕ → α) → ℕ → α
  | 0, a => Function.update a 0 key
  | j + 1, a =>
    if key < a j then insertInto key j (Function.update a (j + 1) (a j))
    else Function.update a (j + 1) key

/-- The array after `n` items. -/
def fill {α : Type*} [LT α] [DecidableLT α] (items a : ℕ → α) : ℕ → ℕ → α
  | 0 => a
  | i + 1 => insertInto (items i) i (Function.update (fill items a i) i (items i))

/-- The first `n` entries of the array. -/
def contents {α : Type*} (a : ℕ → α) (n : ℕ) : List α := (List.range n).map a

variable {α : Type*} [LinearOrder α] {key x : α} {a items : ℕ → α} {i j n : ℕ}

omit [LinearOrder α] in
theorem contents_succ (a : ℕ → α) (n : ℕ) : contents a (n + 1) = contents a n ++ [a n] := by
  rw [contents, List.range_succ, List.map_append, List.map_singleton, contents]

omit [LinearOrder α] in
theorem length_contents : (contents a n).length = n := by
  rw [contents, List.length_map, List.length_range]

omit [LinearOrder α] in
/-- An entry behind the first `n` is not among them. -/
theorem contents_update (h : n ≤ i) : contents (Function.update a i x) n = contents a n := by
  refine List.map_congr_left fun k hk => Function.update_of_ne ?_ x a
  have hlt := List.mem_range.mp hk
  omega

/-! ### One item -/

/-- The inner loop writes nothing behind the place it starts at. -/
theorem insertInto_of_lt (h : j < i) : insertInto key j a i = a i := by
  induction j generalizing a with
  | zero =>
    rw [insertInto]
    exact Function.update_of_ne (show i ≠ 0 by omega) key a
  | succ j ih =>
    have hne : i ≠ j + 1 := by omega
    rw [insertInto]
    split
    · rw [ih (by omega), Function.update_of_ne hne]
    · exact Function.update_of_ne hne key a

theorem contents_insertInto_perm :
    (contents (insertInto key j a) (j + 1)).Perm (key :: contents a j) := by
  induction j generalizing a with
  | zero =>
    have hkey : insertInto key 0 a 0 = key := by rw [insertInto, Function.update_self]
    rw [contents_succ, hkey]
    exact List.Perm.refl _
  | succ j ih =>
    rw [insertInto]
    split
    · -- the last item moves up
      have hlast : insertInto key j (Function.update a (j + 1) (a j)) (j + 1) = a j := by
        rw [insertInto_of_lt (Nat.lt_succ_self j), Function.update_self]
      have hrest := (ih (a := Function.update a (j + 1) (a j))).append_right [a j]
      rw [contents_update (Nat.le_succ j), List.cons_append, ← contents_succ] at hrest
      rwa [contents_succ, hlast]
    · rw [contents_succ, contents_update (Nat.le_refl _), Function.update_self]
      exact List.perm_append_singleton key (contents a (j + 1))

theorem contents_insertInto_sorted (h : (contents a j).Pairwise (· ≤ ·)) :
    (contents (insertInto key j a) (j + 1)).Pairwise (· ≤ ·) := by
  induction j generalizing a with
  | zero => exact List.pairwise_singleton _ _
  | succ j ih =>
    have hsplit := h
    rw [contents_succ] at hsplit
    obtain ⟨hrest, -, hlast⟩ := List.pairwise_append.mp hsplit
    rw [insertInto]
    split
    · rename_i hlt
      have htop : insertInto key j (Function.update a (j + 1) (a j)) (j + 1) = a j := by
        rw [insertInto_of_lt (Nat.lt_succ_self j), Function.update_self]
      rw [contents_succ, htop]
      refine List.pairwise_append.mpr ⟨ih ?_, List.pairwise_singleton _ _, ?_⟩
      · rwa [contents_update (Nat.le_succ j)]
      · intro y hy z hz
        rw [List.mem_singleton.mp hz]
        rcases List.mem_cons.mp (contents_insertInto_perm.mem_iff.mp hy) with rfl | hy
        · exact hlt.le
        · rw [contents_update (Nat.le_succ j)] at hy
          exact hlast y hy (a j) (List.mem_singleton.mpr rfl)
    · rename_i hle
      rw [contents_succ, contents_update (Nat.le_refl _), Function.update_self]
      refine List.pairwise_append.mpr ⟨h, List.pairwise_singleton _ _, ?_⟩
      intro y hy z hz
      rw [List.mem_singleton.mp hz]
      rw [contents_succ] at hy
      rcases List.mem_append.mp hy with hy | hy
      · exact (hlast y hy (a j) (List.mem_singleton.mpr rfl)).trans (not_lt.mp hle)
      · rw [List.mem_singleton.mp hy]
        exact not_lt.mp hle

/-! ### All items -/

/-- The array holds the items taken so far. -/
theorem contents_fill_perm (n : ℕ) : (contents (fill items a n) n).Perm (contents items n) := by
  induction n with
  | zero => exact List.Perm.refl _
  | succ n ih =>
    rw [fill, contents_succ items]
    refine contents_insertInto_perm.trans ?_
    rw [contents_update (Nat.le_refl n)]
    exact (ih.cons (items n)).trans (List.perm_append_singleton _ _).symm

/-- After every item they are sorted. -/
theorem contents_fill_sorted (n : ℕ) : (contents (fill items a n) n).Pairwise (· ≤ ·) := by
  induction n with
  | zero => exact List.Pairwise.nil
  | succ n ih =>
    refine contents_insertInto_sorted ?_
    rwa [contents_update (Nat.le_refl n)]

theorem mergeSort_sorted (l : List α) :
    (l.mergeSort fun x y => decide (x ≤ y)).Pairwise (· ≤ ·) := by
  have hpairwise : (l.mergeSort fun x y => decide (x ≤ y)).Pairwise fun x y => decide (x ≤ y) :=
    List.pairwise_mergeSort
      (fun x y z hxy hyz => by simpa using le_trans (by simpa using hxy) (by simpa using hyz))
      (fun x y => by simpa using le_total x y) l
  simpa using hpairwise

/-- A sorted permutation is what the library sort makes of the items. -/
theorem eq_mergeSort {l l' : List α} (hperm : l.Perm l') (hsorted : l.Pairwise (· ≤ ·)) :
    l = l'.mergeSort fun x y => decide (x ≤ y) := by
  refine List.Perm.eq_of_pairwise (fun x y _ _ hxy hyx => le_antisymm hxy hyx) hsorted
    (mergeSort_sorted l') ?_
  exact hperm.trans (List.mergeSort_perm l' _).symm

theorem contents_fill (n : ℕ) : contents (fill items a n) n =
    (contents items n).mergeSort fun x y => decide (x ≤ y) :=
  eq_mergeSort (contents_fill_perm n) (contents_fill_sorted n)

end InsertionSort
