/-
Folds over lists, seen through one changed item or one observed place.

* `foldl_set_ne` — a fold injective in the accumulator and in the item
  notices every change of a single item;
* `foldl_write_eq` — after a list of partial writes a place holds the value of
  the last write that touched it;
* `foldl_place` — and their value if all that touch it write the same.
-/
import Mathlib.Data.List.Basic
import Mathlib.Data.List.Induction

namespace Folds

variable {α β ι : Type*}

/-! ### Error detection -/

section Detection

variable {f : β → α → β}

theorem foldl_injective (hf : ∀ a, Function.Injective fun b => f b a) (l : List α) :
    Function.Injective fun b => l.foldl f b := by
  induction l with
  | nil => exact fun _ _ h => h
  | cons a l ih => exact fun b b' h => hf a (ih h)

/-- A single changed item changes the fold. -/
theorem foldl_set_ne (hacc : ∀ a, Function.Injective fun b => f b a)
    (hitem : ∀ b, Function.Injective (f b)) {l : List α} {i : ℕ} (hi : i < l.length) {x : α}
    (hx : x ≠ l[i]) (b : β) : (l.set i x).foldl f b ≠ l.foldl f b := by
  induction l generalizing i b with
  | nil => simp at hi
  | cons a l ih =>
    cases i with
    | zero => exact fun h => hx (hitem b (foldl_injective hacc l h))
    | succ i =>
      rw [List.set_cons_succ, List.foldl_cons, List.foldl_cons]
      exact ih (Nat.lt_of_succ_lt_succ hi) hx (f b a)

end Detection

/-! ### Partial writes -/

/-- Write `w` over `s`: the places `w` leaves out keep their values. -/
def write (s : ι → α) (w : ι → Option α) : ι → α := fun i => (w i).getD (s i)

/-- A place holds what the last write to it wrote. -/
theorem foldl_write_eq (ws : List (ι → Option α)) (s : ι → α) (i : ι) :
    ws.foldl write s i = (ws.filterMap fun w => w i).getLast?.getD (s i) := by
  induction ws generalizing s with
  | nil => rfl
  | cons w ws ih =>
    rw [List.foldl_cons, ih]
    cases hw : w i with
    | none => simp only [List.filterMap_cons, hw, write, Option.getD_none]
    | some a =>
      simp only [List.filterMap_cons, hw, write, Option.getD_some, List.getLast?_cons]

/-- A place that some step writes has what all the steps that write it write. -/
theorem foldl_place {σ : Type*} (get : σ → β) {f : σ → α → σ} {v : β} (writes : α → Prop)
    (hwrites : ∀ s a, writes a → get (f s a) = v)
    (hkeeps : ∀ s a, ¬ writes a → get (f s a) = get s) {l : List α} (h : ∃ a ∈ l, writes a)
    (s : σ) : get (l.foldl f s) = v := by
  induction l using List.reverseRecOn with
  | nil =>
    obtain ⟨a, ha, -⟩ := h
    cases ha
  | append_singleton l a ih =>
    rw [List.foldl_append, List.foldl_cons, List.foldl_nil]
    by_cases ha : writes a
    · exact hwrites _ a ha
    · rw [hkeeps _ a ha]
      obtain ⟨b, hb, hw⟩ := h
      rcases List.mem_append.mp hb with hb | hb
      · exact ih ⟨b, hb, hw⟩
      · rw [List.mem_singleton.mp hb] at hw
        exact absurd hw ha

end Folds
