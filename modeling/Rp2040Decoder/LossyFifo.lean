/-
Channels that drop their oldest item when they are full.

`Carries cap published received items` says what such a channel of `cap` items
has done with the items published so far: which were received, and which are
left in it.

* `Carries.sublist` — in order, and none twice;
* `Carries.newest` — the last `cap` items are never lost;
* `Carries.publish`, `Carries.receive` — both operations keep it.
-/
import Mathlib.Data.List.Infix
import Rp2040Decoder.Fifo

namespace Fifo

variable {α : Type*} {cap : ℕ}

/-- A full channel drops its oldest item. -/
def publish (q : Fifo α cap) (a : α) : Fifo α cap :=
  ⟨(q.items ++ [a]).drop (q.items.length + 1 - cap), by
    rw [List.length_drop, List.length_append, List.length_singleton]
    omega⟩

theorem items_publish (q : Fifo α cap) (a : α) :
    (q.publish a).items = (q.items ++ [a]).drop (q.items.length + 1 - cap) := rfl

/-- With room nothing is dropped. -/
theorem items_publish_of_lt {q : Fifo α cap} (h : q.items.length < cap) (a : α) :
    (q.publish a).items = q.items ++ [a] := by
  rw [items_publish, Nat.sub_eq_zero_of_le h, List.drop_zero]

/-- What a channel has done with the items published. -/
structure Carries (cap : ℕ) (published received items : List α) : Prop where
  sublist : (received ++ items).Sublist published
  newest : published.drop (published.length - cap) <:+ received ++ items
  suffix : items <:+ published

namespace Carries

variable {published received : List α} {q : Fifo α cap}

theorem empty : Carries cap ([] : List α) [] [] :=
  ⟨List.Sublist.refl _, by rw [List.drop_nil]; exact List.suffix_refl _, List.suffix_refl _⟩

theorem publish (h : Carries cap published received q.items) (a : α) :
    Carries cap (published ++ [a]) received (q.publish a).items := by
  have hdrop : (q.publish a).items <:+ q.items ++ [a] := List.drop_suffix _ _
  have hsuffix : (q.publish a).items <:+ published ++ [a] :=
    hdrop.trans (List.suffix_append_self_iff.mpr h.suffix)
  refine ⟨?_, ?_, hsuffix⟩
  · have hsub := hdrop.sublist.append_left received
    rw [← List.append_assoc] at hsub
    exact hsub.trans (h.sublist.append_right [a])
  rw [List.length_append, List.length_singleton]
  by_cases hroom : q.items.length < cap
  · -- the item is appended, and what was not lost before is not lost now
    rw [items_publish_of_lt hroom, ← List.append_assoc]
    refine List.IsSuffix.trans ?_ (List.suffix_append_self_iff.mpr h.newest)
    rw [← List.drop_append_of_le_length (Nat.sub_le _ _)]
    exact List.drop_suffix_drop_left _ (Nat.sub_le_sub_right (Nat.le_succ _) _)
  · -- the channel holds the last items published
    have hlen := h.suffix.length_le
    refine List.IsSuffix.trans (List.suffix_of_suffix_length_le (List.drop_suffix _ _) hsuffix ?_)
      (List.suffix_append _ _)
    rw [items_publish, List.length_drop, List.length_drop, List.length_append, List.length_append,
      List.length_singleton]
    omega

theorem receive {a : α} {items : List α} (h : Carries cap published received (a :: items)) :
    Carries cap published (received ++ [a]) items := by
  have heq : received ++ [a] ++ items = received ++ a :: items := by
    rw [List.append_assoc, List.singleton_append]
  exact ⟨heq ▸ h.sublist, heq ▸ h.newest, (List.suffix_cons a items).trans h.suffix⟩

end Carries

end Fifo
