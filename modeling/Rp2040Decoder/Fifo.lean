/-
Bounded first-in-first-out channels.

A channel carries the proof that it holds at most `cap` items.  `send` and
`receive` are `none` where the real operation would wait.
-/
import Mathlib.Data.List.Basic

/-- A queue of at most `cap` items, oldest first. -/
structure Fifo (α : Type*) (cap : ℕ) where
  items : List α
  length_le : items.length ≤ cap

namespace Fifo

variable {α : Type*} {cap : ℕ}

def empty : Fifo α cap := ⟨[], Nat.zero_le _⟩

@[simp] theorem items_empty : (empty : Fifo α cap).items = [] := rfl

def send (q : Fifo α cap) (a : α) : Option (Fifo α cap) :=
  if h : q.items.length < cap then
    some ⟨q.items ++ [a], by rw [List.length_append]; exact h⟩
  else none

def receive (q : Fifo α cap) : Option (α × Fifo α cap) :=
  match q with
  | ⟨[], _⟩ => none
  | ⟨a :: as, h⟩ => some (a, ⟨as, Nat.le_of_succ_le h⟩)

theorem items_of_send {q q' : Fifo α cap} {a : α} (h : q.send a = some q') :
    q'.items = q.items ++ [a] := by
  rw [send] at h
  split at h
  · rw [← Option.some.inj h]
  · cases h

theorem items_of_receive {q q' : Fifo α cap} {a : α} (h : q.receive = some (a, q')) :
    q.items = a :: q'.items := by
  obtain ⟨_ | ⟨b, as⟩, hq⟩ := q
  · cases h
  · simp only [receive, Option.some.injEq, Prod.mk.injEq] at h
    obtain ⟨rfl, rfl⟩ := h
    rfl

/-- A channel with nothing in it takes an item. -/
theorem exists_send_of_empty {q : Fifo α cap} (h : q.items = []) (hcap : 0 < cap) (a : α) :
    ∃ q', q.send a = some q' := by
  rw [send, dif_pos (by rw [h]; exact hcap)]
  exact ⟨_, rfl⟩

theorem exists_receive {q : Fifo α cap} {a : α} {l : List α} (h : q.items = a :: l) :
    ∃ q', q.receive = some (a, q') := by
  obtain ⟨items, hq⟩ := q
  simp only at h
  subst h
  exact ⟨_, rfl⟩

end Fifo
