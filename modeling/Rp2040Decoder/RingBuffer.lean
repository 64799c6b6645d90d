/-
Ring buffers without a counter.

The items between the read and the write index are pending; when the two
indices agree nothing is, so a buffer of `n` items has room for `n - 1`.

* `pending_put` — the item at the write index is not pending;
* `pending_push` — a push to a buffer with room appends;
* `pending_pop` — the item at the read index is the first;
* `pending_push_of_full` — a push to a full buffer leaves nothing.

A buffer that is only written to holds its last `n` items:

* `window` — the items from an index on, all around;
* `window_update` — writing at the index moves the window on by one.
-/
import Mathlib.Data.List.Basic
import Mathlib.Data.List.FinRange
import Mathlib.Data.Nat.ModEq

/-- A ring buffer of `n` items. -/
structure RingBuffer (n : ℕ) (α : Type*) where
  items : Fin n → α
  wrIdx : Fin n
  rdIdx : Fin n

namespace RingBuffer

variable {n : ℕ} {α : Type*} {self : RingBuffer n α} {x : α}

/-- The index `k` places on. -/
def advance (idx : Fin n) (k : ℕ) : Fin n := ⟨(idx + k) % n, Nat.mod_lt _ idx.pos⟩

/-- Increment the index, wrapping around to zero. -/
def increment (idx : Fin n) : Fin n := advance idx 1

/-- Put an item at the write index. -/
def put (x : α) (self : RingBuffer n α) : RingBuffer n α :=
  { self with items := Function.update self.items self.wrIdx x }

/-- Put an item at the write index and advance it. -/
def push (x : α) (self : RingBuffer n α) : RingBuffer n α :=
  { self.put x with wrIdx := increment self.wrIdx }

/-- Advance the read index. -/
def pop (self : RingBuffer n α) : RingBuffer n α := { self with rdIdx := increment self.rdIdx }

/-- The number of pending items. -/
def count (self : RingBuffer n α) : ℕ := (self.wrIdx + (n - self.rdIdx)) % n

/-- The items from the read index to the write index. -/
def pending (self : RingBuffer n α) : List α :=
  (List.range self.count).map fun k => self.items (advance self.rdIdx k)

/-- The buffer has no room for another item. -/
def Full (self : RingBuffer n α) : Prop := increment self.wrIdx = self.rdIdx

instance (self : RingBuffer n α) : Decidable self.Full := by
  unfold Full
  infer_instance

theorem length_pending : self.pending.length = self.count := by
  rw [pending, List.length_map, List.length_range]

theorem count_lt : self.count < n := Nat.mod_lt _ self.wrIdx.pos

/-! ### Indices -/

theorem advance_zero (idx : Fin n) : advance idx 0 = idx := Fin.ext (Nat.mod_eq_of_lt idx.isLt)

theorem advance_increment (idx : Fin n) (k : ℕ) :
    advance (increment idx) k = advance idx (k + 1) := by
  refine Fin.ext ?_
  show ((idx + 1) % n + k) % n = (idx + (k + 1)) % n
  rw [Nat.mod_add_mod, Nat.add_assoc, Nat.add_comm 1 k]

theorem increment_advance (idx : Fin n) (k : ℕ) :
    increment (advance idx k) = advance idx (k + 1) := by
  refine Fin.ext ?_
  show ((idx + k) % n + 1) % n = (idx + (k + 1)) % n
  rw [Nat.mod_add_mod, Nat.add_assoc]

theorem advance_self (idx : Fin n) : advance idx n = idx := by
  refine Fin.ext ?_
  show (idx + n) % n = idx
  rw [Nat.add_mod_right, Nat.mod_eq_of_lt idx.isLt]

/-- Fewer than `n` places on, an index does not come back. -/
theorem advance_inj {idx : Fin n} {k m : ℕ} (hk : k < n) (hm : m < n)
    (h : advance idx k = advance idx m) : k = m := by
  have hmod : idx + k ≡ idx + m [MOD n] := congrArg Fin.val h
  exact (Nat.ModEq.add_left_cancel' _ hmod).eq_of_lt_of_lt hk hm

/-- The write index is where the pending items end. -/
theorem advance_count : advance self.rdIdx self.count = self.wrIdx := by
  refine Fin.ext ?_
  have hrd := self.rdIdx.isLt
  show (self.rdIdx + (self.wrIdx + (n - self.rdIdx)) % n) % n = self.wrIdx
  rw [Nat.add_mod_mod, show self.rdIdx.val + (self.wrIdx + (n - self.rdIdx)) = self.wrIdx + n by
    omega, Nat.add_mod_right, Nat.mod_eq_of_lt self.wrIdx.isLt]

theorem count_eq {k : ℕ} (hk : k < n) (h : advance self.rdIdx k = self.wrIdx) :
    self.count = k :=
  advance_inj count_lt hk (advance_count.trans h.symm)

/-- A full buffer holds one item fewer than it has places. -/
theorem full_iff : self.Full ↔ self.count + 1 = n := by
  rw [Full, ← advance_count, increment_advance]
  constructor
  · intro h
    by_contra hne
    have hlt := self.count_lt
    have hzero := advance_inj (m := 0) (by omega) (by omega) (h.trans (advance_zero _).symm)
    omega
  · intro h
    rw [h, advance_self]

theorem count_eq_zero_iff : self.count = 0 ↔ self.wrIdx = self.rdIdx := by
  constructor
  · intro h
    rw [← advance_count, h, advance_zero]
  · exact fun h => count_eq self.wrIdx.pos (by rw [advance_zero, h])

/-! ### Items -/

/-- The item at the write index is not pending. -/
theorem pending_put : (self.put x).pending = self.pending := by
  refine List.map_congr_left fun k hk => ?_
  have hlt : k < self.count := List.mem_range.mp hk
  refine Function.update_of_ne (fun h => ?_) x self.items
  have hk' := advance_inj (Nat.lt_trans hlt count_lt) count_lt (h.trans advance_count.symm)
  omega

theorem items_put_of_ne (h : self.wrIdx ≠ self.rdIdx) :
    (self.put x).items self.rdIdx = self.items self.rdIdx := by
  rw [put]
  exact Function.update_of_ne h.symm x self.items

theorem items_push_wrIdx : (self.push x).items self.wrIdx = x := by
  rw [push, put]
  exact Function.update_self self.wrIdx x self.items

theorem count_push (h : ¬ self.Full) : (self.push x).count = self.count + 1 := by
  have hlt := self.count_lt
  rw [full_iff] at h
  refine count_eq (by omega) ?_
  show advance self.rdIdx (self.count + 1) = increment self.wrIdx
  rw [← increment_advance, advance_count]

/-- A push to a buffer with room appends. -/
theorem pending_push (h : ¬ self.Full) : (self.push x).pending = self.pending ++ [x] := by
  have hlast : (self.push x).items (advance self.rdIdx self.count) = x := by
    rw [advance_count, items_push_wrIdx]
  have hput : (List.range self.count).map (fun k => (self.push x).items (advance self.rdIdx k)) =
      self.pending := pending_put
  rw [pending, count_push h, List.range_succ, List.map_append, List.map_singleton]
  exact congrArg₂ (· ++ [·]) hput hlast

/-- A push to a full buffer leaves nothing. -/
theorem pending_push_of_full (h : self.Full) : (self.push x).pending = [] := by
  have hcount : (self.push x).count = 0 := count_eq_zero_iff.mpr h
  rw [pending, hcount]
  rfl

/-- The item at the read index is the first. -/
theorem pending_pop (h : self.wrIdx ≠ self.rdIdx) :
    self.pending = self.items self.rdIdx :: self.pop.pending := by
  obtain ⟨m, hm⟩ := Nat.exists_eq_succ_of_ne_zero (mt count_eq_zero_iff.mp h)
  have hcount : self.pop.count = m := by
    refine count_eq (Nat.lt_of_succ_lt (hm ▸ self.count_lt)) ?_
    show advance (increment self.rdIdx) m = self.wrIdx
    rw [advance_increment, ← advance_count, hm]
  rw [pending, hm, List.range_succ_eq_map, List.map_cons, advance_zero, pending, hcount,
    List.map_map]
  refine congrArg _ (List.map_congr_left fun k _ => ?_)
  exact congrArg self.items (advance_increment self.rdIdx k).symm

/-! ### The window of the last items -/

/-- The items from the index on, all around. -/
def window (items : Fin n → α) (idx : Fin n) : List α :=
  (List.range n).map fun k => items (advance idx k)

/-- The oldest item makes way for the one written. -/
theorem window_update (items : Fin n → α) (idx : Fin n) (x : α) :
    window (Function.update items idx x) (increment idx) = (window items idx).tail ++ [x] := by
  obtain ⟨m, rfl⟩ := Nat.exists_eq_succ_of_ne_zero (Nat.ne_of_gt idx.pos)
  have hold : ∀ k ∈ List.range m,
      Function.update items idx x (advance (increment idx) k) = items (advance idx (k + 1)) := by
    intro k hk
    have hlt : k < m := List.mem_range.mp hk
    rw [advance_increment, Function.update_of_ne]
    intro h
    have hzero := advance_inj (m := 0) (by omega) (by omega) (h.trans (advance_zero idx).symm)
    omega
  have hnew : Function.update items idx x (advance (increment idx) m) = x := by
    rw [advance_increment, advance_self, Function.update_self]
  rw [window, List.range_succ, List.map_append, List.map_singleton, hnew,
    List.map_congr_left hold, window, List.range_succ_eq_map, List.map_cons, List.tail_cons,
    List.map_map]
  rfl

/-- The window holds all the items. -/
theorem window_perm (items : Fin n → α) (idx : Fin n) :
    (window items idx).Perm (List.ofFn items) := by
  have hindices : ((List.range n).map (advance idx)).Perm (List.finRange n) := by
    refine (List.perm_ext_iff_of_nodup ?_ (List.nodup_finRange n)).mpr fun j => ?_
    · refine List.Nodup.map_on (fun k hk m hm h => ?_) List.nodup_range
      exact advance_inj (List.mem_range.mp hk) (List.mem_range.mp hm) h
    · refine iff_of_true (List.mem_map.mpr ?_) (List.mem_finRange j)
      let buffer : RingBuffer n α := ⟨items, j, idx⟩
      exact ⟨buffer.count, List.mem_range.mpr buffer.count_lt, buffer.advance_count⟩
  have hmap := hindices.map items
  rwa [List.map_map, ← List.ofFn_eq_map] at hmap

end RingBuffer
