/-
Acknowledged writes and the flash sector, under any pattern of failures.

The cache is changed before the flash is.  A write that fails in between leaves
a cache the sector does not hold; the fast path of the next write compares with
that cache and returns `Ok` without touching the flash.

* `ok_synced_iff_of_next` — one call;
* `ok_synced_iff` — in a run of calls every acknowledged write is in the sector
  exactly when no call takes the fast path while cache and sector differ.
-/
import Rp2040Decoder.Flash
import Rp2040Decoder.Runs

namespace Rp2040.Flash

open Transition

variable {p : Profile}

/-- A call that writes to the store. -/
inductive Call
  | writeByte (address : ℕ) (value : UInt8)
  | writeBytes (address : ℕ) (value : List UInt8) (force : Bool)
  deriving DecidableEq, Repr

namespace Call

def proc : Call → Proc (Flash p) StoreError Unit
  | .writeByte address value => Store.writeByte address value
  | .writeBytes address value force => Store.writeBytes address value force

/-- The call takes the fast path. -/
def Skips (self : Flash p) : Call → Prop
  | .writeByte address value => self.Skips address [value] false
  | .writeBytes address value force => self.Skips address value force

end Call

/-- The store after a call that returns; none if it panics. -/
def next (self : Flash p) (c : Call) : Option (Flash p) :=
  match c.proc.run self with
  | (.error .panic, _) => none
  | (_, self') => some self'

/-- What a call returns. -/
def result (self : Flash p) (c : Call) : Except (Fault StoreError) Unit := (c.proc.run self).1

theorem run_of_next {self self' : Flash p} {c : Call} (h : self.next c = some self') :
    c.proc.run self = (self.result c, self') := by
  simp only [next] at h
  split at h
  · cases h
  · rename_i r s' hr
    rw [result, hr, Option.some.inj h]

/-- One call: the sector holds the cache after `Ok`, unless the fast path was
taken from a state in which it did not. -/
theorem ok_synced_iff_of_next {self self' : Flash p} {c : Call} (h : self.next c = some self') :
    (self.result c = .ok () → self'.Synced) ↔ (c.Skips self → self.Synced) := by
  have hrun := run_of_next h
  have hcases : self.result c = .ok () →
      (c.Skips self ∧ self' = self) ∨ (¬ c.Skips self ∧ self'.Synced) := by
    intro hok
    rw [hok] at hrun
    cases c with
    | writeByte address value => exact writeBytes_ok_cases hrun
    | writeBytes address value force => exact writeBytes_ok_cases hrun
  have hskip : c.Skips self → self.result c = .ok () := by
    intro hs
    cases c with
    | writeByte address value => exact congrArg Prod.fst (writeBytes_run_of_skips hs)
    | writeBytes address value force => exact congrArg Prod.fst (writeBytes_run_of_skips hs)
  constructor
  · intro hok hs
    rcases hcases (hskip hs) with ⟨-, rfl⟩ | ⟨hn, -⟩
    · exact hok (hskip hs)
    · exact absurd hs hn
  · intro hs hok
    rcases hcases hok with ⟨hskips, rfl⟩ | ⟨-, hsynced⟩
    · exact hs hskips
    · exact hsynced

/-- **Acknowledged writes are persistent.**  In a run of write calls from boot,
under any pattern of failures, the sector holds the cached CVs after every call
that returns `Ok` if and only if no call takes the fast path in a state whose
sector does not hold them. -/
theorem ok_synced_iff {flash : RpFlash} {t : List (Event (Flash p) Call)} {self : Flash p}
    (hrun : Run (fun f c f' => f.next c = some f') (Flash.new flash) t self) :
    (∀ e ∈ t, e.pre.result e.label = .ok () → e.post.Synced) ↔
      ∀ e ∈ t, e.label.Skips e.pre → e.pre.Synced :=
  forall₂_congr fun e he => ok_synced_iff_of_next (hrun.step_of_mem e he)

/-- A sector with the factory defaults, and a first erase that fails. -/
def failingErase : RpFlash where
  sector i := defaultValue (i.val + 1)
  faults n := if n = 0 then some .kept else none
  operations := 0

/-- A write that fails in the erase, and another value written after it. -/
theorem ok_synced_after_failure :
    ∃ t self, Run (fun f c f' => f.next c = some f')
        (Flash.new failingErase : Flash .release) t self ∧
      t.map (fun e => (e.pre.result e.label).isOk) = [false, true] ∧
      ∀ e ∈ t, e.pre.result e.label = .ok () → e.post.Synced := by
  have hrun := Run.of_exec next [.writeByte 1 5, .writeByte 1 6]
    (s := (Flash.new failingErase : Flash .release)) rfl
  refine ⟨_, _, hrun, rfl, (ok_synced_iff hrun).mpr fun e he hs => ?_⟩
  simp only [List.mem_cons, List.not_mem_nil, or_false] at he
  rcases he with rfl | rfl
  · rfl
  · obtain ⟨-, range, hrange, hslice⟩ := hs
    have hr : range = (0, 1) := (Except.ok.inj hrange).symm
    subst hr
    exact absurd hslice (by decide)

/-- A write that fails in the erase, and the same write again: the retry is
acknowledged and the sector still holds the old value. -/
theorem retry_acknowledged_unsynced :
    ∃ t self, Run (fun f c f' => f.next c = some f')
        (Flash.new failingErase : Flash .release) t self ∧
      t.map Event.label = [.writeByte 1 5, .writeByte 1 5] ∧
      ∃ e ∈ t, e.pre.result e.label = .ok () ∧ ¬ e.post.Synced ∧
        e.post.cache ⟨0, by decide⟩ = 5 ∧ e.post.flash.stored ⟨0, by decide⟩ = 3 := by
  have hrun := Run.of_exec next [.writeByte 1 5, .writeByte 1 5]
    (s := (Flash.new failingErase : Flash .release)) rfl
  refine ⟨_, _, hrun, rfl, _, List.mem_cons_of_mem _ (List.mem_singleton.mpr rfl), rfl,
    fun hs => ?_, rfl, rfl⟩
  exact absurd (congrFun hs ⟨0, by decide⟩) (by decide)

end Rp2040.Flash
