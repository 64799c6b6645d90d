/-
Procedures that change a state, and keep the changes made before an error.

A `Proc σ ε α` is a Rust method with `&mut self` and a `Result`: the state it
leaves behind is there whether it returns a value, an error or panics.  `?` is
the monadic bind.

The `run_*` lemmas evaluate a procedure; `ok_of_bind` and `error_of_bind` read
an evaluation back.  `Keeps` and `FailsClean` are what a procedure leaves alone,
always and when it returns an error; `Preserves` is an invariant, and `Ensures` a
postcondition together with what a stopped procedure leaves behind.
-/
import Mathlib.Data.Nat.Notation

/-- Why a procedure has no value: it returned an error or it panicked. -/
inductive Fault (ε : Type)
  | error (e : ε)
  | panic
  deriving DecidableEq, Repr

/-- A procedure on the state `σ` that may return an error `ε`. -/
abbrev Proc (σ ε : Type) := ExceptT (Fault ε) (StateM σ)

variable {σ τ ε δ α β : Type}

namespace Fault

/-- `From` of the error type. -/
def map (f : ε → δ) : Fault ε → Fault δ
  | .error e => .error (f e)
  | .panic => .panic

theorem ok_ne_panic (a : α) : (.ok a : Except (Fault ε) α) ≠ .error .panic := nofun

theorem error_ne_panic (e : ε) : (.error (.error e) : Except (Fault ε) α) ≠ .error .panic := nofun

end Fault

namespace Proc

/-- The result of the procedure and the state it leaves behind. -/
def run (x : Proc σ ε α) (s : σ) : Except (Fault ε) α × σ :=
  StateT.run (ExceptT.run x) s

/-- Return an error. -/
def fail (e : ε) : Proc σ ε α := throw (.error e)

/-- A method with `&self`. -/
def read (f : σ → Except (Fault ε) α) : Proc σ ε α := ExceptT.mk fun s => (f s, s)

/-- A part of the state. -/
def gets (f : σ → α) : Proc σ ε α := ExceptT.mk fun s => (.ok (f s), s)

def modify (f : σ → σ) : Proc σ ε Unit := ExceptT.mk fun s => (.ok (), f s)

/-- A pure computation whose error is converted by `?`. -/
def ofResult (f : ε → δ) (x : Except (Fault ε) α) : Proc σ δ α :=
  ExceptT.mk fun s => (x.mapError (Fault.map f), s)

/-- A computation that panics when it has no value. -/
def checked : Option α → Except (Fault ε) α
  | some a => .ok a
  | none => .error .panic

/-- A procedure on a part of the state, its error converted by `?`. -/
def zoom (get : σ → τ) (set : τ → σ → σ) (f : ε → δ) (x : Proc τ ε α) : Proc σ δ α :=
  ExceptT.mk fun s => ((x.run (get s)).1.mapError (Fault.map f), set (x.run (get s)).2 s)

variable {s s' : σ}

@[simp] theorem run_pure (a : α) : (pure a : Proc σ ε α).run s = (.ok a, s) := rfl

@[simp] theorem run_read (f : σ → Except (Fault ε) α) : (read f).run s = (f s, s) := rfl

@[simp] theorem run_ofResult (f : ε → δ) (x : Except (Fault ε) α) :
    (ofResult f x : Proc σ δ α).run s = (x.mapError (Fault.map f), s) := rfl

@[simp] theorem run_zoom (get : σ → τ) (set : τ → σ → σ) (f : ε → δ) (x : Proc τ ε α) :
    (zoom get set f x).run s =
      ((x.run (get s)).1.mapError (Fault.map f), set (x.run (get s)).2 s) := rfl

theorem run_bind (x : Proc σ ε α) (f : α → Proc σ ε β) :
    (x >>= f).run s =
      match x.run s with
      | (.ok a, s') => (f a).run s'
      | (.error e, s') => (.error e, s') := by
  show (match StateT.run (ExceptT.run x) s with
    | (r, s') => StateT.run (ExceptT.bindCont f r) s') = _
  rw [run]
  split
  rename_i r s' hr
  rw [hr]
  cases r <;> rfl

theorem run_bind_of_ok {x : Proc σ ε α} {f : α → Proc σ ε β} {a : α}
    (h : x.run s = (.ok a, s')) : (x >>= f).run s = (f a).run s' := by
  rw [run_bind, h]

theorem run_bind_of_error {x : Proc σ ε α} {f : α → Proc σ ε β} {e : Fault ε}
    (h : x.run s = (.error e, s')) : (x >>= f).run s = (.error e, s') := by
  rw [run_bind, h]

@[simp] theorem run_gets_bind (f : σ → α) (k : α → Proc σ ε β) :
    (gets f >>= k).run s = (k (f s)).run s := rfl

@[simp] theorem run_modify_bind (f : σ → σ) (k : Unit → Proc σ ε β) :
    (modify f >>= k).run s = (k ()).run (f s) := rfl

theorem run_read_bind {f : σ → Except (Fault ε) α} {k : α → Proc σ ε β} {a : α}
    (h : f s = .ok a) : (read f >>= k).run s = (k a).run s := by
  rw [run_bind, run_read, h]

theorem run_ofResult_bind {f : ε → δ} {x : Except (Fault ε) α} {k : α → Proc σ δ β} {a : α}
    (h : x = .ok a) : (ofResult f x >>= k).run s = (k a).run s := by
  rw [h]
  rfl

theorem ok_of_ofResult {f : ε → δ} {x : Except (Fault ε) α} {a : α}
    (h : (ofResult f x : Proc σ δ α).run s = (.ok a, s')) : x = .ok a ∧ s' = s := by
  rw [run_ofResult, Prod.mk.injEq] at h
  cases x with
  | error e => cases h.1
  | ok b => exact ⟨congrArg Except.ok (Except.ok.inj h.1), h.2.symm⟩

/-- A bind that returns a value ran both its halves. -/
theorem ok_of_bind {x : Proc σ ε α} {f : α → Proc σ ε β} {b : β}
    (h : (x >>= f).run s = (.ok b, s')) :
    ∃ a s₁, x.run s = (.ok a, s₁) ∧ (f a).run s₁ = (.ok b, s') := by
  rw [run_bind] at h
  split at h
  · rename_i a s₁ hx
    exact ⟨a, s₁, hx, h⟩
  · cases h

/-- A bind that returns an error got it from one of its halves. -/
theorem error_of_bind {x : Proc σ ε α} {f : α → Proc σ ε β} {e : Fault ε}
    (h : (x >>= f).run s = (.error e, s')) :
    x.run s = (.error e, s') ∨
      ∃ a s₁, x.run s = (.ok a, s₁) ∧ (f a).run s₁ = (.error e, s') := by
  rw [run_bind] at h
  split at h
  · rename_i a s₁ hx
    exact Or.inr ⟨a, s₁, hx, h⟩
  · rename_i e' s₁ hx
    exact Or.inl (hx.trans (Prod.ext (congrArg Except.error (Except.error.inj (Prod.mk.inj h).1))
      (Prod.mk.inj h).2))

theorem ok_of_zoom {get : σ → τ} {set : τ → σ → σ} {f : ε → δ} {x : Proc τ ε α} {a : α}
    (h : (zoom get set f x).run s = (.ok a, s')) :
    ∃ t, x.run (get s) = (.ok a, t) ∧ s' = set t s := by
  rw [run_zoom, Prod.mk.injEq] at h
  obtain ⟨hr, hs⟩ := h
  cases hx : x.run (get s) with
  | mk r t =>
    rw [hx] at hr hs
    cases r with
    | error e => cases hr
    | ok a' =>
      obtain rfl : a' = a := Except.ok.inj hr
      exact ⟨t, rfl, hs.symm⟩

/-! ### What a procedure leaves alone -/

/-- The procedure does not change what `f` observes. -/
def Keeps (f : σ → τ) (x : Proc σ ε α) : Prop := ∀ s, f (x.run s).2 = f s

namespace Keeps

variable {f : σ → τ}

theorem pure (a : α) : Keeps f (Pure.pure a : Proc σ ε α) := fun _ => rfl

theorem gets (g : σ → α) : Keeps f (Proc.gets g : Proc σ ε α) := fun _ => rfl

theorem modify {g : σ → σ} (h : ∀ s, f (g s) = f s) : Keeps f (Proc.modify g : Proc σ ε Unit) := h

theorem bind {x : Proc σ ε α} {k : α → Proc σ ε β} (hx : Keeps f x) (hk : ∀ a, Keeps f (k a)) :
    Keeps f (x >>= k) := by
  intro s
  have h := hx s
  rw [run_bind]
  cases hrun : x.run s with
  | mk r s' =>
    rw [hrun] at h
    cases r with
    | ok a => exact (hk a s').trans h
    | error e => exact h

end Keeps

/-! ### Invariants -/

/-- The procedure keeps the invariant `I`, whether it returns or not. -/
def Preserves (I : σ → Prop) (x : Proc σ ε α) : Prop := ∀ s, I s → I (x.run s).2

namespace Preserves

variable {I : σ → Prop}

theorem pure (a : α) : Preserves I (Pure.pure a : Proc σ ε α) := fun _ hs => hs

theorem gets (g : σ → α) : Preserves I (Proc.gets g : Proc σ ε α) := fun _ hs => hs

theorem modify {g : σ → σ} (h : ∀ s, I s → I (g s)) :
    Preserves I (Proc.modify g : Proc σ ε Unit) := h

theorem bind {x : Proc σ ε α} {k : α → Proc σ ε β} (hx : Preserves I x)
    (hk : ∀ a, Preserves I (k a)) : Preserves I (x >>= k) := by
  intro s hs
  have h := hx s hs
  rw [run_bind]
  cases hrun : x.run s with
  | mk r s' =>
    rw [hrun] at h
    cases r with
    | ok a => exact hk a s' h
    | error e => exact h

end Preserves

/-! ### Crash conditions -/

/-- A value is returned in a state of `Q`, or a state of `R` is left behind. -/
def Ends (Q R : σ → Prop) (r : Except (Fault ε) α × σ) : Prop :=
  (∀ a s, r = (.ok a, s) → Q s) ∧ ∀ e s, r = (.error e, s) → R s

/-- How the procedure ends from the states of `I`. -/
def Ensures (I Q R : σ → Prop) (x : Proc σ ε α) : Prop := ∀ s, I s → Ends Q R (x.run s)

namespace Ensures

variable {I J Q R : σ → Prop}

theorem of_ok {x : Proc σ ε α} (h : ∀ s, I s → ∃ a s', x.run s = (.ok a, s') ∧ Q s') :
    Ensures I Q R x := by
  intro s hs
  obtain ⟨a, s', hrun, h'⟩ := h s hs
  rw [hrun]
  exact ⟨fun b s₁ heq => (Prod.mk.inj heq).2 ▸ h', fun e s₁ heq => by cases heq⟩

theorem pure (a : α) : Ensures I I R (Pure.pure a : Proc σ ε α) :=
  of_ok fun s hs => ⟨a, s, rfl, hs⟩

theorem gets (g : σ → α) : Ensures I I R (Proc.gets g : Proc σ ε α) :=
  of_ok fun s hs => ⟨g s, s, rfl, hs⟩

theorem modify {g : σ → σ} (h : ∀ s, I s → Q (g s)) :
    Ensures I Q R (Proc.modify g : Proc σ ε Unit) :=
  of_ok fun s hs => ⟨(), g s, rfl, h s hs⟩

theorem bind {x : Proc σ ε α} {k : α → Proc σ ε β} (hx : Ensures I J R x)
    (hk : ∀ a, Ensures J Q R (k a)) : Ensures I Q R (x >>= k) := by
  intro s hs
  obtain ⟨hok, herror⟩ := hx s hs
  rw [run_bind]
  cases hrun : x.run s with
  | mk r s' =>
    rw [hrun] at hok herror
    cases r with
    | ok a => exact hk a s' (hok a s' rfl)
    | error e =>
      exact ⟨fun b s₁ heq => (by cases heq),
        fun e' s₁ heq => (Prod.mk.inj heq).2 ▸ herror e s' rfl⟩

end Ensures

/-! ### Errors that leave no trace -/

/-- If the procedure returns an error from `s`, `f` observes no change. -/
def FailsClean (f : σ → τ) (x : Proc σ ε α) (s : σ) : Prop :=
  ∀ e s', x.run s = (.error (.error e), s') → f s' = f s

namespace FailsClean

variable {f : σ → τ}

theorem pure (a : α) : FailsClean f (Pure.pure a : Proc σ ε α) s := by
  intro e s' h
  cases h

theorem fail (e : ε) : FailsClean f (Proc.fail e : Proc σ ε α) s := by
  intro e' s' h
  rw [← (Prod.mk.inj h).2]

/-- A step that leaves the state alone. -/
theorem bind {x : Proc σ ε α} {k : α → Proc σ ε β} (hx : (x.run s).2 = s)
    (hk : ∀ a, x.run s = (.ok a, s) → FailsClean f (k a) s) : FailsClean f (x >>= k) s := by
  intro e s' h
  rcases error_of_bind h with herr | ⟨a, s₁, hok, herr⟩
  · rw [herr] at hx
    exact congrArg f hx
  · rw [hok] at hx
    obtain rfl : s₁ = s := hx
    exact hk a hok e s' herr

/-- Nothing fails behind the last step. -/
theorem bind_pure {x : Proc σ ε α} (hx : FailsClean f x s) (b : β) :
    FailsClean f (x >>= fun _ => Pure.pure b) s := by
  intro e s' h
  rcases error_of_bind h with herr | ⟨a, s₁, -, hpure⟩
  · exact hx e s' herr
  · cases hpure

end FailsClean

end Proc
