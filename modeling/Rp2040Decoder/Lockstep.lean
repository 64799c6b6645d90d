/-
Two procedures that run in lockstep, the second on an image of the state.

`Lockstep I g x y s`: run from `s`, the procedure `x` does not panic and keeps
the invariant `I`, and `y`, run from the image `g s`, returns the same result
and leaves the image of the same state.

The rules follow the constructors of a procedure, so a function that is
polymorphic in its state runs in lockstep with itself as soon as the operations
it calls do.
-/
import Rp2040Decoder.Procedure

namespace Proc

variable {σ τ σ' τ' ε δ α β : Type}

def Lockstep (I : σ → Prop) (g : σ → τ) (x : Proc σ ε α) (y : Proc τ ε α) (s : σ) : Prop :=
  ∃ r s', x.run s = (r, s') ∧ r ≠ .error .panic ∧ I s' ∧ y.run (g s) = (r, g s')

variable {I : σ → Prop} {g : σ → τ} {x : Proc σ ε α} {y : Proc τ ε α} {s : σ}

namespace Lockstep

theorem run_eq (h : Lockstep I g x y s) : y.run (g s) = ((x.run s).1, g (x.run s).2) := by
  obtain ⟨r, s', hx, -, -, hy⟩ := h
  rw [hx, hy]

theorem ne_panic (h : Lockstep I g x y s) : (x.run s).1 ≠ .error .panic := by
  obtain ⟨r, s', hx, hne, -, -⟩ := h
  rwa [hx]

theorem keeps (h : Lockstep I g x y s) : I (x.run s).2 := by
  obtain ⟨r, s', hx, -, hI, -⟩ := h
  rwa [hx]

theorem pure (hs : I s) (a : α) :
    Lockstep I g (Pure.pure a : Proc σ ε α) (Pure.pure a : Proc τ ε α) s :=
  ⟨.ok a, s, rfl, nofun, hs, rfl⟩

theorem fail (hs : I s) (e : ε) :
    Lockstep I g (Proc.fail e : Proc σ ε α) (Proc.fail e : Proc τ ε α) s :=
  ⟨.error (.error e), s, rfl, nofun, hs, rfl⟩

theorem bind {k : α → Proc σ ε β} {l : α → Proc τ ε β} (h : Lockstep I g x y s)
    (hk : ∀ a s', x.run s = (.ok a, s') → I s' → Lockstep I g (k a) (l a) s') :
    Lockstep I g (x >>= k) (y >>= l) s := by
  obtain ⟨r, s', hx, hne, hI, hy⟩ := h
  cases r with
  | ok a =>
    obtain ⟨r, s'', hk, hne', hI', hl⟩ := hk a s' hx hI
    exact ⟨r, s'', (run_bind_of_ok hx).trans hk, hne', hI', (run_bind_of_ok hy).trans hl⟩
  | error e =>
    exact ⟨.error e, s', run_bind_of_error hx, fun h => hne (congrArg _ (Except.error.inj h)),
      hI, run_bind_of_error hy⟩

theorem read {f : σ → Except (Fault ε) α} {f' : τ → Except (Fault ε) α} (hs : I s)
    (hne : f s ≠ .error .panic) (hf : f' (g s) = f s) :
    Lockstep I g (Proc.read f) (Proc.read f') s :=
  ⟨f s, s, rfl, hne, hs, by rw [run_read, hf]⟩

theorem gets {f : σ → α} {f' : τ → α} (hs : I s) (hf : f' (g s) = f s) :
    Lockstep I g (Proc.gets f : Proc σ ε α) (Proc.gets f' : Proc τ ε α) s :=
  ⟨.ok (f s), s, rfl, nofun, hs, congrArg (fun a => (Except.ok a, g s)) hf⟩

theorem modify {f : σ → σ} {f' : τ → τ} (hs : I (f s)) (hf : f' (g s) = g (f s)) :
    Lockstep I g (Proc.modify f : Proc σ ε Unit) (Proc.modify f' : Proc τ ε Unit) s :=
  ⟨.ok (), f s, rfl, nofun, hs, congrArg (fun t => (Except.ok (), t)) hf⟩

end Lockstep

/-- Converting an error does not make it a panic. -/
theorem mapError_ne_panic {f : ε → δ} {r : Except (Fault ε) α} (h : r ≠ .error .panic) :
    r.mapError (Fault.map f) ≠ .error .panic := by
  cases r with
  | ok a => nofun
  | error e =>
    cases e with
    | error e => nofun
    | panic => exact absurd rfl h

namespace Lockstep

theorem ofResult {f : ε → δ} {r : Except (Fault ε) α} (hs : I s) (h : r ≠ .error .panic) :
    Lockstep I g (Proc.ofResult f r : Proc σ δ α) (Proc.ofResult f r : Proc τ δ α) s :=
  ⟨_, s, rfl, mapError_ne_panic h, hs, rfl⟩

/-- A step on a part of the state. -/
theorem zoom {I' : σ' → Prop} {g' : σ' → τ'} {get : σ → σ'} {set : σ' → σ → σ} {get' : τ → τ'}
    {set' : τ' → τ → τ} {f : ε → δ} {x : Proc σ' ε α} {y : Proc τ' ε α}
    (h : Lockstep I' g' x y (get s)) (hget : get' (g s) = g' (get s))
    (hset : ∀ t, set' (g' t) (g s) = g (set t s)) (hI : ∀ t, I' t → I (set t s)) :
    Lockstep I g (Proc.zoom get set f x) (Proc.zoom get' set' f y) s := by
  obtain ⟨r, t, hx, hne, hI', hy⟩ := h
  refine ⟨r.mapError (Fault.map f), set t s, ?_, mapError_ne_panic hne, hI t hI', ?_⟩
  · rw [run_zoom, hx]
  · rw [run_zoom, hget, hy, hset]

end Lockstep

end Proc
