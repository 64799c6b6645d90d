/-
Runs of a labelled transition relation.

`Run step s₀ t s` says that the events of the trace `t`, oldest first, lead
from `s₀` to `s`.  A trace keeps the states around every step, so a property
of a history is a property of a list:

* `Run.invariant_on` — an invariant kept by the steps that meet a condition
  holds in every state of a run whose steps all meet it;
* `Run.split` — a run can be cut at any event;
* `Run.view` — a run of a product is a run of each of its parts;
* `exists_run_of_progress` — if every state short of a goal can take a step, and
  every step makes a measure smaller, every state has a run to the goal;
* `Run.of_exec` — executing an executable step function yields a run;
* `Answered` — every item of one kind is followed by an item of another.
-/
import Mathlib.Data.List.Induction

namespace Transition

variable {σ ι : Type*}

/-- One step of a run: the state it was taken in, its label and the state it
led to. -/
structure Event (σ ι : Type*) where
  pre : σ
  label : ι
  post : σ

/-- `Run step s₀ t s`: the events of `t`, oldest first, lead from `s₀` to `s`. -/
inductive Run (step : σ → ι → σ → Prop) (s₀ : σ) : List (Event σ ι) → σ → Prop
  | nil : Run step s₀ [] s₀
  | snoc {t : List (Event σ ι)} {s s' : σ} {i : ι} :
      Run step s₀ t s → step s i s' → Run step s₀ (t ++ [⟨s, i, s'⟩]) s'

variable {step : σ → ι → σ → Prop} {s₀ s s' : σ} {t t₁ t₂ : List (Event σ ι)}

theorem Run.single {i : ι} (h : step s i s') : Run step s [⟨s, i, s'⟩] s' :=
  Run.snoc Run.nil h

theorem Run.append (h₁ : Run step s₀ t₁ s) (h₂ : Run step s t₂ s') :
    Run step s₀ (t₁ ++ t₂) s' := by
  induction h₂ with
  | nil => rwa [List.append_nil]
  | snoc _ hstep ih =>
    rw [← List.append_assoc]
    exact ih.snoc hstep

/-- Every event of a run is a step of the relation. -/
theorem Run.step_of_mem (h : Run step s₀ t s) :
    ∀ e ∈ t, step e.pre e.label e.post := by
  induction h with
  | nil => intro e he; simp at he
  | snoc _ hstep ih =>
    intro e he
    rcases List.mem_append.mp he with he | he
    · exact ih e he
    · rw [List.mem_singleton.mp he]
      exact hstep

/-- A run is cut at any of its events. -/
theorem Run.split {e : Event σ ι} (h : Run step s₀ (t₁ ++ e :: t₂) s) :
    Run step s₀ t₁ e.pre ∧ step e.pre e.label e.post ∧ Run step e.post t₂ s := by
  generalize hl : t₁ ++ e :: t₂ = l at h
  induction h generalizing t₂ with
  | nil => simp at hl
  | @snoc t s s' i h hstep ih =>
    rcases List.eq_nil_or_concat t₂ with rfl | ⟨t₃, e', rfl⟩
    · obtain ⟨rfl, he⟩ := List.append_inj' hl rfl
      rw [List.cons.injEq] at he
      obtain ⟨rfl, -⟩ := he
      exact ⟨h, hstep, Run.nil⟩
    · rw [List.concat_eq_append, ← List.cons_append, ← List.append_assoc] at hl
      obtain ⟨rfl, he⟩ := List.append_inj' hl rfl
      rw [List.cons.injEq] at he
      obtain ⟨rfl, -⟩ := he
      obtain ⟨h₁, h₂, h₃⟩ := ih rfl
      exact ⟨h₁, h₂, by rw [List.concat_eq_append]; exact h₃.snoc hstep⟩

/-- A run without events stays where it is. -/
theorem Run.eq_of_nil (h : Run step s₀ [] s) : s = s₀ := by
  generalize hl : ([] : List (Event σ ι)) = l at h
  cases h with
  | nil => rfl
  | snoc _ _ => simp at hl

/-- A run is cut between its events. -/
theorem Run.of_append (h : Run step s₀ (t₁ ++ t₂) s) :
    ∃ s₁, Run step s₀ t₁ s₁ ∧ Run step s₁ t₂ s := by
  cases t₂ with
  | nil => exact ⟨s, by rwa [List.append_nil] at h, Run.nil⟩
  | cons e t₂ =>
    obtain ⟨hpre, hstep, hrest⟩ := h.split
    exact ⟨e.pre, hpre, (Run.single hstep).append hrest⟩

/-- The first event of a run. -/
theorem Run.of_cons {e : Event σ ι} (h : Run step s₀ (e :: t) s) :
    e.pre = s₀ ∧ step e.pre e.label e.post ∧ Run step e.post t s := by
  rw [← List.nil_append (e :: t)] at h
  obtain ⟨hpre, hstep, hrest⟩ := h.split
  exact ⟨hpre.eq_of_nil, hstep, hrest⟩

/-- The last event of a run. -/
theorem Run.of_concat {e : Event σ ι} (h : Run step s₀ (t ++ [e]) s) :
    Run step s₀ t e.pre ∧ step e.pre e.label e.post ∧ e.post = s := by
  obtain ⟨hpre, hstep, hrest⟩ := h.split
  exact ⟨hpre, hstep, hrest.eq_of_nil.symm⟩

/-- An invariant kept by every step that meets `C` holds in all states of a
run whose steps all meet `C`. -/
theorem Run.invariant_on {I : σ → Prop} {C : Event σ ι → Prop}
    (hstep : ∀ e : Event σ ι, C e → step e.pre e.label e.post → I e.pre → I e.post)
    (h : Run step s₀ t s) (h₀ : I s₀) (hC : ∀ e ∈ t, C e) :
    I s ∧ ∀ e ∈ t, I e.pre ∧ I e.post := by
  induction h with
  | nil => exact ⟨h₀, fun e he => by simp at he⟩
  | @snoc t s s' i _ hst ih =>
    obtain ⟨hs, hmem⟩ := ih fun e he => hC e (List.mem_append_left _ he)
    have hs' : I s' := hstep ⟨s, i, s'⟩ (hC _ (by simp)) hst hs
    refine ⟨hs', fun e he => ?_⟩
    rcases List.mem_append.mp he with he | he
    · exact hmem e he
    · rw [List.mem_singleton.mp he]
      exact ⟨hs, hs'⟩

/-- An invariant kept by every step holds in all states of a run. -/
theorem Run.invariant {I : σ → Prop}
    (hstep : ∀ s i s', step s i s' → I s → I s') (h : Run step s₀ t s) (h₀ : I s₀) :
    I s ∧ ∀ e ∈ t, I e.pre ∧ I e.post :=
  h.invariant_on (C := fun _ => True) (fun e _ => hstep e.pre e.label e.post) h₀
    fun _ _ => trivial

/-! ### Views of a run -/

theorem filterMap_concat {α β : Type*} (f : α → Option β) (l : List α) (x : α) :
    (l ++ [x]).filterMap f = l.filterMap f ++ (f x).toList := by
  rw [List.filterMap_append]
  cases hx : f x with
  | none => rw [List.filterMap_cons_none hx]; rfl
  | some y => rw [List.filterMap_cons_some hx]; rfl

/-- The events of a view `f`, at the steps that `g` gives a label of it. -/
def viewed {τ κ : Type*} (f : σ → τ) (g : Event σ ι → Option κ) (t : List (Event σ ι)) :
    List (Event τ κ) :=
  t.filterMap fun e => (g e).map fun k => ⟨f e.pre, k, f e.post⟩

/-- A run is seen as a run, if every step is seen as a step or changes nothing. -/
theorem Run.view {τ κ : Type*} {step' : τ → κ → τ → Prop} (f : σ → τ)
    (g : Event σ ι → Option κ)
    (hsome : ∀ e, step e.pre e.label e.post → ∀ k ∈ g e, step' (f e.pre) k (f e.post))
    (hnone : ∀ e, step e.pre e.label e.post → g e = none → f e.post = f e.pre)
    (h : Run step s₀ t s) : Run step' (f s₀) (viewed f g t) (f s) := by
  induction h with
  | nil => exact Run.nil
  | @snoc t s s' i _ hstep ih =>
    rw [viewed, filterMap_concat]
    cases hg : g ⟨s, i, s'⟩ with
    | none =>
      have hsame : f s' = f s := hnone ⟨s, i, s'⟩ hstep hg
      rw [Option.map_none, Option.toList_none, List.append_nil, hsame]
      exact ih
    | some k => exact ih.snoc (hsome ⟨s, i, s'⟩ hstep k hg)

/-! ### Runs whose every step makes a measure smaller -/

variable {μ : σ → ℕ}

/-- The steps of a run are paid for by the measure. -/
theorem Run.length_add_le (hstep : ∀ s i s', step s i s' → μ s' < μ s) (h : Run step s t s') :
    t.length + μ s' ≤ μ s := by
  induction h with
  | nil => simp
  | snoc _ hs ih =>
    have hlt := hstep _ _ _ hs
    rw [List.length_append, List.length_singleton]
    omega

/-- Steps that make a measure smaller lead to the goal, wherever they start. -/
theorem exists_run_of_progress {goal : σ → Prop} (hstep : ∀ s i s', step s i s' → μ s' < μ s)
    (hprog : ∀ s, ¬ goal s → ∃ i s', step s i s') (s : σ) :
    ∃ t s', Run step s t s' ∧ goal s' := by
  by_cases hs : goal s
  · exact ⟨[], s, Run.nil, hs⟩
  · obtain ⟨i, s₁, h₁⟩ := hprog s hs
    obtain ⟨t, s', ht, hgoal⟩ := exists_run_of_progress hstep hprog s₁
    exact ⟨_, s', (Run.single h₁).append ht, hgoal⟩
termination_by μ s
decreasing_by exact hstep s i s₁ h₁

/-! ### Executable step functions -/

/-- The trace and last state of the labels `is`, if every step is enabled. -/
def exec (next : σ → ι → Option σ) : σ → List ι → Option (List (Event σ ι) × σ)
  | s, [] => some ([], s)
  | s, i :: is =>
    (next s i).bind fun s' =>
      (exec next s' is).map fun r => (⟨s, i, s'⟩ :: r.1, r.2)

theorem Run.of_exec (next : σ → ι → Option σ) (is : List ι) :
    ∀ {s s' : σ} {t : List (Event σ ι)}, exec next s is = some (t, s') →
      Run (fun s i s' => next s i = some s') s t s' := by
  induction is with
  | nil =>
    intro s s' t h
    simp only [exec, Option.some.injEq, Prod.mk.injEq] at h
    obtain ⟨rfl, rfl⟩ := h
    exact Run.nil
  | cons i is ih =>
    intro s s' t h
    simp only [exec, Option.bind_eq_some_iff, Option.map_eq_some_iff, Prod.mk.injEq] at h
    obtain ⟨s₁, hs₁, ⟨t', s''⟩, ht', rfl, rfl⟩ := h
    exact (Run.single hs₁).append (ih ht')

/-- The first of the steps that are executed. -/
theorem exec_cons {next : σ → ι → Option σ} {i : ι} {is : List ι}
    (h : exec next s (i :: is) = some (t, s')) :
    ∃ s₁ t', exec next s₁ is = some (t', s') ∧ t = ⟨s, i, s₁⟩ :: t' := by
  simp only [exec, Option.bind_eq_some_iff, Option.map_eq_some_iff, Prod.mk.injEq] at h
  obtain ⟨s₁, -, ⟨t', s''⟩, ht', rfl, rfl⟩ := h
  exact ⟨s₁, t', ht', rfl⟩

/-- What the execution is found to do. -/
theorem exec_of_decide (next : σ → ι → Option σ) (s : σ) (is : List ι)
    (P : List (Event σ ι) × σ → Prop) [DecidablePred P]
    (h : (exec next s is).map (fun r => decide (P r)) = some true) :
    ∃ t s', exec next s is = some (t, s') ∧ P (t, s') := by
  obtain ⟨⟨t, s'⟩, hexec, hr⟩ := Option.map_eq_some_iff.mp h
  exact ⟨t, s', hexec, of_decide_eq_true hr⟩

/-- Steps that are enabled where an invariant holds, and keep it, run through
labels that meet a condition. -/
theorem exec_of_invariant {next : σ → ι → Option σ} {I : σ → Prop} {C : ι → Prop}
    (hstep : ∀ s i, I s → C i → ∃ s', next s i = some s' ∧ I s') (is : List ι)
    (hC : ∀ i ∈ is, C i) (h₀ : I s) : ∃ t s', exec next s is = some (t, s') ∧ I s' := by
  induction is generalizing s with
  | nil => exact ⟨[], s, rfl, h₀⟩
  | cons i is ih =>
    obtain ⟨s₁, hs₁, h₁⟩ := hstep s i h₀ (hC i List.mem_cons_self)
    obtain ⟨t, s', hexec, h'⟩ := ih (fun j hj => hC j (List.mem_cons_of_mem _ hj)) h₁
    exact ⟨_, s', by rw [exec, hs₁, Option.bind_some, hexec, Option.map_some], h'⟩

/-- Steps that are always enabled run through any labels. -/
theorem Run.of_foldl (next : σ → ι → σ) (s : σ) (is : List ι) :
    ∃ t, Run (fun s i s' => next s i = s') s t (is.foldl next s) := by
  induction is using List.reverseRecOn with
  | nil => exact ⟨[], Run.nil⟩
  | append_singleton is i ih =>
    obtain ⟨t, ht⟩ := ih
    refine ⟨_, ht.snoc (i := i) ?_⟩
    rw [List.foldl_append, List.foldl_cons, List.foldl_nil]

/-! ### Steps with an output -/

/-- The outputs for the labels `is` and the last state, if every step is
enabled. -/
def observe {ω : Type*} (next : σ → ι → Option (ω × σ)) : σ → List ι → Option (List ω × σ)
  | s, [] => some ([], s)
  | s, i :: is =>
    (next s i).bind fun r => (observe next r.2 is).map fun r' => (r.1 :: r'.1, r'.2)

/-- Related states give the same outputs for as long as they stay related,
which an output that is not `ok` may end. -/
theorem observe_related {τ ω : Type*} {next : σ → ι → Option (ω × σ)}
    {next' : τ → ι → Option (ω × τ)} {R : σ → τ → Prop} {ok : ω → Prop}
    (hstep : ∀ s u i, R s u → ∃ o s' u', next s i = some (o, s') ∧ next' u i = some (o, u') ∧
      (ok o → R s' u')) (is : List ι) :
    ∀ {s u os u'}, R s u → observe next' u is = some (os, u') → (∀ o ∈ os, ok o) →
      ∃ s', observe next s is = some (os, s') ∧ R s' u' := by
  induction is with
  | nil =>
    intro s u os u' hR hobs hok
    simp only [observe, Option.some.injEq, Prod.mk.injEq] at hobs
    obtain ⟨rfl, rfl⟩ := hobs
    exact ⟨s, rfl, hR⟩
  | cons i is ih =>
    intro s u os u' hR hobs hok
    obtain ⟨o, s₁, u₁, hs, hu, hkeep⟩ := hstep s u i hR
    rw [observe, hu, Option.bind_some, Option.map_eq_some_iff] at hobs
    obtain ⟨⟨os', u''⟩, hrest, heq⟩ := hobs
    simp only [Prod.mk.injEq] at heq
    obtain ⟨rfl, rfl⟩ := heq
    obtain ⟨s', hobs', hR'⟩ := ih (hkeep (hok o List.mem_cons_self)) hrest
      fun o ho => hok o (List.mem_cons_of_mem _ ho)
    exact ⟨s', by rw [observe, hs, Option.bind_some, hobs', Option.map_some], hR'⟩

/-- A view of the states that commutes with every step, on the states of an
invariant, commutes with the observations. -/
theorem observe_map {τ ω : Type*} {next : σ → ι → Option (ω × σ)}
    {next' : τ → ι → Option (ω × τ)} {I : σ → Prop} (f : σ → τ)
    (hstep : ∀ s i, I s → ∃ o s', next s i = some (o, s') ∧ next' (f s) i = some (o, f s') ∧ I s')
    (is : List ι) :
    ∀ {s}, I s → ∃ os s', observe next s is = some (os, s') ∧
      observe next' (f s) is = some (os, f s') ∧ I s' := by
  induction is with
  | nil => exact fun {s} hs => ⟨[], s, rfl, rfl, hs⟩
  | cons i is ih =>
    intro s hs
    obtain ⟨o, s₁, hnext, hnext', h₁⟩ := hstep s i hs
    obtain ⟨os, s', hobs, hobs', h'⟩ := ih h₁
    refine ⟨o :: os, s', ?_, ?_, h'⟩
    · rw [observe, hnext, Option.bind_some, hobs, Option.map_some]
    · rw [observe, hnext', Option.bind_some, hobs', Option.map_some]

/-! ### Requests and answers in a trace -/

/-- Every item of `l` that meets `A` has an item that meets `B` after it. -/
def Answered {α : Type*} (A B : α → Prop) (l : List α) : Prop :=
  ∀ l₁ a l₂, l = l₁ ++ a :: l₂ → A a → ∃ b ∈ l₂, B b

theorem answered_nil {α : Type*} {A B : α → Prop} : Answered A B [] := by
  intro l₁ a l₂ hl
  simp at hl

/-- A new last item must not ask, and answers everything before it or leaves
it as it was. -/
theorem answered_concat {α : Type*} {A B : α → Prop} {l : List α} {c : α} :
    Answered A B (l ++ [c]) ↔ ¬ A c ∧ (B c ∨ Answered A B l) := by
  constructor
  · intro h
    refine ⟨fun hc => ?_, ?_⟩
    · obtain ⟨b, hb, -⟩ := h l c [] rfl hc
      cases hb
    · by_cases hc : B c
      · exact Or.inl hc
      · refine Or.inr fun l₁ a l₂ hl ha => ?_
        obtain ⟨b, hb, hB⟩ := h l₁ a (l₂ ++ [c]) (by simp [hl]) ha
        rcases List.mem_append.mp hb with hb | hb
        · exact ⟨b, hb, hB⟩
        · rw [List.mem_singleton.mp hb] at hB
          exact absurd hB hc
  · rintro ⟨hc, h⟩ l₁ a l₂ hl ha
    -- the request is the new item, or an older one
    rcases List.eq_nil_or_concat l₂ with rfl | ⟨l₃, c', rfl⟩
    · obtain ⟨-, he⟩ := List.append_inj' hl rfl
      rw [(List.cons.inj he).1] at hc
      exact absurd ha hc
    · rw [List.concat_eq_append, ← List.cons_append, ← List.append_assoc] at hl
      obtain ⟨rfl, he⟩ := List.append_inj' hl rfl
      obtain rfl : c = c' := (List.cons.inj he).1
      rw [List.concat_eq_append]
      rcases h with h | h
      · exact ⟨c, List.mem_append_right _ (List.mem_singleton.mpr rfl), h⟩
      · obtain ⟨b, hb, hB⟩ := h l₁ a l₃ rfl ha
        exact ⟨b, List.mem_append_left _ hb, hB⟩

/-- An answer answers everything before it. -/
theorem answered_append_cons {α : Type*} {A B : α → Prop} {l₁ l₂ : List α} {b : α} (hb : B b)
    (hn : ∀ a ∈ b :: l₂, ¬ A a) : Answered A B (l₁ ++ b :: l₂) := by
  induction l₂ using List.reverseRecOn with
  | nil => exact answered_concat.mpr ⟨hn b (by simp), Or.inl hb⟩
  | append_singleton l c ih =>
    rw [← List.cons_append, ← List.append_assoc]
    refine answered_concat.mpr ⟨hn c (by simp), Or.inr (ih fun a ha => hn a ?_)⟩
    rw [← List.cons_append]
    exact List.mem_append_left _ ha

end Transition
