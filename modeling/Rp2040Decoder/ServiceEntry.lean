/-
Entering service mode, over runs of the handler.

The timer is started by resets and by accepted service packets, stopped by
packets for this decoder, and left alone by all others.  The invariant ties its
mark to the history: a running timer is the end of a chain that began with a
reset packet.

* `Stopwatch` — what is assumed of the timer;
* `Linked` — the chains;
* `chained_step`, `chained_run` — the invariant;
* `effect_linked` — an effect is a link of such a chain.
-/
import Rp2040Decoder.Latch

namespace Rp2040

open Transition

/-- A timer that measures the milliseconds since its last start. -/
class Stopwatch (T : Type) [Timer T] where
  mark : T → Option ℕ
  mark_stop (timer : T) : mark (Timer.stop timer) = none
  mark_start (now : ℕ) (timer : T) : mark (Timer.start now timer) = some now
  elapsedMs_eq (now : ℕ) (timer : T) :
    Timer.elapsedMs now timer = (mark timer).map fun m => (now - m) / 1000

namespace Handler

variable {T S : Type}

/-- The packet may be a service-mode packet: its first byte is in 112..=127. -/
def Candidate (packet : Packet) : Prop :=
  ∃ d₀ ∈ packet.data.head?, 112 ≤ d₀ ∧ d₀ ≤ 127

theorem candidate_of_serviceModeCandidate {ε : Type} {packet : Packet}
    (h : (packet.serviceModeCandidate : Except (Fault ε) Bool) = .ok true) :
    Candidate packet := by
  obtain ⟨_ | ⟨d₀, data⟩, hlength⟩ := packet
  · cases h
  · exact ⟨d₀, rfl, of_decide_eq_true (Except.ok.inj h)⟩

section Chains

variable [Store S]

/-- The packet has the address the store gives the decoder. -/
def OwnAddress (packet : Packet) (store : S) : Prop :=
  ∃ a, packet.addr = .ok a ∧ Store.addr store = .ok a

theorem isRecipient_of_ownAddress {ε : Type} {packet : Packet} {store : S}
    (h : OwnAddress packet store) :
    (isRecipient packet store : Except (Fault ε) Bool) = .ok true := by
  obtain ⟨a, ha, hb⟩ := h
  rw [isRecipient, ha, hb]
  simp only [beq_self_eq_true]

/-- From a reset at `m₀`, the calls `b` hold a chain of service-mode candidates
less than 20 ms apart whose last link was made at `m`, and no other call in
between was on a packet for this decoder. -/
inductive Linked (m₀ : ℕ) : List (Event (Handler T S) Call) → ℕ → Prop
  | start : Linked m₀ [] m₀
  | link {b : List (Event (Handler T S) Call)} {m : ℕ} {e : Event (Handler T S) Call} :
      Linked m₀ b m → Candidate e.label.packet → m ≤ e.label.now →
      e.label.now < m + 20000 → Linked m₀ (b ++ [e]) e.label.now
  | skip {b : List (Event (Handler T S) Call)} {m : ℕ} {e : Event (Handler T S) Call} :
      Linked m₀ b m → ¬ OwnAddress e.label.packet e.pre.store → Linked m₀ (b ++ [e]) m

/-- The history ends in a chain from a reset packet, the last link at `m`. -/
def Chained (t : List (Event (Handler T S) Call)) (m : ℕ) : Prop :=
  ∃ a r b, t = a ++ r :: b ∧ r.label.packet.isReset = true ∧ Linked r.label.now b m

theorem Chained.concat {t : List (Event (Handler T S) Call)} {m m' : ℕ}
    {e : Event (Handler T S) Call} (h : Chained t m)
    (hlinked : ∀ m₀ b, Linked m₀ b m → Linked m₀ (b ++ [e]) m') : Chained (t ++ [e]) m' := by
  obtain ⟨a, r, b, rfl, hreset, hb⟩ := h
  exact ⟨a, r, b ++ [e], by simp, hreset, hlinked _ _ hb⟩

end Chains

variable [Timer T] [Stopwatch T] {self self' : Handler T S} {c : Call}

open Stopwatch

/-- A service call is made less than 20 ms after the timer was started. -/
theorem mark_of_serviceCall (h : self.ServiceCall c) :
    ∃ m, mark self.enterServiceModeTimer = some m ∧ c.now < m + 20000 ∧
      Candidate c.packet := by
  have hguard := h.2
  rw [inServiceMode, elapsedMs_eq] at hguard
  cases hm : mark self.enterServiceModeTimer with
  | none =>
    rw [hm] at hguard
    cases hguard
  | some m =>
    rw [hm] at hguard
    simp only [Option.map_some] at hguard
    split at hguard
    · rename_i hlt
      have htimeout : SERVICE_MODE_TIMEOUT_MS = 20 := rfl
      exact ⟨m, rfl, by omega, candidate_of_serviceModeCandidate hguard⟩
    · cases hguard

variable [Store S]

/-! ### The invariant -/

/-- If the timer runs, the history ends in a chain, its last link at the mark. -/
def TimerChained (t : List (Event (Handler T S) Call)) (self : Handler T S) : Prop :=
  ∀ m, mark self.enterServiceModeTimer = some m →
    Chained t m ∧ ∃ e ∈ t, e.label.now = m

/-- A service call finds a chain it is the next link of. -/
theorem chained_of_serviceCall {t : List (Event (Handler T S) Call)}
    (hinv : TimerChained t self) (hclock : ∀ e ∈ t, e.label.now ≤ c.now)
    (hservice : self.ServiceCall c) :
    ∃ m, Chained t m ∧ Candidate c.packet ∧ m ≤ c.now ∧ c.now < m + 20000 := by
  obtain ⟨m, hm, hlt, hcandidate⟩ := mark_of_serviceCall hservice
  obtain ⟨hchained, e, he, rfl⟩ := hinv m hm
  exact ⟨_, hchained, hcandidate, hclock e he, hlt⟩

theorem chained_step {t : List (Event (Handler T S) Call)}
    {r : Except (Fault HandlerError) (Option Op)} (h : self.Step c r self')
    (hinv : TimerChained t self) (hclock : ∀ e ∈ t, e.label.now ≤ c.now) :
    TimerChained (t ++ [⟨self, c, self'⟩]) self' := by
  -- a service call is within 20 ms of the last link, so it is the next
  have hservice : self.ServiceCall c → Chained (t ++ [⟨self, c, self'⟩]) c.now := by
    intro hs
    obtain ⟨m, hchained, hcandidate, hle, hlt⟩ := chained_of_serviceCall hinv hclock hs
    exact hchained.concat fun m₀ b hb => hb.link (e := ⟨self, c, self'⟩) hcandidate hle hlt
  have hlast : ∃ e ∈ t ++ [⟨self, c, self'⟩], e.label.now = c.now :=
    ⟨⟨self, c, self'⟩, by simp, rfl⟩
  intro m hm
  cases h with
  | reset hreset =>
    rw [startTimer, mark_start, Option.some.injEq] at hm
    subst hm
    exact ⟨⟨t, _, [], rfl, hreset, .start⟩, hlast⟩
  | latch hs hp =>
    rw [startTimer, mark_start, Option.some.injEq] at hm
    subst hm
    exact ⟨hservice hs, hlast⟩
  | execute hexec hrun =>
    rw [mark_start, Option.some.injEq] at hm
    subst hm
    exact ⟨hservice hexec.1, hlast⟩
  | command hno hrecipient hr =>
    rw [stopTimer, mark_stop] at hm
    cases hm
  -- a packet for others keeps the timer and the chain
  | foreign hreset hno hrecipient hr =>
    obtain ⟨hchained, e, he, rfl⟩ := hinv m hm
    refine ⟨hchained.concat fun m₀ b hb => hb.skip fun hown => ?_,
      e, List.mem_append_left _ he, rfl⟩
    rw [isRecipient_of_ownAddress hown] at hrecipient
    cases hrecipient

theorem chained_run {timer : T} {store : S} {t : List (Event (Handler T S) Call)}
    (htimer : mark timer = none)
    (hrun : Run (fun h c h' => next h c = some h') (Handler.new timer store) t self)
    (hclock : t.Pairwise fun e e' => e.label.now ≤ e'.label.now) : TimerChained t self := by
  induction hrun with
  | nil =>
    intro m hm
    rw [Handler.new, htimer] at hm
    cases hm
  | snoc _ hstep ih =>
    obtain ⟨hbefore, -, hlast⟩ := List.pairwise_append.mp hclock
    exact chained_step (step_of_next hstep) (ih hbefore)
      fun e he => hlast e he _ (List.mem_singleton.mpr rfl)

/-- **Service mode is entered by a reset.**  With a stopwatch for a timer and a
monotone clock, a call that changes the store or returns `AcknowledgeCv` or
`Reboot` comes after a call on a reset packet, and between the two there is a
chain of service-mode candidates less than 20 ms apart, of which the call is the
last, while no call outside the chain was on a packet for this decoder. -/
theorem effect_linked {timer : T} {store : S} {t : List (Event (Handler T S) Call)}
    (htimer : mark timer = none)
    (hrun : Run (fun h c h' => next h c = some h') (Handler.new timer store) t self)
    (hclock : t.Pairwise fun e e' => e.label.now ≤ e'.label.now) :
    ∀ t₁ e t₂, t = t₁ ++ e :: t₂ → Effect e.pre e.post e.label →
      ∃ a r b m, t₁ = a ++ r :: b ∧ r.label.packet.isReset = true ∧
        Linked r.label.now b m ∧ Candidate e.label.packet ∧ m ≤ e.label.now ∧
        e.label.now < m + 20000 := by
  rintro t₁ e t₂ rfl heffect
  obtain ⟨hpre, hstep, -⟩ := hrun.split
  obtain ⟨hbefore, -, hafter⟩ := List.pairwise_append.mp hclock
  obtain ⟨m, ⟨a, r, b, ht, hreset, hb⟩, hcandidate, hle, hlt⟩ :=
    chained_of_serviceCall (chained_run htimer hpre hbefore)
      (fun e' he' => hafter e' he' e List.mem_cons_self)
      (executes_of_effect hstep heffect).1
  exact ⟨a, r, b, m, ht, hreset, hb, hcandidate, hle, hlt⟩

end Handler

/-- A stopwatch. -/
structure IdealTimer where
  mark : Option ℕ

instance : Timer IdealTimer where
  stop _ := ⟨none⟩
  start now _ := ⟨some now⟩
  elapsedMs now self := self.mark.map fun m => (now - m) / 1000

instance : Stopwatch IdealTimer where
  mark := IdealTimer.mark
  mark_stop _ := rfl
  mark_start _ _ := rfl
  elapsedMs_eq _ _ := rfl

namespace Handler

/-- A reset packet and a write sent twice. -/
theorem effect_linked_to_reset :
    ∃ t h, Run (fun h c h' => next h c = some h')
        (Handler.new (⟨none⟩ : IdealTimer) Flash.defaultFlash) t h ∧
      ∃ t₁ e, t = t₁ ++ [e] ∧ e.pre.result e.label = .ok (some .acknowledgeCv) ∧
        ∃ a r b m, t₁ = a ++ r :: b ∧ r.label.packet.isReset = true ∧
          Linked r.label.now b m ∧ Candidate e.label.packet ∧ m ≤ e.label.now ∧
          e.label.now < m + 20000 := by
  have hrun := Run.of_exec next
    [⟨0, resetPacket⟩, ⟨1000, writePacket⟩, ⟨2000, writePacket⟩]
    (s := Handler.new (⟨none⟩ : IdealTimer) Flash.defaultFlash) rfl
  exact ⟨_, _, hrun, [_, _], _, rfl, rfl,
    effect_linked rfl hrun (by simp) [_, _] _ [] rfl (Or.inr (Or.inl rfl))⟩

end Handler

end Rp2040
