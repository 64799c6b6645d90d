/-
The two-packet latch over runs of the handler.

`pending_service_packet` is touched by service-mode calls only, so a latched
packet outlives resets and other traffic until service mode is entered again.

* `pending_of_step` — what one call leaves in the latch;
* `latched_before_effect` — in a run in which no latched packet is found by a
  service call that does not follow another one, every effect is immediately
  preceded by the call that latched its packet.
-/
import Rp2040Decoder.Handler

namespace Rp2040.Handler

open Transition

variable {T S : Type} [Timer T] [Store S] {self self' : Handler T S} {c : Call}

/-- The call is handled as a service-mode packet and only latches it. -/
def Latches (self : Handler T S) (c : Call) : Prop :=
  self.ServiceCall c ∧ self.pendingServicePacket ≠ some c.packet

/-- After a service call the latch is set by the call itself, or empty. -/
theorem pending_of_step {r : Except (Fault HandlerError) (Option Op)}
    (h : self.Step c r self') (hservice : self.ServiceCall c) :
    (self.Latches c ∧ self'.pendingServicePacket = some c.packet) ∨
      self'.pendingServicePacket = none := by
  cases h with
  | reset hreset => exact absurd (hreset.symm.trans hservice.1) (by simp)
  | latch _ hp => exact Or.inl ⟨⟨hservice, hp⟩, rfl⟩
  | execute _ _ => exact Or.inr rfl
  | command hno _ _ => exact absurd hservice hno
  | foreign _ hno _ _ => exact absurd hservice hno

/-- **Two packets for every effect.**  In a run in which every call that finds
its packet latched directly follows a call handled as a service-mode packet, a
call that changes the store or returns `AcknowledgeCv` or `Reboot` directly
follows a call on the identical packet that only latched it. -/
theorem latched_before_effect {timer : T} {store : S}
    {t : List (Event (Handler T S) Call)}
    (hrun : Run (fun h c h' => next h c = some h') (Handler.new timer store) t self)
    (hstale : ∀ t₁ e₀ e t₂, t = t₁ ++ e₀ :: e :: t₂ →
      e.pre.Executes e.label → e₀.pre.ServiceCall e₀.label) :
    ∀ t₁ e t₂, t = t₁ ++ e :: t₂ → Effect e.pre e.post e.label →
      ∃ t₀ e₀, t₁ = t₀ ++ [e₀] ∧ e₀.label.packet = e.label.packet ∧
        e₀.pre.Latches e₀.label := by
  rintro t₁ e t₂ rfl heffect
  obtain ⟨hpre, hstep, -⟩ := hrun.split
  have hexec : e.pre.Executes e.label := executes_of_effect hstep heffect
  rcases List.eq_nil_or_concat t₁ with rfl | ⟨t₀, e₀, rfl⟩
  · -- a new handler has nothing latched
    have hpending := hexec.2
    rw [hpre.eq_of_nil] at hpending
    cases hpending
  · rw [List.concat_eq_append] at hpre hstale ⊢
    obtain ⟨-, hstep₀, hpost⟩ := hpre.of_concat
    have hservice : e₀.pre.ServiceCall e₀.label :=
      hstale t₀ e₀ e t₂ (by rw [List.append_assoc]; rfl) hexec
    rcases pending_of_step (step_of_next hstep₀) hservice with ⟨hlatch, hpending⟩ | hpending
    · rw [hpost, hexec.2, Option.some.injEq] at hpending
      exact ⟨t₀, e₀, rfl, hpending.symm, hlatch⟩
    · rw [hpost, hexec.2] at hpending
      cases hpending

/-- A reset packet. -/
def resetPacket : Packet := ⟨[0x00, 0x00], by decide⟩

/-- The service-mode packet that writes 20 to CV3. -/
def writePacket : Packet := ⟨[0b01111100, 0x02, 20], by decide⟩

/-- A handler at startup, with the factory defaults. -/
def startup : Handler InstantTimer (Flash .release) := Handler.new ⟨none⟩ Flash.defaultFlash

/-- A reset packet and a write sent twice. -/
theorem write_sent_twice :
    ∃ t h, Run (fun h c h' => next h c = some h') startup t h ∧
      t.map (fun e => e.pre.result e.label) =
        [.ok (some .reset), .ok none, .ok (some .acknowledgeCv)] ∧
      ∀ t₁ e t₂, t = t₁ ++ e :: t₂ → Effect e.pre e.post e.label →
        ∃ t₀ e₀, t₁ = t₀ ++ [e₀] ∧ e₀.label.packet = e.label.packet ∧
          e₀.pre.Latches e₀.label := by
  have hrun := Run.of_exec next
    [⟨0, resetPacket⟩, ⟨1000, writePacket⟩, ⟨2000, writePacket⟩] (s := startup) rfl
  refine ⟨_, _, hrun, rfl, latched_before_effect hrun ?_⟩
  intro t₁ e₀ e t₂ ht hexec
  rcases t₁ with _ | ⟨x, _ | ⟨y, t₁⟩⟩
  · obtain ⟨-, ht⟩ := List.cons.inj ht
    obtain ⟨rfl, -⟩ := List.cons.inj ht
    cases hexec.2
  · obtain ⟨-, ht⟩ := List.cons.inj ht
    obtain ⟨rfl, -⟩ := List.cons.inj ht
    exact ⟨rfl, rfl⟩
  · have hlength : 3 = (x :: y :: t₁ ++ e₀ :: e :: t₂).length := congrArg List.length ht
    simp only [List.cons_append, List.length_cons, List.length_append] at hlength
    omega

/-- A write, a reset packet and the same write: it is executed although the
reset lies between the two copies. -/
theorem write_executed_across_reset :
    ∃ t h, Run (fun h c h' => next h c = some h') startup t h ∧
      t.map (fun e => e.label.packet) = [resetPacket, writePacket, resetPacket, writePacket] ∧
      ∃ t₁ e, t = t₁ ++ [e] ∧ Effect e.pre e.post e.label ∧
        ¬ ∃ t₀ e₀, t₁ = t₀ ++ [e₀] ∧ e₀.label.packet = e.label.packet ∧
          e₀.pre.Latches e₀.label := by
  have hrun := Run.of_exec next
    [⟨0, resetPacket⟩, ⟨1000, writePacket⟩, ⟨2000, resetPacket⟩, ⟨3000, writePacket⟩]
    (s := startup) rfl
  refine ⟨_, _, hrun, rfl, [_, _, _], _, rfl, Or.inr (Or.inl rfl), ?_⟩
  rintro ⟨t₀, e₀, ht, hpacket, -⟩
  have hlast := congrArg (fun t => t.getLast?.map fun e => e.label.packet) ht
  simp only [List.getLast?_append, List.getLast?_singleton, Option.some_or,
    Option.map_some] at hlast
  rw [hpacket] at hlast
  exact absurd hlast (by decide)

end Rp2040.Handler
