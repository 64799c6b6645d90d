/-
The packet handler (`Handler` in `dcc/src/handler.rs`).

A packet goes one of four ways: a reset packet starts the service-mode timer;
a service-mode candidate within its timeout restarts it and meets the two-packet
latch; a packet for this decoder stops it; every other packet leaves it alone.

* `Handler.Step` — the ways, with their guards and results;
* `step_of_next` — the handler does nothing else;
* `executes_of_effect` — only a latched packet, received again, has an effect.
-/
import Rp2040Decoder.Recipient
import Rp2040Decoder.Runs
import Rp2040Decoder.ServiceMode

namespace Rp2040

/-- A timer; `now` is the clock, in µs. -/
class Timer (T : Type) where
  /-- Clears any running timers. -/
  stop : T → T
  /-- Resets the timer -/
  start : ℕ → T → T
  /-- The time since the previous reset in ms. -/
  elapsedMs : ℕ → T → Option ℕ

/-- `InstantTimer` (`application/src/timer.rs`): the `as usize` cuts the
milliseconds to 32 bits. -/
structure InstantTimer where
  mark : Option ℕ
  deriving DecidableEq, Repr

instance : Timer InstantTimer where
  stop _ := ⟨none⟩
  start now _ := ⟨some now⟩
  elapsedMs now self := self.mark.map fun m => (now - m) / 1000 % 2 ^ 32

def SERVICE_MODE_TIMEOUT_MS : ℕ := 20

/-- The logic for handling packets. -/
structure Handler (T S : Type) where
  enterServiceModeTimer : T
  store : S
  pendingServicePacket : Option Packet
  deriving DecidableEq

namespace Handler

variable {T S : Type}

def new (timer : T) (store : S) : Handler T S := ⟨timer, store, none⟩

section Definitions

variable [Timer T] [Store S]

def startTimer (now : ℕ) (self : Handler T S) : Handler T S :=
  { self with enterServiceModeTimer := Timer.start now self.enterServiceModeTimer }

def stopTimer (self : Handler T S) : Handler T S :=
  { self with enterServiceModeTimer := Timer.stop self.enterServiceModeTimer }

/-- The guard of the service-mode branch. -/
def inServiceMode (now : ℕ) (packet : Packet) (self : Handler T S) :
    Except (Fault HandlerError) Bool :=
  match Timer.elapsedMs now self.enterServiceModeTimer with
  | some elapsed =>
    if elapsed < SERVICE_MODE_TIMEOUT_MS then packet.serviceModeCandidate else .ok false
  | none => .ok false

def handleCommand (packet : Packet) : Except (Fault HandlerError) (Option Op) :=
  match OperationModeInstruction.tryFrom packet with
  | .ok (.advancedOperations (.speedStepControl v)) => .ok (some (.velocity128 v))
  | .ok (.functionGroup fg) => .ok (some (.setFunctions fg))
  | .error e => .error (e.map .packet)

/-- The first copy of a packet is only latched. -/
def handleServiceMode (packet : Packet) : Proc (Handler T S) HandlerError (Option Op) := do
  if (← Proc.gets Handler.pendingServicePacket) ≠ some packet then
    Proc.modify fun self => { self with pendingServicePacket := some packet }
    return none
  else
    Proc.modify fun self => { self with pendingServicePacket := none }
    Proc.zoom Handler.store (fun store self => { self with store }) id
      (executeServicePacket packet)

/-- Handles the packet, returning any operation that needs to be performed. -/
def handle (now : ℕ) (packet : Packet) : Proc (Handler T S) HandlerError (Option Op) := do
  if packet.isReset then
    -- we may be entering service mode
    Proc.modify (startTimer now)
    return some .reset
  else if ← Proc.read (inServiceMode now packet) then
    Proc.modify (startTimer now)
    handleServiceMode packet
  else if ← Proc.read (fun self : Handler T S => isRecipient packet self.store) then
    -- this packet was specifically addressed to us (not a broadcast)
    Proc.modify stopTimer
    Proc.ofResult id (handleCommand packet)
  else if ← Proc.read (fun _ => isBroadcast packet) then
    Proc.ofResult id (handleCommand packet)
  else
    -- packet not addressed to us
    return none

/-- A call: the packet and the time it is handled at. -/
structure Call where
  now : ℕ
  packet : Packet
  deriving DecidableEq

/-- What a call returns. -/
def result (self : Handler T S) (c : Call) : Except (Fault HandlerError) (Option Op) :=
  ((handle c.now c.packet).run self).1

/-- The handler after a call that returns; none if it panics. -/
def next (self : Handler T S) (c : Call) : Option (Handler T S) :=
  match (handle c.now c.packet).run self with
  | (.error .panic, _) => none
  | (_, self') => some self'

/-! ### What a call can do -/

/-- The call is handled as a service-mode packet. -/
def ServiceCall (self : Handler T S) (c : Call) : Prop :=
  c.packet.isReset = false ∧ self.inServiceMode c.now c.packet = .ok true

/-- The call executes a service-mode packet: its copy is latched. -/
def Executes (self : Handler T S) (c : Call) : Prop :=
  self.ServiceCall c ∧ self.pendingServicePacket = some c.packet

/-- The calls of a handler, each with its result and the handler after it. -/
inductive Step (self : Handler T S) (c : Call) :
    Except (Fault HandlerError) (Option Op) → Handler T S → Prop
  | reset : c.packet.isReset = true → Step self c (.ok (some .reset)) (self.startTimer c.now)
  | latch : self.ServiceCall c → self.pendingServicePacket ≠ some c.packet →
      Step self c (.ok none)
        { self.startTimer c.now with pendingServicePacket := some c.packet }
  | execute {r : Except (Fault HandlerError) (Option Op)} {store : S} : self.Executes c →
      (executeServicePacket c.packet).run self.store = (r, store) →
      Step self c r ⟨Timer.start c.now self.enterServiceModeTimer, store, none⟩
  | command {r : Except (Fault HandlerError) (Option Op)} : ¬ self.ServiceCall c →
      (isRecipient c.packet self.store : Except (Fault HandlerError) Bool) = .ok true →
      r = handleCommand c.packet → Step self c r self.stopTimer
  | foreign {r : Except (Fault HandlerError) (Option Op)} : c.packet.isReset = false →
      ¬ self.ServiceCall c →
      (isRecipient c.packet self.store : Except (Fault HandlerError) Bool) = .ok false →
      r = handleCommand c.packet ∨ r = .ok none → Step self c r self

end Definitions

variable [Timer T] {self self' : Handler T S} {c : Call}

theorem mapError_id {ε α : Type} (x : Except (Fault ε) α) :
    x.mapError (Fault.map id) = x := by
  cases x with
  | ok a => rfl
  | error e => cases e <;> rfl

/-- The guards of `handle` do not return errors: they answer or panic. -/
theorem panic_of_serviceModeCandidate {ε : Type} {packet : Packet} {e : Fault ε}
    (h : packet.serviceModeCandidate = .error e) : e = .panic := by
  rw [Packet.serviceModeCandidate, index] at h
  cases hd : packet.data[0]? with
  | none =>
    rw [hd] at h
    exact (Except.error.inj h).symm
  | some d₀ =>
    rw [hd] at h
    cases h

theorem panic_of_inServiceMode {now : ℕ} {packet : Packet} {e : Fault HandlerError}
    (h : self.inServiceMode now packet = .error e) : e = .panic := by
  rw [inServiceMode] at h
  split at h
  · split at h
    · exact panic_of_serviceModeCandidate h
    · cases h
  · cases h

variable [Store S]

theorem panic_of_isRecipient {ε : Type} {packet : Packet} {store : S} {e : Fault ε}
    (h : isRecipient packet store = .error e) : e = .panic := by
  rw [isRecipient] at h
  split at h
  · exact (Except.error.inj h).symm
  · cases h
  · split at h
    · exact (Except.error.inj h).symm
    · cases h
    · cases h

theorem panic_of_isBroadcast {ε : Type} {packet : Packet} {e : Fault ε}
    (h : isBroadcast packet = .error e) : e = .panic := by
  rw [isBroadcast] at h
  split at h
  · exact (Except.error.inj h).symm
  · cases h
  · cases h

theorem run_of_next (h : self.next c = some self') :
    (handle c.now c.packet).run self = (self.result c, self') ∧
      self.result c ≠ .error .panic := by
  simp only [next] at h
  split at h
  · cases h
  · rename_i r s' hne hr
    rw [result, hr, Option.some.inj h]
    exact ⟨rfl, hne⟩

/-- A reset packet is answered before all else. -/
theorem result_of_isReset (h : c.packet.isReset = true) : self.result c = .ok (some .reset) := by
  rw [result, handle, if_pos h, Proc.run_modify_bind, Proc.run_pure]

/-- A service call latches or executes its packet. -/
theorem step_of_serviceCall {r : Except (Fault HandlerError) (Option Op)}
    (hservice : self.ServiceCall c)
    (h : (handleServiceMode c.packet).run (self.startTimer c.now) = (r, self')) :
    self.Step c r self' := by
  rw [handleServiceMode, Proc.run_gets_bind] at h
  by_cases hp : (self.startTimer c.now).pendingServicePacket ≠ some c.packet
  · rw [if_pos hp, Proc.run_modify_bind, Proc.run_pure, Prod.mk.injEq] at h
    obtain ⟨rfl, rfl⟩ := h
    exact .latch hservice hp
  · rw [if_neg hp, Proc.run_modify_bind, Proc.run_zoom, mapError_id, Prod.mk.injEq] at h
    obtain ⟨rfl, rfl⟩ := h
    exact .execute ⟨hservice, not_not.mp hp⟩ rfl

/-- Inversion of the handler. -/
theorem step_of_next (h : self.next c = some self') : self.Step c (self.result c) self' := by
  obtain ⟨hrun, hpanic⟩ := run_of_next h
  generalize self.result c = r at hrun hpanic
  rw [handle] at hrun
  by_cases hreset : c.packet.isReset = true
  · rw [if_pos hreset, Proc.run_modify_bind, Proc.run_pure, Prod.mk.injEq] at hrun
    obtain ⟨rfl, rfl⟩ := hrun
    exact .reset hreset
  rw [if_neg hreset] at hrun
  have hreset' : c.packet.isReset = false := Bool.not_eq_true _ ▸ hreset
  cases hservice : self.inServiceMode c.now c.packet with
  | error e =>
    rw [Proc.run_bind_of_error (by rw [Proc.run_read, hservice]), Prod.mk.injEq] at hrun
    exact absurd (hrun.1.symm.trans (by rw [panic_of_inServiceMode hservice])) hpanic
  | ok b =>
    rw [Proc.run_read_bind hservice] at hrun
    cases b with
    | true =>
      rw [if_pos rfl, Proc.run_modify_bind] at hrun
      exact step_of_serviceCall ⟨hreset', hservice⟩ hrun
    | false =>
      rw [if_neg Bool.false_ne_true] at hrun
      have hno : ¬ self.ServiceCall c := by
        rintro ⟨-, hyes⟩
        rw [hservice] at hyes
        cases hyes
      cases hrecipient : (isRecipient c.packet self.store : Except (Fault HandlerError) Bool) with
      | error e =>
        rw [Proc.run_bind_of_error (by rw [Proc.run_read, hrecipient]), Prod.mk.injEq] at hrun
        exact absurd (hrun.1.symm.trans (by rw [panic_of_isRecipient hrecipient])) hpanic
      | ok b =>
        rw [Proc.run_read_bind (f := fun self : Handler T S => isRecipient c.packet self.store)
          hrecipient] at hrun
        cases b with
        | true =>
          rw [if_pos rfl, Proc.run_modify_bind, Proc.run_ofResult, mapError_id,
            Prod.mk.injEq] at hrun
          obtain ⟨rfl, rfl⟩ := hrun
          exact .command hno hrecipient rfl
        | false =>
          rw [if_neg Bool.false_ne_true] at hrun
          cases hbroadcast : (isBroadcast c.packet : Except (Fault HandlerError) Bool) with
          | error e =>
            rw [Proc.run_bind_of_error (by rw [Proc.run_read, hbroadcast]), Prod.mk.injEq] at hrun
            exact absurd (hrun.1.symm.trans (by rw [panic_of_isBroadcast hbroadcast])) hpanic
          | ok b =>
            rw [Proc.run_read_bind (f := fun _ : Handler T S => isBroadcast c.packet)
              hbroadcast] at hrun
            cases b with
            | true =>
              rw [if_pos rfl, Proc.run_ofResult, mapError_id, Prod.mk.injEq] at hrun
              obtain ⟨rfl, rfl⟩ := hrun
              exact .foreign hreset' hno hrecipient (Or.inl rfl)
            | false =>
              rw [if_neg Bool.false_ne_true, Proc.run_pure, Prod.mk.injEq] at hrun
              obtain ⟨rfl, rfl⟩ := hrun
              exact .foreign hreset' hno hrecipient (Or.inr rfl)

/-! ### Effects -/

/-- The call changes the store, acknowledges a CV or asks for a reboot. -/
def Effect (self self' : Handler T S) (c : Call) : Prop :=
  self'.store ≠ self.store ∨ self.result c = .ok (some .acknowledgeCv) ∨
    self.result c = .ok (some .reboot)

theorem handleCommand_ne {packet : Packet} {op : Op} (h : op = .acknowledgeCv ∨ op = .reboot) :
    handleCommand packet ≠ .ok (some op) := by
  intro hc
  rw [handleCommand] at hc
  split at hc <;> rcases h with rfl | rfl <;> cases hc

/-- Only the execution of a latched packet has an effect. -/
theorem executes_of_effect (h : self.next c = some self') (he : Effect self self' c) :
    self.Executes c := by
  have hcases : self.Executes c ∨ (self'.store = self.store ∧
      ∀ op, op = Op.acknowledgeCv ∨ op = Op.reboot → self.result c ≠ .ok (some op)) := by
    have hstep := step_of_next h
    generalize self.result c = r at hstep
    cases hstep with
    | reset hreset => exact Or.inr ⟨rfl, by rintro op (rfl | rfl) hr <;> cases hr⟩
    | latch hservice hp => exact Or.inr ⟨rfl, by rintro op (rfl | rfl) hr <;> cases hr⟩
    | execute hexec hrun => exact Or.inl hexec
    | command hno hrecipient hr => exact Or.inr ⟨rfl, fun op hop => hr ▸ handleCommand_ne hop⟩
    | foreign hreset hno hrecipient hr =>
      refine Or.inr ⟨rfl, fun op hop => ?_⟩
      rcases hr with rfl | rfl
      · exact handleCommand_ne hop
      · exact fun hr => by cases hr
  refine hcases.resolve_right fun hno => ?_
  rcases he with hstore | hr | hr
  · exact hstore hno.1
  · exact hno.2 _ (Or.inl rfl) hr
  · exact hno.2 _ (Or.inr rfl) hr

end Handler

end Rp2040
