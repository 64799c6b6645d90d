/-
Programming both firmwares (`Handler::handle` in `dcc/src/handler.rs` and
`program_mode` in `Software/core0.c`).

A programmer sends every instruction at least twice, with reset packets in
between as it likes, and looks for an acknowledgement.  The Rust firmware
executes every second copy, the C firmware each of them; a copy that is executed
again finds the CVs as it left them, so it does not matter which.

* `Handler.programmed`, `Handler.Answers` — the service mode as a memory;
* `hear_settled`, `hear_twice` — the copies of one instruction;
* `observe_service` — the Rust firmware refines the memory;
* `observe_alike` — and is not told from the C firmware.
-/
import Rp2040Decoder.Core0Programming
import Rp2040Decoder.ReadBack
import Rp2040Decoder.ServiceEntry

namespace Rp2040

open ReadableStore ReliableStore Transition

/-! ### What is sent -/

/-- A packet of the programmer, a copy of the instruction or a reset packet: the
time in microseconds at which the Rust firmware handles it, and what memory
around its array reads as and an ADC calibration would measure in the C
firmware. -/
structure Arrival where
  copy : Bool
  now : ℕ
  outside : ℤ → UInt8
  overallAvgOffset : UInt8

/-- An instruction for one of the CVs and the packets that bring it. -/
structure Repeated where
  instruction : ServiceInstruction
  cvAddr_mem : 1 ≤ instruction.cvAddr ∧ instruction.cvAddr ≤ CV_SIZE
  arrivals : List Arrival
  twice : 2 ≤ arrivals.countP Arrival.copy

/-- Every packet comes in less than 20 ms. -/
def Prompt : ℕ → List ℕ → Prop
  | _, [] => True
  | m, now :: times => now < m + 20000 ∧ Prompt now times

instance decidablePrompt : ∀ m times, Decidable (Prompt m times)
  | _, [] => isTrue trivial
  | _, now :: times =>
    have := decidablePrompt now times
    inferInstanceAs (Decidable (_ ∧ _))

/-- The times of the session. -/
def times (session : List Repeated) : List ℕ :=
  session.flatMap fun r => r.arrivals.map Arrival.now

namespace Handler

/-! ### The memory -/

/-- The instruction asks for a reboot. -/
def Reboots : ServiceInstruction → Prop
  | .writeByte a value => a = 7 ∨ (a = 8 ∧ value = 8)
  | _ => False

instance decidableReboots : ∀ i, Decidable (Reboots i)
  | .writeByte a value => inferInstanceAs (Decidable (a = 7 ∨ (a = 8 ∧ value = 8)))
  | .verifyByte _ _ => isFalse id
  | .verifyBit _ _ _ => isFalse id
  | .writeBit _ _ _ => isFalse id

/-- The CVs after an instruction that asks for none. -/
def programmed (cvs : ℕ → UInt8) : ServiceInstruction → ℕ → UInt8
  | .writeByte a value =>
    if WriteAccepted cvs a value then
      if a = 1 then shortAddress (Function.update cvs a value) else Function.update cvs a value
    else cvs
  | .writeBit a b v => Function.update cvs a (setBit (cvs a) b v)
  | _ => cvs

/-- The instruction is acknowledged. -/
def Answers (cvs : ℕ → UInt8) : ServiceInstruction → Prop
  | .writeBit _ _ _ => True
  | i => Core0.Answers cvs i

instance decidableAnswers (cvs : ℕ → UInt8) : ∀ i, Decidable (Answers cvs i)
  | .writeByte a value => inferInstanceAs (Decidable (Core0.Answers cvs (.writeByte a value)))
  | .verifyByte a value => inferInstanceAs (Decidable (Core0.Answers cvs (.verifyByte a value)))
  | .verifyBit a b v => inferInstanceAs (Decidable (Core0.Answers cvs (.verifyBit a b v)))
  | .writeBit _ _ _ => isTrue trivial

variable {cvs₀ : ℕ → UInt8} {i : ServiceInstruction}

/-- The addresses that decide on a write are not changed by it. -/
theorem writeAccepted_programmed {a : ℕ} {value : UInt8} :
    WriteAccepted (programmed cvs₀ (.writeByte a value)) a value ↔ WriteAccepted cvs₀ a value := by
  have hother (n : ℕ) (hn : n = 17 ∨ n = 18) (hne : n ≠ a) :
      programmed cvs₀ (.writeByte a value) n = cvs₀ n := by
    rw [programmed]
    split
    · split
      · rw [shortAddress, Function.update_of_ne (by omega), Function.update_of_ne (by omega),
          Function.update_of_ne hne]
      · rw [Function.update_of_ne hne]
    · rfl
  by_cases h₁₇ : a = 17
  · subst h₁₇
    rw [WriteAccepted, WriteAccepted, Rejected, Rejected, hother 18 (Or.inr rfl) (by decide)]
    simp
  by_cases h₁₈ : a = 18
  · subst h₁₈
    rw [WriteAccepted, WriteAccepted, Rejected, Rejected, hother 17 (Or.inl rfl) (by decide)]
    simp
  · rw [WriteAccepted, WriteAccepted, Rejected, Rejected]
    simp [h₁₇, h₁₈]

theorem shortAddress_update (cvs : ℕ → UInt8) (value : UInt8) :
    shortAddress (Function.update (shortAddress (Function.update cvs 1 value)) 1 value) =
      shortAddress (Function.update cvs 1 value) := by
  have hbits (x : UInt8) : x &&& ~~~0b00100000 &&& ~~~0b00100000 = x &&& ~~~0b00100000 := by
    rw [UInt8.and_assoc, UInt8.and_self]
  funext n
  by_cases h₁₉ : n = 19
  · rw [h₁₉, shortAddress, shortAddress, Function.update_self, Function.update_self]
  by_cases h₂₉ : n = 29
  · rw [h₂₉]
    simp [shortAddress, hbits]
  by_cases h₁ : n = 1
  · rw [h₁]
    simp [shortAddress]
  · simp [shortAddress, h₁₉, h₂₉, h₁]

/-- Executed again, an instruction changes nothing. -/
theorem programmed_programmed (cvs₀ : ℕ → UInt8) (i : ServiceInstruction) :
    programmed (programmed cvs₀ i) i = programmed cvs₀ i := by
  cases i with
  | verifyByte a value => rfl
  | verifyBit a b v => rfl
  | writeBit a b v =>
    have hbit : setBit (setBit (cvs₀ a) b v) b v = setBit (cvs₀ a) b v := by
      refine eq_of_testBit fun k => ?_
      rw [testBit_setBit, testBit_setBit]
      split <;> rfl
    rw [programmed, programmed, Function.update_self, hbit, Function.update_idem]
  | writeByte a value =>
    by_cases ha : WriteAccepted cvs₀ a value
    · rw [programmed, if_pos (writeAccepted_programmed.mpr ha), programmed, if_pos ha]
      by_cases h₁ : a = 1
      · subst h₁
        rw [if_pos rfl, if_pos rfl, shortAddress_update]
      · rw [if_neg h₁, if_neg h₁, Function.update_idem]
    · rw [programmed, if_neg (mt writeAccepted_programmed.mp ha)]

/-- Nor does the answer change. -/
theorem answers_programmed : Answers (programmed cvs₀ i) i ↔ Answers cvs₀ i := by
  cases i with
  | writeByte a value => exact writeAccepted_programmed
  | _ => exact Iff.rfl

/-! ### Service mode -/

section Service

variable {T S : Type} [Store S] [ReliableStore S]

/-- An instruction does what the memory does. -/
theorem execute_instruction {s : S} (hs : Good s) (hi : 1 ≤ i.cvAddr ∧ i.cvAddr ≤ CV_SIZE)
    (hreboot : ¬ Reboots i) :
    ∃ r s', (executeServicePacket i.packet).run s = (r, s') ∧ r ≠ .error .panic ∧ Good s' ∧
      cvs s' = programmed (cvs s) i ∧ (r = .ok (some .acknowledgeCv) ↔ Answers (cvs s) i) := by
  have hchanges : Changes i.packet s (executeServicePacket i.packet) :=
    executeServicePacket_changes hs
  obtain ⟨r, s', hrun, hgood, -⟩ := hchanges
  have hcarries := i.carries_packet
  have hcompare {p : Prop} [Decidable p] : ((.ok (if p then some .acknowledgeCv else none) :
      Except (Fault HandlerError) (Option Op)) = .ok (some .acknowledgeCv) ↔ p) := by
    by_cases hp : p
    · simp [hp]
    · simp [hp]
  have hdone {r' : Except (Fault HandlerError) (Option Op)} {s'' : S}
      (h : (executeServicePacket i.packet).run s = (r', s'')) (hne : r' ≠ .error .panic)
      (hcvs : cvs s'' = programmed (cvs s) i)
      (hanswer : r' = .ok (some .acknowledgeCv) ↔ Answers (cvs s) i) :
      ∃ r s', (executeServicePacket i.packet).run s = (r, s') ∧ r ≠ .error .panic ∧ Good s' ∧
        cvs s' = programmed (cvs s) i ∧
        (r = .ok (some .acknowledgeCv) ↔ Answers (cvs s) i) := by
    rw [h, Prod.mk.injEq] at hrun
    exact ⟨r', s'', h, hne, hrun.2 ▸ hgood, hcvs, hanswer⟩
  cases i with
  | verifyByte a value =>
    refine hdone (execute_verifyByte hcarries hi.1 hi.2) (Fault.ok_ne_panic _) rfl ?_
    exact hcompare.trans eq_comm
  | verifyBit a b v =>
    exact hdone (execute_verifyBit hcarries hi.1 hi.2) (Fault.ok_ne_panic _) rfl hcompare
  | writeBit a b v =>
    obtain ⟨s₁, hrun₁, hcvs⟩ := run_writeBit hs hcarries hi.1 hi.2
    exact hdone hrun₁ (Fault.ok_ne_panic _) hcvs (iff_of_true rfl trivial)
  | writeByte a value =>
    by_cases ha : WriteAccepted (cvs s) a value
    · have hyes : Answers (cvs s) (.writeByte a value) := ha
      by_cases h₁ : a = 1
      · subst h₁
        obtain ⟨s₁, hrun₁, hcvs⟩ := run_writeByte_primary hs hcarries ha
        refine hdone hrun₁ (Fault.ok_ne_panic _) ?_ (iff_of_true rfl hyes)
        rw [hcvs, programmed, if_pos ha, if_pos rfl, shortAddress,
          Function.update_of_ne (show (29 : ℕ) ≠ 1 by decide)]
      · obtain ⟨s₁, hrun₁, hcvs⟩ := run_writeByte_plain hs hcarries hi.1 hi.2 h₁ ha
        refine hdone hrun₁ (Fault.ok_ne_panic _) ?_ (iff_of_true rfl hyes)
        rw [hcvs, programmed, if_pos ha, if_neg h₁]
    have hno : ¬ Answers (cvs s) (.writeByte a value) := ha
    have hsame : cvs s = programmed (cvs s) (.writeByte a value) := by rw [programmed, if_neg ha]
    rcases not_writeAccepted_iff.mp ha with hrejected | rfl | rfl | hignored
    · exact hdone (execute_writeByte_rejected hcarries hrejected) (Fault.error_ne_panic _) hsame
        (iff_of_false (fun hr => by cases hr) hno)
    · exact absurd (Or.inl rfl) hreboot
    · obtain ⟨s₁, hrun₁, hcvs⟩ := run_writeByte_id hs hcarries
      have hv : value ≠ 8 := fun hv => hreboot (Or.inr ⟨rfl, hv⟩)
      rw [if_neg hv] at hrun₁ hcvs
      exact hdone hrun₁ (Fault.ok_ne_panic _) (hcvs.trans hsame)
        (iff_of_false (fun hr => by cases hr) hno)
    · exact hdone (execute_writeByte_ignored hcarries hignored) (Fault.ok_ne_panic _) hsame
        (iff_of_false (fun hr => by cases hr) hno)

variable [Timer T]

/-- The packet as the Rust firmware decodes it. -/
def packetOf (i : ServiceInstruction) (a : Arrival) : Packet :=
  if a.copy then i.packet else resetPacket

/-- The handler hears the packets of an instruction; whether it acknowledges
one. -/
def hear (i : ServiceInstruction) (self : Handler T S) : List Arrival → Option (Bool × Handler T S)
  | [] => some (false, self)
  | a :: arrivals =>
    let c : Call := ⟨a.now, packetOf i a⟩
    (self.next c).bind fun self' =>
      (self'.hear i arrivals).map fun r =>
        (decide (self.result c = .ok (some .acknowledgeCv)) || r.1, r.2)

/-- The answer to an instruction. -/
def answer (self : Handler T S) (r : Repeated) : Option (Bool × Handler T S) :=
  self.hear r.instruction r.arrivals

variable [Stopwatch T]

/-- The handler is in service mode since `m`, with these CVs. -/
structure InService (m : ℕ) (cvs₀ : ℕ → UInt8) (handler : Handler T S) : Prop where
  mark : Stopwatch.mark handler.enterServiceModeTimer = some m
  good : Good handler.store
  content : cvs handler.store = cvs₀

variable {self self' : Handler T S} {m now : ℕ} {rest : List ℕ} {a : Arrival}
  {arrivals : List Arrival} {r : Except (Fault HandlerError) (Option Op)}

/-- A copy that comes in time is handled in service mode. -/
theorem serviceCall_packet (h : InService m cvs₀ self) (hlt : now < m + 20000)
    (i : ServiceInstruction) : self.ServiceCall ⟨now, i.packet⟩ := by
  obtain ⟨hle, -⟩ := i.first_fields
  have hcandidate : (i.packet.serviceModeCandidate : Except (Fault HandlerError) Bool) =
      .ok true := by
    show (.ok (decide (112 ≤ i.first ∧ i.first ≤ 127)) : Except (Fault HandlerError) Bool) = _
    rw [decide_eq_true hle]
  have hreset : i.packet.isReset = false := by
    have hne : i.first ≠ 0 := fun h0 => absurd (h0 ▸ hle.1) (by decide)
    show (i.first == 0 && _) = false
    rw [beq_false_of_ne hne, Bool.false_and]
  refine ⟨hreset, ?_⟩
  have htimeout : (now - m) / 1000 < SERVICE_MODE_TIMEOUT_MS := by
    rw [SERVICE_MODE_TIMEOUT_MS]
    omega
  rw [inServiceMode, Stopwatch.elapsedMs_eq, h.mark]
  simp only [Option.map_some, if_pos htimeout]
  exact hcandidate

theorem InService.started (h : InService m cvs₀ self) (now : ℕ) :
    InService now cvs₀ (self.startTimer now) :=
  ⟨Stopwatch.mark_start now _, h.good, h.content⟩

/-- What a packet of the programmer does. -/
inductive Arrives (i : ServiceInstruction) (cvs₀ : ℕ → UInt8) (self : Handler T S) (a : Arrival)
    (r : Except (Fault HandlerError) (Option Op)) (self' : Handler T S) : Prop
  | execute : a.copy = true → self.pendingServicePacket = some i.packet →
      InService a.now (programmed cvs₀ i) self' →
      (r = .ok (some .acknowledgeCv) ↔ Answers cvs₀ i) → Arrives i cvs₀ self a r self'
  | latch : a.copy = true → self.pendingServicePacket ≠ some i.packet →
      InService a.now cvs₀ self' → self'.pendingServicePacket = some i.packet →
      r ≠ .ok (some .acknowledgeCv) → Arrives i cvs₀ self a r self'
  | reset : a.copy = false → InService a.now cvs₀ self' →
      self'.pendingServicePacket = self.pendingServicePacket →
      r ≠ .ok (some .acknowledgeCv) → Arrives i cvs₀ self a r self'

theorem arrives (h : InService m cvs₀ self) (hlt : a.now < m + 20000)
    (hi : 1 ≤ i.cvAddr ∧ i.cvAddr ≤ CV_SIZE) (hreboot : ¬ Reboots i) :
    ∃ r self', (handle a.now (packetOf i a)).run self = (r, self') ∧ r ≠ .error .panic ∧
      Arrives i cvs₀ self a r self' := by
  cases hcopy : a.copy with
  | false =>
    rw [packetOf, hcopy, if_neg Bool.false_ne_true]
    exact ⟨.ok (some .reset), self.startTimer a.now, rfl, Fault.ok_ne_panic _,
      .reset hcopy (h.started a.now) rfl (fun hr => by cases hr)⟩
  | true =>
    have hservice := serviceCall_packet h hlt i
    have hrun := handle_of_serviceCall hservice
    simp only at hrun
    rw [packetOf, hcopy, if_pos rfl, hrun]
    by_cases hp : self.pendingServicePacket = some i.packet
    · obtain ⟨r, s', hexec, hne, hgood, hcvs, hanswer⟩ :=
        execute_instruction (s := self.store) h.good hi hreboot
      have hp' : (self.startTimer a.now).pendingServicePacket = some i.packet := hp
      rw [handleServiceMode_of_pending hp',
        show (self.startTimer a.now).store = self.store from rfl, hexec]
      rw [h.content] at hcvs hanswer
      exact ⟨r, _, rfl, hne, .execute hcopy hp ⟨Stopwatch.mark_start a.now _, hgood, hcvs⟩ hanswer⟩
    · have hp' : (self.startTimer a.now).pendingServicePacket ≠ some i.packet := hp
      rw [handleServiceMode, Proc.run_gets_bind, if_pos hp', Proc.run_modify_bind, Proc.run_pure]
      exact ⟨_, _, rfl, Fault.ok_ne_panic _, .latch hcopy hp
        ⟨Stopwatch.mark_start a.now _, h.good, h.content⟩ rfl (fun hr => by cases hr)⟩

/-- The packets are heard, and leave the handler in service mode with these CVs,
in time for the rest. -/
def Heard (x : Option (Bool × Handler T S)) (cvs₀ : ℕ → UInt8) (rest : List ℕ)
    (A : Bool → Prop) : Prop :=
  ∃ b self' m, x = some (b, self') ∧ InService m cvs₀ self' ∧ Prompt m rest ∧ A b

theorem Heard.cons {A A' : Bool → Prop}
    (hrun : (handle a.now (packetOf i a)).run self = (r, self')) (hne : r ≠ .error .panic)
    (h : Heard (self'.hear i arrivals) cvs₀ rest A)
    (hA : ∀ b, A b → A' (decide (r = .ok (some .acknowledgeCv)) || b)) :
    Heard (self.hear i (a :: arrivals)) cvs₀ rest A' := by
  obtain ⟨b, self'', m, hx, hin, hprompt, hb⟩ := h
  have hnext : self.next ⟨a.now, packetOf i a⟩ = some self' := by
    cases r with
    | ok op => simp only [next, hrun]
    | error e =>
      cases e with
      | panic => exact absurd rfl hne
      | error e => simp only [next, hrun]
  have hresult : self.result ⟨a.now, packetOf i a⟩ = r := congrArg Prod.fst hrun
  refine ⟨_, self'', m, ?_, hin, hprompt, hA b hb⟩
  rw [hear, hnext, Option.bind_some, hx, Option.map_some, hresult]

/-! ### The copies of an instruction -/

variable (hi : 1 ≤ i.cvAddr ∧ i.cvAddr ≤ CV_SIZE) (hreboot : ¬ Reboots i)

include hi hreboot

/-- An instruction that was executed already. -/
theorem hear_settled (hsettled : programmed cvs₀ i = cvs₀) (h : InService m cvs₀ self)
    (hprompt : Prompt m (arrivals.map Arrival.now ++ rest)) :
    Heard (self.hear i arrivals) cvs₀ rest fun b => b = true → Answers cvs₀ i := by
  induction arrivals generalizing self m with
  | nil => exact ⟨false, self, m, rfl, h, hprompt, fun hb => absurd hb Bool.false_ne_true⟩
  | cons a arrivals ih =>
    obtain ⟨hlt, hprompt⟩ := hprompt
    obtain ⟨r, self', hrun, hne, harrives⟩ := arrives h hlt hi hreboot
    have hquiet {b : Bool} (hr : r ≠ .ok (some .acknowledgeCv)) (hb : b = true → Answers cvs₀ i) :
        (decide (r = .ok (some .acknowledgeCv)) || b) = true → Answers cvs₀ i := by
      rwa [decide_eq_false hr, Bool.false_or]
    cases harrives with
    | execute hcopy hp hin hanswer =>
      rw [hsettled] at hin
      refine (ih hin hprompt).cons hrun hne fun b hb hor => ?_
      rcases Bool.or_eq_true_iff.mp hor with hr | hyes
      · exact hanswer.mp (of_decide_eq_true hr)
      · exact hb hyes
    | latch hcopy hp hin hp' hr => exact (ih hin hprompt).cons hrun hne fun _ => hquiet hr
    | reset hcopy hin hp hr => exact (ih hin hprompt).cons hrun hne fun _ => hquiet hr

/-- An instruction that is latched is executed with the next copy. -/
theorem hear_latched (h : InService m cvs₀ self)
    (hprompt : Prompt m (arrivals.map Arrival.now ++ rest))
    (hp : self.pendingServicePacket = some i.packet) (honce : 1 ≤ arrivals.countP Arrival.copy) :
    Heard (self.hear i arrivals) (programmed cvs₀ i) rest fun b => b = true ↔ Answers cvs₀ i := by
  induction arrivals generalizing self m with
  | nil => exact absurd honce (by decide)
  | cons a arrivals ih =>
    obtain ⟨hlt, hprompt⟩ := hprompt
    obtain ⟨r, self', hrun, hne, harrives⟩ := arrives h hlt hi hreboot
    cases harrives with
    | execute hcopy _ hin hanswer =>
      have hrest := hear_settled hi hreboot (programmed_programmed cvs₀ i) hin hprompt
      refine hrest.cons hrun hne fun b hb => ?_
      rw [answers_programmed] at hb
      rw [Bool.or_eq_true, decide_eq_true_iff, hanswer]
      exact ⟨fun hor => hor.elim id hb, Or.inl⟩
    | latch hcopy hno hin hp' hr => exact absurd hp hno
    | reset hcopy hin hp' hr =>
      rw [List.countP_cons_of_neg (by rw [hcopy]; exact Bool.false_ne_true)] at honce
      refine (ih hin hprompt (hp'.trans hp) honce).cons hrun hne fun b hb => ?_
      rwa [decide_eq_false hr, Bool.false_or]

/-- Of two copies, one is executed. -/
theorem hear_twice (h : InService m cvs₀ self)
    (hprompt : Prompt m (arrivals.map Arrival.now ++ rest))
    (htwice : 2 ≤ arrivals.countP Arrival.copy) :
    Heard (self.hear i arrivals) (programmed cvs₀ i) rest fun b => b = true ↔ Answers cvs₀ i := by
  by_cases hp : self.pendingServicePacket = some i.packet
  · exact hear_latched hi hreboot h hprompt hp (Nat.le_of_succ_le htwice)
  induction arrivals generalizing self m with
  | nil => exact absurd htwice (by decide)
  | cons a arrivals ih =>
    obtain ⟨hlt, hprompt⟩ := hprompt
    obtain ⟨r, self', hrun, hne, harrives⟩ := arrives h hlt hi hreboot
    have hquiet {b : Bool} (hr : r ≠ .ok (some .acknowledgeCv))
        (hb : b = true ↔ Answers cvs₀ i) :
        (decide (r = .ok (some .acknowledgeCv)) || b) = true ↔ Answers cvs₀ i := by
      rwa [decide_eq_false hr, Bool.false_or]
    cases harrives with
    | execute hcopy hyes hin hanswer => exact absurd hyes hp
    | latch hcopy _ hin hp' hr =>
      rw [List.countP_cons_of_pos hcopy] at htwice
      exact (hear_latched hi hreboot hin hprompt hp' (Nat.le_of_succ_le_succ htwice)).cons
        hrun hne fun _ => hquiet hr
    | reset hcopy hin hp' hr =>
      rw [List.countP_cons_of_neg (by rw [hcopy]; exact Bool.false_ne_true)] at htwice
      exact (ih hin hprompt htwice (hp' ▸ hp)).cons hrun hne fun _ => hquiet hr

omit hi hreboot

/-! ### Sessions -/

/-- The memory after the instructions. -/
def contents (cvs₀ : ℕ → UInt8) (session : List Repeated) : ℕ → UInt8 :=
  session.foldl (fun cvs r => programmed cvs r.instruction) cvs₀

/-- The answers of the memory. -/
def answers : (ℕ → UInt8) → List Repeated → List Bool
  | _, [] => []
  | cvs, r :: session =>
    decide (Answers cvs r.instruction) :: answers (programmed cvs r.instruction) session

theorem observe_inService {session : List Repeated} (h : InService m cvs₀ self)
    (hprompt : Prompt m (times session)) (hreboot : ∀ r ∈ session, ¬ Reboots r.instruction) :
    ∃ self' m', observe answer self session = some (answers cvs₀ session, self') ∧
      InService m' (contents cvs₀ session) self' := by
  induction session generalizing self m cvs₀ with
  | nil => exact ⟨self, m, rfl, h⟩
  | cons r session ih =>
    have hprompt' : Prompt m (r.arrivals.map Arrival.now ++ times session) := hprompt
    obtain ⟨b, self₁, m₁, hhear, h₁, hprompt₁, hb⟩ :=
      hear_twice r.cvAddr_mem (hreboot r List.mem_cons_self) h hprompt' r.twice
    obtain ⟨self', m', hobserve, h'⟩ :=
      ih h₁ hprompt₁ fun r' hr' => hreboot r' (List.mem_cons_of_mem r hr')
    have hb' : b = decide (Answers cvs₀ r.instruction) := by
      rw [Bool.eq_iff_iff, hb, decide_eq_true_iff]
    refine ⟨self', m', ?_, h'⟩
    rw [observe, answer, hhear, Option.bind_some, hobserve, Option.map_some, hb']
    rfl

/-- **Service mode is a memory of CVs.**  Behind a reset packet, and over a
reliable store, every sequence of instructions that ask for no reboot, each sent
at least twice, with reset packets in between at will and the packets less than
20 ms apart, is acknowledged as the memory answers, and leaves the CVs of the
memory. -/
theorem observe_service {session : List Repeated} (hs : Good self.store)
    (hprompt : Prompt now (times session)) (hreboot : ∀ r ∈ session, ¬ Reboots r.instruction) :
    ∃ self₁ self', self.next ⟨now, resetPacket⟩ = some self₁ ∧
      observe answer self₁ session = some (answers (cvs self.store) session, self') ∧
      Good self'.store ∧ cvs self'.store = contents (cvs self.store) session := by
  have h : InService now (cvs self.store) (self.startTimer now) :=
    ⟨Stopwatch.mark_start now _, hs, rfl⟩
  obtain ⟨self', m', hobserve, h'⟩ := observe_inService h hprompt hreboot
  exact ⟨self.startTimer now, self', rfl, hobserve, h'.good, h'.content⟩

end Service

end Handler

/-! ### The C firmware -/

namespace Core0

variable {board : Board} {cvs₀ : ℕ → UInt8} {core core' : Core0} {i : ServiceInstruction}
  {a : Arrival} {arrivals : List Arrival}

/-- The packet as it stands in the array of the C firmware. -/
def messageOf (i : ServiceInstruction) (a : Arrival) : Message :=
  if a.copy then
    ⟨(i.bytes ++ [checksum i.bytes]).reverse, a.outside⟩
  else ⟨[0, 0, 0], a.outside⟩

/-- The firmware hears the packets of an instruction; whether it acknowledges
one. -/
def hear (board : Board) (i : ServiceInstruction) (self : Core0) :
    List Arrival → Option (Bool × Core0)
  | [] => some (false, self)
  | a :: arrivals =>
    (self.next board (messageOf i a, a.overallAvgOffset)).bind fun self' =>
      (self'.hear board i arrivals).map fun r =>
        (decide (self.acknowledged < self'.acknowledged) || r.1, r.2)

/-- The answer to an instruction. -/
def answerTo (board : Board) (self : Core0) (r : Repeated) : Option (Bool × Core0) :=
  self.hear board r.instruction r.arrivals

/-- Neither a service packet nor a reset packet is for the decoder. -/
def Separate (cvs : ℕ → UInt8) : Prop :=
  cvs 29 &&& 0b00100000 = 0 → cvs 1 ≠ 0 ∧ ¬ (112 ≤ cvs 1 ∧ cvs 1 ≤ 127)

instance (cvs : ℕ → UInt8) : Decidable (Separate cvs) := by
  unfold Separate
  infer_instance

theorem Separate.apart (h : Separate cvs₀) : Apart cvs₀ := fun hbit => (h hbit).2

theorem not_addressed_reset (h : SameCvs core.cv cvs₀) (hseparate : Separate cvs₀)
    (outside : ℤ → UInt8) : core.addressed ⟨[0, 0, 0], outside⟩ = false := by
  have h₂₉ : core.cv 29 = cvs₀ 29 := h ⟨by decide, by decide⟩
  have h₁ : core.cv 1 = cvs₀ 1 := h ⟨by decide, by decide⟩
  show Rp2040.addressEvaluation core.cvArrayFlash 3 [0, 0, 0] = false
  rw [Rp2040.addressEvaluation, if_neg (by decide),
    show core.cvArrayFlash 28 = cvs₀ 29 from h₂₉, show core.cvArrayFlash 0 = cvs₀ 1 from h₁]
  by_cases hbit : cvs₀ 29 &&& 0b00100000 = 0
  · rw [if_neg (not_not.mpr hbit), beq_eq_false_iff_ne]
    exact (hseparate hbit).1
  · rw [if_pos hbit]
    rfl

/-- A reset message in program mode changes nothing. -/
theorem next_reset (h : InProgramMode cvs₀ core) (hseparate : Separate cvs₀)
    (hcopy : a.copy = false) :
    ∃ core', core.next board (messageOf i a, a.overallAvgOffset) = some core' ∧
      InProgramMode cvs₀ core' ∧ core'.acknowledged = core.acknowledged := by
  have haddressed := not_addressed_reset h.content hseparate a.outside
  have hlen : 2 ≤ (⟨[0, 0, 0], a.outside⟩ : Message).length := show 2 ≤ 3 by decide
  obtain ⟨l, heval, -⟩ :=
    evaluatePacket_of_flag board a.overallAvgOffset hlen rfl haddressed h.flag
  rw [programMode_run_of_not_service board a.overallAvgOffset rfl] at heval
  rw [messageOf, hcopy, if_neg Bool.false_ne_true, next, heval]
  exact ⟨_, rfl, ⟨h.flag, h.faultless, h.content⟩, rfl⟩

/-- A copy is executed. -/
theorem next_copy (h : InProgramMode cvs₀ core) (hseparate : Separate cvs₀)
    (hi : 1 ≤ i.cvAddr ∧ i.cvAddr ≤ CV_SIZE) (hcopy : a.copy = true) :
    ∃ core', core.next board (messageOf i a, a.overallAvgOffset) = some core' ∧
      InProgramMode (programmed board a.overallAvgOffset cvs₀ i) core' ∧
      (core.acknowledged < core'.acknowledged ↔ Answers cvs₀ i) := by
  obtain ⟨core', hanswer, hmode⟩ :=
    @answer_sent board cvs₀ core h hseparate.apart ⟨i, hi, a.outside, a.overallAvgOffset⟩
  have hmessage : messageOf i a = (⟨i, hi, a.outside, a.overallAvgOffset⟩ : Sent).message := by
    rw [messageOf, hcopy, if_pos rfl]
    rfl
  rw [answer, Option.map_eq_some_iff] at hanswer
  obtain ⟨core₁, hnext, heq⟩ := hanswer
  obtain ⟨hack, rfl⟩ := Prod.mk.inj heq
  rw [hmessage]
  exact ⟨core₁, hnext, hmode, decide_eq_decide.mp hack⟩

theorem hear_cons {core₁ : Core0} {b : Bool}
    (hnext : core.next board (messageOf i a, a.overallAvgOffset) = some core₁)
    (hhear : core₁.hear board i arrivals = some (b, core')) :
    core.hear board i (a :: arrivals) =
      some (decide (core.acknowledged < core₁.acknowledged) || b, core') := by
  rw [hear, hnext, Option.bind_some, hhear, Option.map_some]

section Copies

variable {cvs₁ : ℕ → UInt8} (hi : 1 ≤ i.cvAddr ∧ i.cvAddr ≤ CV_SIZE)

include hi

/-- An instruction that was executed already. -/
theorem hear_settled
    (hsettled : ∀ overallAvgOffset, programmed board overallAvgOffset cvs₀ i = cvs₀)
    (hseparate : Separate cvs₀) (h : InProgramMode cvs₀ core) :
    ∃ b core', core.hear board i arrivals = some (b, core') ∧ InProgramMode cvs₀ core' ∧
      (b = true → Answers cvs₀ i) := by
  induction arrivals generalizing core with
  | nil => exact ⟨false, core, rfl, h, fun hb => absurd hb Bool.false_ne_true⟩
  | cons a arrivals ih =>
    obtain ⟨core₁, hnext, h₁, hack⟩ : ∃ core₁,
        core.next board (messageOf i a, a.overallAvgOffset) = some core₁ ∧
        InProgramMode cvs₀ core₁ ∧ (core.acknowledged < core₁.acknowledged → Answers cvs₀ i) := by
      cases hcopy : a.copy with
      | true =>
        obtain ⟨core₁, hnext, h₁, hack⟩ := next_copy h hseparate hi hcopy
        exact ⟨core₁, hnext, hsettled a.overallAvgOffset ▸ h₁, hack.mp⟩
      | false =>
        obtain ⟨core₁, hnext, h₁, hack⟩ := next_reset h hseparate hcopy
        exact ⟨core₁, hnext, h₁, fun hlt => absurd hack (Nat.ne_of_gt hlt)⟩
    obtain ⟨b, core', hhear, h', hb⟩ := ih h₁
    refine ⟨_, core', hear_cons hnext hhear, h', fun hor => ?_⟩
    rcases Bool.or_eq_true_iff.mp hor with hlt | hyes
    · exact hack (of_decide_eq_true hlt)
    · exact hb hyes

/-- The first copy is executed, and the others change nothing. -/
theorem hear_once
    (hprogrammed : ∀ overallAvgOffset, programmed board overallAvgOffset cvs₀ i = cvs₁)
    (hsettled : ∀ overallAvgOffset, programmed board overallAvgOffset cvs₁ i = cvs₁)
    (hanswers : Answers cvs₁ i ↔ Answers cvs₀ i) (hseparate : Separate cvs₀)
    (hseparate' : Separate cvs₁) (honce : 1 ≤ arrivals.countP Arrival.copy)
    (h : InProgramMode cvs₀ core) :
    ∃ b core', core.hear board i arrivals = some (b, core') ∧ InProgramMode cvs₁ core' ∧
      (b = true ↔ Answers cvs₀ i) := by
  induction arrivals generalizing core with
  | nil => exact absurd honce (by decide)
  | cons a arrivals ih =>
    cases hcopy : a.copy with
    | true =>
      obtain ⟨core₁, hnext, h₁, hack⟩ := next_copy h hseparate hi hcopy
      rw [hprogrammed] at h₁
      obtain ⟨b, core', hhear, h', hb⟩ := hear_settled hi hsettled hseparate' h₁
      refine ⟨_, core', hear_cons hnext hhear, h', ?_⟩
      rw [hanswers] at hb
      rw [Bool.or_eq_true, decide_eq_true_iff, hack]
      exact ⟨fun hor => hor.elim id hb, Or.inl⟩
    | false =>
      obtain ⟨core₁, hnext, h₁, hack⟩ := next_reset h hseparate hcopy
      rw [List.countP_cons_of_neg (by rw [hcopy]; exact Bool.false_ne_true)] at honce
      obtain ⟨b, core', hhear, h', hb⟩ := ih honce h₁
      refine ⟨_, core', hear_cons hnext hhear, h', ?_⟩
      rwa [hack, decide_eq_false (Nat.lt_irrefl _), Bool.false_or]

end Copies

end Core0

/-! ### Side by side -/

/-- Both firmwares do the same with the instruction: it is no write of a bit,
nor one that asks the Rust firmware for a reboot, nor one of CV1 that clears the
consist or the long address. -/
def Alike (cvs : ℕ → UInt8) : ServiceInstruction → Prop
  | .writeByte a value =>
    ¬ Handler.Reboots (.writeByte a value) ∧
      (a = 1 → cvs 19 = 0 ∧ cvs 29 &&& 0b00100000 = 0)
  | .writeBit _ _ _ => False
  | _ => True

instance decidableAlike (cvs : ℕ → UInt8) : ∀ i, Decidable (Alike cvs i)
  | .writeByte a value => inferInstanceAs (Decidable (¬ Handler.Reboots (.writeByte a value) ∧
      (a = 1 → cvs 19 = 0 ∧ cvs 29 &&& 0b00100000 = 0)))
  | .verifyByte _ _ => isTrue trivial
  | .verifyBit _ _ _ => isTrue trivial
  | .writeBit _ _ _ => isFalse id

/-- All of the session is alike, and no packet of it is for the decoder. -/
def AllAlike : (ℕ → UInt8) → List Repeated → Prop
  | _, [] => True
  | cvs, r :: session =>
    Alike cvs r.instruction ∧ Core0.Separate (Handler.programmed cvs r.instruction) ∧
      AllAlike (Handler.programmed cvs r.instruction) session

instance decidableAllAlike : ∀ cvs session, Decidable (AllAlike cvs session)
  | _, [] => isTrue trivial
  | cvs, r :: session =>
    have := decidableAllAlike (Handler.programmed cvs r.instruction) session
    inferInstanceAs (Decidable (_ ∧ _ ∧ _))

section Alike

variable {board : Board} {overallAvgOffset : UInt8} {cvs₀ : ℕ → UInt8} {i : ServiceInstruction}

theorem Alike.not_reboots (h : Alike cvs₀ i) : ¬ Handler.Reboots i := by
  cases i with
  | writeByte a value => exact h.1
  | _ => exact id

theorem Alike.answers_iff (h : Alike cvs₀ i) : Core0.Answers cvs₀ i ↔ Handler.Answers cvs₀ i := by
  cases i with
  | writeBit a b v => exact h.elim
  | _ => exact Iff.rfl

/-- There is nothing to clear behind a write of CV1. -/
theorem shortAddress_of_clear (h₁₉ : cvs₀ 19 = 0) (h₂₉ : cvs₀ 29 &&& 0b00100000 = 0) :
    shortAddress cvs₀ = cvs₀ := by
  have hbits : ∀ x : Fin 256, UInt8.ofFin x &&& 0b00100000 = 0 →
      UInt8.ofFin x &&& ~~~0b00100000 = UInt8.ofFin x := by decide +kernel
  have hkept : cvs₀ 29 &&& ~~~0b00100000 = cvs₀ 29 := hbits (cvs₀ 29).toFin h₂₉
  rw [shortAddress, hkept, Function.update_eq_self, ← h₁₉, Function.update_eq_self]

theorem Alike.programmed_eq (h : Alike cvs₀ i) :
    Core0.programmed board overallAvgOffset cvs₀ i = Handler.programmed cvs₀ i := by
  cases i with
  | writeBit a b v => exact h.elim
  | writeByte a value =>
    obtain ⟨hreboot, hclear⟩ := h
    have h₇ : ¬ (a = 7 ∧ value = 7) := fun h₇ => hreboot (Or.inl h₇.1)
    have h₈ : ¬ (a = 8 ∧ value = 8) := fun h₈ => hreboot (Or.inr h₈)
    rw [Core0.programmed, if_neg h₇, if_neg h₈, Handler.programmed]
    by_cases h₁ : a = 1
    · subst h₁
      obtain ⟨h₁₉, h₂₉⟩ := hclear rfl
      rw [if_pos rfl, shortAddress_of_clear]
      · rwa [Function.update_of_ne (by decide)]
      · rwa [Function.update_of_ne (by decide)]
    · rw [if_neg h₁]
  | _ => rfl

theorem Alike.programmed (h : Alike cvs₀ i) : Alike (Handler.programmed cvs₀ i) i := by
  cases i with
  | writeByte a value =>
    refine ⟨h.1, ?_⟩
    rintro rfl
    obtain ⟨h₁₉, h₂₉⟩ := h.2 rfl
    rw [Handler.programmed, if_pos rfl]
    split
    · have hbits (x : UInt8) : x &&& ~~~0b00100000 &&& 0b00100000 = 0 := by
        rw [UInt8.and_assoc]
        exact UInt8.and_zero
      refine ⟨Function.update_self _ _ _, ?_⟩
      rw [shortAddress, Function.update_of_ne (by decide), Function.update_self, hbits]
    · exact ⟨h₁₉, h₂₉⟩
  | _ => exact h

variable {T S : Type} [Timer T] [Store S] [ReliableStore S] [Stopwatch T] {self : Handler T S}
  {m now : ℕ} {core : Core0}

/-- In service mode and in program mode, both firmwares answer alike. -/
theorem observe_both {session : List Repeated} (h : Handler.InService m cvs₀ self)
    (hcore : Core0.InProgramMode cvs₀ core) (hprompt : Prompt m (times session))
    (hseparate : Core0.Separate cvs₀) (halike : AllAlike cvs₀ session) :
    ∃ bits self' core', observe Handler.answer self session = some (bits, self') ∧
      observe (Core0.answerTo board) core session = some (bits, core') ∧
      SameCvs core'.cv (cvs self'.store) := by
  induction session generalizing self core m cvs₀ with
  | nil => exact ⟨[], self, core, rfl, rfl, h.content ▸ hcore.content⟩
  | cons r session ih =>
    obtain ⟨hr, hseparate', halike'⟩ := halike
    have hprompt' : Prompt m (r.arrivals.map Arrival.now ++ times session) := hprompt
    obtain ⟨b, self₁, m₁, hhear, h₁, hprompt₁, hb⟩ :=
      Handler.hear_twice r.cvAddr_mem hr.not_reboots h hprompt' r.twice
    -- executed again, the instruction changes nothing in either firmware
    have hsettled (overallAvgOffset : UInt8) : Core0.programmed board overallAvgOffset
        (Handler.programmed cvs₀ r.instruction) r.instruction =
          Handler.programmed cvs₀ r.instruction :=
      hr.programmed.programmed_eq.trans (Handler.programmed_programmed cvs₀ r.instruction)
    have hanswers : Core0.Answers (Handler.programmed cvs₀ r.instruction) r.instruction ↔
        Core0.Answers cvs₀ r.instruction := by
      rw [hr.programmed.answers_iff, hr.answers_iff, Handler.answers_programmed]
    obtain ⟨b', core₁, hhear', hcore₁, hb'⟩ := Core0.hear_once r.cvAddr_mem
      (fun _ => hr.programmed_eq) hsettled hanswers hseparate hseparate'
      (Nat.le_of_succ_le r.twice) hcore
    obtain rfl : b' = b := by rw [Bool.eq_iff_iff, hb', hb, hr.answers_iff]
    obtain ⟨bits, self', core', hobserve, hobserve', hsame⟩ :=
      ih h₁ hcore₁ hprompt₁ hseparate' halike'
    refine ⟨b' :: bits, self', core', ?_, ?_, hsame⟩
    · rw [observe, Handler.answer, hhear, Option.bind_some, hobserve, Option.map_some]
    · rw [observe, Core0.answerTo, hhear', Option.bind_some, hobserve', Option.map_some]

end Alike

/-! ### A session -/

def copyAt (now : ℕ) : Arrival := ⟨true, now, fun _ => 0, 0⟩

def resetAt (now : ℕ) : Arrival := ⟨false, now, fun _ => 0, 0⟩

/-- CV3 is set to 42 and a bit of it is verified, and the address is set to 5. -/
def programmingSession : List Repeated :=
  [⟨.writeByte 3 42, by decide, [copyAt 1000, resetAt 2000, copyAt 3000], by decide⟩,
    ⟨.verifyBit 3 (Fin.last 7) false, by decide, [copyAt 4000, copyAt 5000, copyAt 6000],
      by decide⟩,
    ⟨.writeByte 1 5, by decide, [copyAt 7000, copyAt 8000, resetAt 9000], by decide⟩]

/-- The decoder with the factory defaults. -/
def freshHandler : Handler IdealTimer (Flash .release) :=
  .new (⟨none⟩ : IdealTimer) Flash.defaultFlash

theorem prompt_session : Prompt 0 (times programmingSession) := by decide +kernel

theorem allAlike_session : AllAlike (cvs freshHandler.store) programmingSession := by
  decide +kernel

namespace Handler

/-- The Rust firmware acknowledges all three. -/
theorem observe_service_session : ∃ self₁ self', freshHandler.next ⟨0, resetPacket⟩ = some self₁ ∧
    observe answer self₁ programmingSession = some ([true, true, true], self') ∧
    cvs self'.store 1 = 5 := by
  have hgood : Good freshHandler.store := fun _ => rfl
  obtain ⟨self₁, self', hnext, hobserve, -, hcvs⟩ :=
    observe_service hgood prompt_session (by decide +kernel)
  have hanswers : answers (cvs freshHandler.store) programmingSession = [true, true, true] := by
    decide +kernel
  have haddress : contents (cvs freshHandler.store) programmingSession 1 = 5 := by decide +kernel
  exact ⟨self₁, self', hnext, hanswers ▸ hobserve, hcvs ▸ haddress⟩

end Handler

end Rp2040
