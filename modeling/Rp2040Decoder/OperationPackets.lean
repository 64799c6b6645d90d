/-
A packet of the operations mode in both firmwares (`Handler::handle` in
`dcc/src/handler.rs` and `evaluate_packet` in `Software/core0.c`).

Outside the service mode a packet for the decoder is an operation, and a packet
for another one is nothing.

* `operation_eq` — a packet with its data byte is the same operation in both;
* `operation_of_next` — what the Rust handler makes of a packet;
* `evaluated_operation` — what the C firmware makes of it.
-/
import Mathlib.Data.List.Perm.Basic
import Rp2040Decoder.Broadcast
import Rp2040Decoder.Core0Outputs
import Rp2040Decoder.FunctionCommands
import Rp2040Decoder.HandlerSafety
import Rp2040Decoder.PacketHandler

namespace Rp2040

open Core0 Handler

/-! ### The operation of a packet -/

/-- The operation of a packet for the decoder; an error is only logged. -/
def Packet.op (self : Packet) : Option Op :=
  match handleCommand self with
  | .ok op => op
  | .error _ => none

/-- The operation of a command and the byte after it. -/
def parsedOp (first : UInt8) (second : Option UInt8) : Option Op :=
  if first = 0b00111111 then second.map fun b => .velocity128 (speedStepControl b)
  else (parsedGroup first second).map .setFunctions

/-- The speed the C firmware takes from the packet. -/
def writtenSpeed (packet : Message) : Option UInt8 :=
  if packet.command = 0b00111111 then some (packet.get (packet.commandIndex - 1)) else none

theorem speed_command_iff {first : UInt8} :
    first >>> 5 = 0b001 ∧ first &&& 0b00011111 = 0b11111 ↔ first = 0b00111111 := by
  have hall : ∀ c : Fin 256, UInt8.ofFin c >>> 5 = 0b001 ∧
      UInt8.ofFin c &&& 0b00011111 = 0b11111 ↔ UInt8.ofFin c = 0b00111111 := by decide +kernel
  exact hall first.toFin

theorem op_eq {packet : Packet} {n : ℕ} {first : UInt8} {rest : List UInt8}
    (hlen : packet.addressLength = .ok n) (hdata : packet.data.drop n = first :: rest) :
    packet.op = parsedOp first rest.head? := by
  unfold Packet.op handleCommand OperationModeInstruction.tryFrom parsedOp parsedGroup
  rw [hlen]
  simp only [bind, Except.bind]
  rw [hdata]
  simp only
  by_cases h₁ : first >>> 5 = 0b001
  · rw [h₁]
    simp only
    by_cases hspeed : first &&& 0b00011111 = 0b11111
    · rw [if_pos hspeed, if_pos (speed_command_iff.mp ⟨h₁, hspeed⟩)]
      cases rest with
      | nil => rfl
      | cons second rest => rfl
    · rw [if_neg hspeed, if_neg fun h => hspeed (speed_command_iff.mpr h).2]
      rfl
  rw [if_neg fun h => h₁ (speed_command_iff.mpr h).1]
  by_cases h₄ : first >>> 5 = 0b100
  · rw [h₄]
    rfl
  by_cases h₅ : first >>> 5 = 0b101
  · rw [h₅]
    rfl
  by_cases h₆ : first >>> 5 = 0b110
  · rw [h₆]
    cases rest with
    | nil => rfl
    | cons second rest =>
      simp only [List.head?_cons, Option.bind_some]
      cases parseFeatureExpansion first second <;> rfl
  · simp only
    rfl

namespace Received

variable {self : Received}

/-- The packet does not end where the data byte of its command should be. -/
def Complete (self : Received) : Prop :=
  match self.raw with
  | [d₀, command, _] => d₀ ≤ 127 → ¬ TakesData command
  | [d₀, _, command, _] => 192 ≤ d₀ → ¬ TakesData command
  | _ => True

instance : Decidable self.Complete := by
  unfold Complete
  split <;> infer_instance

/-- Both firmwares find the same command and data byte. -/
theorem exists_command (h : ¬ self.Accessory) : ∃ command data rest,
    self.message.command = command ∧
      self.message.get (self.message.commandIndex - 1) = data ∧
      self.packet.op = parsedOp command (data :: rest).dropLast.head? ∧
      (self.Complete → rest = [] → ¬ TakesData command) := by
  obtain ⟨d₀, d₁, d₂, rest, hraw, hdata, hle⟩ := decode_cases self.decoded
  have hmessage {k : ℕ} {command data : UInt8}
      (hindex : self.message.commandIndex = self.message.length - 1 - k)
      (hcommand : self.raw[k]? = some command) (hdata : self.raw[k + 1]? = some data) :
      self.message.command = command ∧
        self.message.get (self.message.commandIndex - 1) = data := by
    refine ⟨?_, ?_⟩
    · rw [Message.command, hindex, get_message hcommand]
    · rw [hindex, ← get_message hdata]
      congr 1
      omega
  by_cases hbasic : d₀ ≤ 127
  · have hshort : ¬ 192 ≤ d₀ := by
      simp only [UInt8.le_iff_toNat_le, UInt8.reduceToNat] at hbasic ⊢
      omega
    have hindex : self.message.commandIndex = self.message.length - 1 - (1 : ℕ) := by
      rw [Message.commandIndex, longAddress_message (by rw [hraw]; rfl), decide_eq_false hshort,
        if_neg Bool.false_ne_true]
      omega
    obtain ⟨hcommand, hget⟩ : self.message.command = d₁ ∧
        self.message.get (self.message.commandIndex - 1) = d₂ :=
      hmessage hindex (by rw [hraw]; rfl) (by rw [hraw]; rfl)
    refine ⟨d₁, d₂, rest, hcommand, hget, op_eq (n := 1) ?_ (by rw [hdata]; rfl), ?_⟩
    · rw [addressLength_cons hdata, if_pos hbasic]
    · rintro hcomplete rfl
      rw [Complete, hraw] at hcomplete
      exact hcomplete hbasic
  · have hlong : 192 ≤ d₀ := by
      by_contra hlt
      refine h ⟨d₀, by rw [hraw]; rfl, ?_⟩
      simp only [UInt8.le_iff_toNat_le, UInt8.reduceToNat] at hbasic hlt ⊢
      omega
    obtain ⟨b, hb, -, hlength⟩ := (accepted_of_decode self.decoded).1.address
    rw [hraw] at hb hlength
    obtain rfl : d₀ = b := Option.some.inj hb
    obtain ⟨d₃, rest, rfl⟩ := List.exists_cons_of_ne_nil (l := rest) fun hnil => by
      have hlen := hlength hlong
      simp [hnil] at hlen
    have hindex : self.message.commandIndex = self.message.length - 1 - (2 : ℕ) := by
      rw [Message.commandIndex, longAddress_message (by rw [hraw]; rfl), decide_eq_true hlong,
        if_pos rfl]
      omega
    obtain ⟨hcommand, hget⟩ : self.message.command = d₂ ∧
        self.message.get (self.message.commandIndex - 1) = d₃ :=
      hmessage hindex (by rw [hraw]; rfl) (by rw [hraw]; rfl)
    refine ⟨d₂, d₃, rest, hcommand, hget, op_eq (n := 2) ?_ (by rw [hdata]; rfl), ?_⟩
    · rw [addressLength_cons hdata, if_neg hbasic, if_pos ⟨hlong, hle⟩]
    · rintro hcomplete rfl
      rw [Complete, hraw] at hcomplete
      exact hcomplete hlong

/-- The operation is what the C firmware takes from the packet. -/
theorem operation_eq (h : ¬ self.Accessory) (hcomplete : self.Complete) :
    self.packet.op.bind Op.functionGroup = writtenGroup self.message ∧
      self.packet.op.bind Op.velocity = (writtenSpeed self.message).map speedStepControl := by
  obtain ⟨command, data, rest, hcommand, hget, hop, hfull⟩ := exists_command h
  have htakes := hfull hcomplete
  rw [hop, writtenGroup, writtenSpeed, hcommand, hget, parsedOp]
  by_cases hspeed : command = 0b00111111
  · -- a velocity, which has its data byte
    obtain ⟨b, rest, rfl⟩ := List.exists_cons_of_ne_nil fun hnil => htakes hnil (Or.inl hspeed)
    rw [if_pos hspeed, if_pos hspeed, commandGroup, if_pos hspeed]
    exact ⟨rfl, rfl⟩
  · have hgroup : commandGroup command data = parsedGroup command (data :: rest).dropLast.head? :=
      commandGroup_eq data fun hnil hexpands => htakes hnil (Or.inr hexpands)
    rw [if_neg hspeed, if_neg hspeed, hgroup]
    cases parsedGroup command (data :: rest).dropLast.head? <;> exact ⟨rfl, rfl⟩

theorem isReset_message : self.message.isReset = self.packet.isReset := by
  obtain ⟨d₀, d₁, d₂, rest, hraw, hdata, -⟩ := decode_cases self.decoded
  have hfirst : self.message.get ((self.message.length : ℤ) - 1) = d₀ := by
    simpa using get_message (k := 0) (b := d₀) (by rw [hraw]; rfl)
  have hsecond : self.message.get ((self.message.length : ℤ) - 2) = d₁ := by
    rw [← get_message (k := 1) (b := d₁) (by rw [hraw]; rfl)]
    congr 1
    omega
  rw [Message.isReset, hfirst, hsecond, Packet.isReset, hdata]

theorem length_message : 3 ≤ self.message.length := by
  have hlen : self.message.length = self.raw.length := List.length_reverse
  rw [hlen]
  exact (accepted_of_decode self.decoded).1.length.1

/-- The checksum does not depend on the order of the bytes. -/
theorem errorDetection_message : errorDetection self.message = true := by
  have hsum : self.raw.foldl (· ^^^ ·) 0 = 0 := (accepted_of_decode self.decoded).1.checksum
  rw [errorDetection, message, beq_iff_eq, (List.reverse_perm self.raw).foldl_eq, hsum]

end Received

/-! ### The Rust firmware -/

namespace Handler

variable {S : Type} [Store S] [ReadableStore S] {self self' : Handler InstantTimer S} {c : Call}

theorem isBroadcast_eq_false {ε : Type} {packet : Packet} (h : Decoded packet) :
    (isBroadcast packet : Except (Fault ε) Bool) = .ok false := by
  have hne := isBroadcast_ne (ε := ε) packet
  have hpanic := isBroadcast_ne_panic (ε := ε) h
  cases hb : (isBroadcast packet : Except (Fault ε) Bool) with
  | ok b =>
    cases b with
    | true => exact absurd hb hne
    | false => rfl
  | error e => exact absurd (by rw [hb, panic_of_isBroadcast hb]) hpanic

omit [ReadableStore S] in
/-- While its timer has not been started the handler stays out of the service
mode, and a packet is an operation or nothing. -/
theorem operation_of_next (hmark : self.enterServiceModeTimer = ⟨none⟩) (hd : Decoded c.packet)
    (hreset : c.packet.isReset = false) (h : self.next c = some self') :
    self'.store = self.store ∧ self'.enterServiceModeTimer = ⟨none⟩ ∧
      ∃ b, (isRecipient c.packet self.store : Except (Fault HandlerError) Bool) = .ok b ∧
        self.result c = if b then handleCommand c.packet else .ok none := by
  have hstopped (packet : Packet) : self.inServiceMode c.now packet = .ok false := by
    rw [inServiceMode, hmark]
    rfl
  have hservice : ¬ self.ServiceCall c := by
    rintro ⟨-, hyes⟩
    rw [hstopped] at hyes
    cases hyes
  have hresult : ∀ b, (isRecipient c.packet self.store : Except (Fault HandlerError) Bool) = .ok b →
      self.result c = if b then handleCommand c.packet else .ok none := by
    intro b hb
    rw [result, handle, if_neg (by rw [hreset]; exact Bool.false_ne_true),
      Proc.run_read_bind (hstopped c.packet), if_neg Bool.false_ne_true,
      Proc.run_read_bind (f := fun self : Handler InstantTimer S => isRecipient c.packet self.store)
        hb]
    cases b with
    | true => rw [if_pos rfl, if_pos rfl, Proc.run_modify_bind, Proc.run_ofResult, mapError_id]
    | false =>
      rw [if_neg Bool.false_ne_true, if_neg Bool.false_ne_true,
        Proc.run_read_bind (f := fun _ => isBroadcast c.packet) (isBroadcast_eq_false hd),
        if_neg Bool.false_ne_true, Proc.run_pure]
  -- the timer is stopped or left alone
  have hstep := step_of_next h
  generalize self.result c = r at hstep hresult
  cases hstep with
  | reset hyes =>
    rw [hreset] at hyes
    cases hyes
  | latch hyes hp => exact absurd hyes hservice
  | execute hexec hrun => exact absurd hexec.1 hservice
  | command hno hrecipient hr => exact ⟨rfl, rfl, true, hrecipient, hresult true hrecipient⟩
  | foreign hno hno' hrecipient hr =>
    exact ⟨rfl, hmark, false, hrecipient, hresult false hrecipient⟩

end Handler

/-! ### The C firmware -/

namespace Core0

variable {self : Core0} {board : Board} {packet : Message}

/-- The speed targets, which core 1 reads. -/
def targets (self : Core0) : UInt8 × UInt8 := (self.speedStepTarget, self.speedStepTargetPrev)

theorem targets_updateActiveFunctions (mask : UInt32) (clrBitInd : Fin 6)
    (directionChange : Bool) :
    (self.updateActiveFunctions board mask clrBitInd directionChange).targets = self.targets := by
  rw [updateActiveFunctions]
  split
  · rfl
  · simp only
    split <;> rfl

theorem targets_functionGroupInstruction (command : UInt8) :
    (functionGroupInstruction board command self).targets = self.targets := by
  unfold functionGroupInstruction
  split <;> exact targets_updateActiveFunctions _ _ _

theorem targets_setTarget (target : UInt8) :
    (self.setTarget board target).targets = (target, self.speedStepTarget) := by
  rw [setTarget]
  simp only
  split
  · exact targets_updateActiveFunctions _ _ _
  · rfl

/-- Only a velocity changes the speed targets. -/
theorem targets_instructionEvaluation :
    ((instructionEvaluation board packet).run self).2.targets =
      ((writtenSpeed packet).map fun b => (b, self.speedStepTarget)).getD self.targets := by
  rw [instructionEvaluation, run_isLongAddress_bind, writtenSpeed]
  have hindex : (if packet.longAddress = true then ((packet.length : ℤ) - 3)
      else packet.length - 2) = packet.commandIndex := rfl
  simp only [hindex, run_byteAt_log, List.singleton_append]
  rw [show packet.get packet.commandIndex = packet.command from rfl]
  generalize packet.command = command
  by_cases h₁ : command = 0b00111111
  · rw [if_pos h₁, if_pos h₁, run_byteAt_log]
    exact @targets_setTarget
      (log [packet.length - 1, packet.commandIndex, packet.commandIndex - 1] self) board
      (packet.get (packet.commandIndex - 1))
  rw [if_neg h₁, if_neg h₁, Option.map_none, Option.getD_none]
  by_cases h₂ : command >>> 6 = 0b00000010
  · rw [if_pos h₂]
    exact targets_functionGroupInstruction command
  rw [if_neg h₂]
  by_cases h₃ : command >>> 5 = 0b00000110
  · rw [if_pos h₃]
    split
    · exact targets_updateActiveFunctions _ _ _
    · exact targets_updateActiveFunctions _ _ _
    · exact targets_updateActiveFunctions _ _ _
    · rfl
  · rw [if_neg h₃]
    rfl

theorem speedStepTarget_instructionEvaluation :
    ((instructionEvaluation board packet).run self).2.speedStepTarget =
      (writtenSpeed packet).getD self.speedStepTarget := by
  have htargets := congrArg Prod.fst (@targets_instructionEvaluation self board packet)
  cases hspeed : writtenSpeed packet <;> rw [hspeed] at htargets <;> exact htargets

theorem targets_resetMessageCheck :
    ((resetMessageCheck board packet).run self).2.targets =
      if packet.isReset then (self.emergencyStop, self.speedStepTarget) else self.targets := by
  rw [resetMessageCheck, run_byteAt_bind, Message.isReset]
  by_cases hfirst : packet.get (packet.length - 1) = 0
  · rw [if_pos hfirst, hfirst, run_byteAt_log]
    by_cases hsecond : packet.get (packet.length - 2) = 0
    · rw [if_pos hsecond, hsecond]
      exact targets_updateActiveFunctions _ _ _
    · rw [if_neg hsecond, beq_false_of_ne hsecond]
      rfl
  · rw [if_neg hfirst, beq_false_of_ne hfirst]
    rfl

theorem unprogrammed_targets : Unprogrammed targets := ⟨fun _ _ => rfl, fun _ _ => rfl⟩

/-- A packet brings a target, which replaces the one of before and is not
acknowledged, or it leaves the targets as they are. -/
theorem targets_evaluatePacket (overallAvgOffset : UInt8) (hlen : 2 ≤ packet.length)
    {self' : Core0} (h : ((evaluatePacket board overallAvgOffset packet).run self).2 = self') :
    self'.targets = self.targets ∨ ∃ b, (b = self.emergencyStop ∨ writtenSpeed packet = some b) ∧
      self'.targets = (b, self.speedStepTarget) ∧ self'.acknowledged = self.acknowledged := by
  cases hsum : errorDetection packet with
  | false =>
    rw [evaluatePacket, hsum] at h
    exact Or.inl (congrArg targets h.symm)
  | true =>
    obtain ⟨l, haddr, -⟩ := addressEvaluation_run self hlen
    rw [evaluatePacket, if_pos hsum, Proc.run_bind_of_ok haddr] at h
    split at h
    · rw [Proc.run_modify_bind] at h
      obtain ⟨s, hrun, hbut, -⟩ := instructionEvaluation_run board packet
        { log l self with resetMessageFlag := false }
      have htargets := @targets_instructionEvaluation
        { log l self with resetMessageFlag := false } board packet
      rw [hrun] at h htargets
      obtain rfl : s = self' := h
      cases hspeed : writtenSpeed packet with
      | none =>
        rw [hspeed] at htargets
        exact Or.inl htargets
      | some b =>
        rw [hspeed] at htargets
        exact Or.inr ⟨b, Or.inr rfl, htargets, hbut.acknowledged⟩
    · rw [Proc.run_gets_bind] at h
      split at h
      · refine Or.inl ?_
        rw [← h]
        exact programMode_keeps unprogrammed_targets board overallAvgOffset
      · obtain ⟨l', s, hrun, hbut, -⟩ := resetMessageCheck_run board packet (log l self)
        have htargets := @targets_resetMessageCheck (log l self) board packet
        rw [Proc.run_bind_of_ok hrun] at h
        rw [hrun] at htargets
        rw [← h]
        cases hreset : packet.isReset with
        | false =>
          rw [hreset, if_neg Bool.false_ne_true] at htargets
          exact Or.inl htargets
        | true =>
          rw [hreset, if_pos rfl] at htargets
          exact Or.inr ⟨_, Or.inl rfl, htargets, hbut.acknowledged⟩

/-- What the evaluation of an operation has done. -/
structure Evaluated (board : Board) (packet : Message) (s s' : Core0) : Prop where
  flash : s'.flash = s.flash
  resetMessageFlag : s'.resetMessageFlag = false
  shown : s.Shown board → s'.Shown board
  activeFunctions : s'.activeFunctions =
    if s.addressed packet then writeGroup (writtenGroup packet) s.activeFunctions
    else s.activeFunctions
  speedStepTarget : s'.speedStepTarget =
    if s.addressed packet then (writtenSpeed packet).getD s.speedStepTarget
    else s.speedStepTarget

/-- A packet that is no reset message is executed if it is for the decoder. -/
theorem evaluated_operation (overallAvgOffset : UInt8) (hlen : 2 ≤ packet.length)
    (hsum : errorDetection packet = true) (hflag : self.resetMessageFlag = false)
    (hreset : packet.isReset = false) :
    Evaluated board packet self ((evaluatePacket board overallAvgOffset packet).run self).2 := by
  obtain ⟨l, haddr, -⟩ := addressEvaluation_run self hlen
  rw [evaluatePacket, if_pos hsum, Proc.run_bind_of_ok haddr,
    show Rp2040.addressEvaluation _ _ _ = self.addressed packet from rfl]
  cases haddressed : self.addressed packet with
  | true =>
    rw [if_pos rfl, Proc.run_modify_bind]
    obtain ⟨self', hrun, hbut, hactive⟩ := instructionEvaluation_run board packet
      { log l self with resetMessageFlag := false }
    have hshown : Proc.Preserves (Shown board) (instructionEvaluation board packet) :=
      shown_instructionEvaluation
    have hspeed := @speedStepTarget_instructionEvaluation
      { log l self with resetMessageFlag := false } board packet
    have hshown' := hshown { log l self with resetMessageFlag := false }
    rw [hrun] at hspeed hshown' ⊢
    refine ⟨hbut.flash, hbut.resetMessageFlag, fun hs => hshown' ((hs.log l).flag false), ?_, ?_⟩
    · rw [haddressed, if_pos rfl]
      exact hactive
    · rw [haddressed, if_pos rfl]
      exact hspeed
  | false =>
    rw [if_neg Bool.false_ne_true, Proc.run_gets_bind, id, log_resetMessageFlag, hflag,
      if_neg Bool.false_ne_true]
    obtain ⟨l', hrun⟩ : ∃ l', (resetMessageCheck board packet).run (log l self) =
        (.ok false, log l' self) := by
      rw [Message.isReset] at hreset
      rw [resetMessageCheck, run_byteAt_log]
      by_cases hfirst : packet.get (packet.length - 1) = 0
      · have hsecond : packet.get (packet.length - 2) ≠ 0 := by
          intro hsecond
          rw [hfirst, hsecond] at hreset
          cases hreset
        rw [if_pos hfirst, run_byteAt_log, if_neg hsecond]
        exact ⟨_, rfl⟩
      · rw [if_neg hfirst]
        exact ⟨_, rfl⟩
    rw [Proc.run_bind_of_ok hrun]
    refine ⟨rfl, rfl, fun hs => (hs.log l').flag false, ?_, ?_⟩
    · rw [haddressed, if_neg Bool.false_ne_true]
      rfl
    · rw [haddressed, if_neg Bool.false_ne_true]
      rfl

end Core0

end Rp2040
