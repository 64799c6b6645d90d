/-
The function flags in both firmwares.

The Rust parser (`dcc/src/transport/packet.rs`) and the C function
`instruction_evaluation` read the same commands from packets stored in opposite
order.  They agree on every command and data byte; but the C function does not
look at the length, and takes the error detection byte for the data byte a
feature expansion lacks.

* `commandGroup_eq` — a command and its data byte mean the same in both;
* `writtenGroup_eq` — so does a packet that is not `Stray`;
* `functionFlags_agree_iff` — the flag words, over every sequence of packets.
-/
import Mathlib.Data.List.Induction
import Rp2040Decoder.Codec
import Rp2040Decoder.Core0Steps

namespace Rp2040

open Core0 Words

/-! ### Commands -/

/-- The group the Rust parser reads from a command and the byte after it. -/
def parsedGroup (first : UInt8) (second : Option UInt8) : Option FunctionGroup :=
  match first >>> 5 with
  | 0b100 => some (parseFg1 first)
  | 0b101 => some (parseFg2 first)
  | 0b110 => second.bind (parseFeatureExpansion first)
  | _ => none

/-- The feature expansions that carry functions. -/
def ExpandsFunctions (command : UInt8) : Prop :=
  command = 0b11011110 ∨ command = 0b11011111 ∨ command = 0b11011000

instance (command : UInt8) : Decidable (ExpandsFunctions command) := by
  unfold ExpandsFunctions
  infer_instance

theorem featureGroupOf_of_not_expands {command : UInt8} (h : ¬ ExpandsFunctions command)
    (data : UInt8) : featureGroupOf command data = none := by
  unfold featureGroupOf
  split
  · exact absurd (Or.inl rfl) h
  · exact absurd (Or.inr (Or.inl rfl)) h
  · exact absurd (Or.inr (Or.inr rfl)) h
  · rfl

theorem parseFeatureExpansion_of_not_expands {first : UInt8} (h : ¬ ExpandsFunctions first)
    (second : UInt8) : parseFeatureExpansion first second = none := by
  unfold parseFeatureExpansion
  split
  · exact absurd (Or.inl rfl) h
  · exact absurd (Or.inr (Or.inl rfl)) h
  · exact absurd (Or.inr (Or.inr rfl)) h
  · rfl

/-- A command without a data byte. -/
theorem commandGroup_of_not_expands {command : UInt8} (h : ¬ ExpandsFunctions command)
    (data : UInt8) (second : Option UInt8) :
    commandGroup command data = parsedGroup command second := by
  -- without a data byte there are 256 commands to compare
  have hall : ∀ c : Fin 256, ¬ ExpandsFunctions (UInt8.ofFin c) →
      commandGroup (UInt8.ofFin c) 0 = parsedGroup (UInt8.ofFin c) none := by decide +kernel
  have hdata : commandGroup command data = commandGroup command 0 := by
    rw [commandGroup, commandGroup, featureGroupOf_of_not_expands h,
      featureGroupOf_of_not_expands h]
  have hsecond : parsedGroup command second = parsedGroup command none := by
    have hbind : second.bind (parseFeatureExpansion command) = none := by
      cases second with
      | none => rfl
      | some second => exact parseFeatureExpansion_of_not_expands h second
    rw [parsedGroup, parsedGroup, hbind, Option.bind_none]
  rw [hdata, hsecond]
  exact hall command.toFin h

/-- A command and its data byte. -/
theorem commandGroup_of_expands {command : UInt8} (h : ExpandsFunctions command) (data : UInt8) :
    commandGroup command data = parsedGroup command (some data) := by
  have hlast : ∀ d : Fin 256, commandGroup 0b11011000 (UInt8.ofFin d) =
      parsedGroup 0b11011000 (some (UInt8.ofFin d)) := by decide +kernel
  rcases h with rfl | rfl | rfl
  · show some (groupOf _ 3) = some (FunctionGroup.new (functions 13 20) _)
    rw [show functions 13 20 = ~~~clrBitArr 3 by decide]
    rfl
  · show some (groupOf _ 4) = some (FunctionGroup.new (functions 21 28) _)
    rw [show functions 21 28 = ~~~clrBitArr 4 by decide]
    rfl
  · exact hlast data.toFin

/-- A command means the same in both firmwares, unless it lacks its data byte. -/
theorem commandGroup_eq {command : UInt8} (data : UInt8) {rest : List UInt8}
    (h : rest = [] → ¬ ExpandsFunctions command) :
    commandGroup command data = parsedGroup command (data :: rest).dropLast.head? := by
  by_cases hexpands : ExpandsFunctions command
  · obtain ⟨b, rest, rfl⟩ := List.exists_cons_of_ne_nil fun hnil => h hnil hexpands
    exact commandGroup_of_expands hexpands data
  · exact commandGroup_of_not_expands hexpands data _

/-! ### Packets -/

/-- The group of a packet, from the bytes after its address. -/
theorem carriedGroup_eq {packet : Packet} {n : ℕ} {first : UInt8} {rest : List UInt8}
    (hlen : packet.addressLength = .ok n) (hdata : packet.data.drop n = first :: rest) :
    carriedGroup packet = parsedGroup first rest.head? := by
  unfold carriedGroup OperationModeInstruction.tryFrom parsedGroup
  rw [hlen]
  simp only [bind, Except.bind]
  rw [hdata]
  simp only
  -- the speed instructions carry no group, even where they parse
  by_cases h₁ : first >>> 5 = 0b001
  · rw [h₁]
    simp only
    split
    · rename_i hok
      split at hok
      · cases rest <;> cases hok
      · cases hok
    · rfl
  by_cases h₄ : first >>> 5 = 0b100
  · rw [h₄]
    rfl
  by_cases h₅ : first >>> 5 = 0b101
  · rw [h₅]
    rfl
  by_cases h₆ : first >>> 5 = 0b110
  · rw [h₆]
    cases rest with
    | nil => rfl
    | cons second rest =>
      simp only [List.head?_cons, Option.bind_some]
      cases parseFeatureExpansion first second <;> rfl
  · simp only

/-- A raw packet as both firmwares have it. -/
structure Received where
  raw : List UInt8
  packet : Packet
  decoded : DccCodec.decode raw = .ok (some packet)
  outside : ℤ → UInt8

namespace Received

/-- The packet as the C firmware stores it, in the opposite order. -/
def message (self : Received) : Message := ⟨self.raw.reverse, self.outside⟩

/-- The packet is for an accessory decoder. -/
def Accessory (self : Received) : Prop := ∃ d₀ ∈ self.raw.head?, 128 ≤ d₀ ∧ d₀ ≤ 191

/-- The packet is a feature expansion and ends with the command. -/
def Truncated (self : Received) : Prop :=
  match self.raw with
  | [d₀, command, _] => d₀ ≤ 127 ∧ ExpandsFunctions command
  | [d₀, _, command, _] => 192 ≤ d₀ ∧ ExpandsFunctions command
  | _ => False

def Stray (self : Received) : Prop := self.Accessory ∨ self.Truncated

variable {self : Received} {d₀ d₁ d₂ d₃ : UInt8} {rest : List UInt8}

/-- The bytes of the C packet, in the order of transmission. -/
theorem get_message {k : ℕ} {b : UInt8} (h : self.raw[k]? = some b) :
    self.message.get ((self.message.length : ℤ) - 1 - k) = b := by
  obtain ⟨hk, -⟩ := List.getElem?_eq_some_iff.mp h
  have hlen : self.message.length = self.raw.length := List.length_reverse
  rw [Message.get_pred (by rwa [hlen]), hlen, message, List.getD_eq_getElem?_getD,
    List.getElem?_reverse (by omega),
    show self.raw.length - 1 - (self.raw.length - 1 - k) = k by omega, h, Option.getD_some]

theorem longAddress_message (h : self.raw[0]? = some d₀) :
    self.message.longAddress = decide (192 ≤ d₀) := by
  have hfirst : self.message.get ((self.message.length : ℤ) - 1) = d₀ := by
    simpa using get_message h
  rw [Message.longAddress, hfirst, Bool.eq_iff_iff, shiftRight_six_eq_iff, decide_eq_true_eq]

theorem writtenGroup_of_index {k : ℕ} {command data : UInt8}
    (hindex : self.message.commandIndex = self.message.length - 1 - k)
    (hcommand : self.raw[k]? = some command) (hdata : self.raw[k + 1]? = some data) :
    writtenGroup self.message = commandGroup command data := by
  have hget : self.message.get (self.message.commandIndex - 1) = data := by
    rw [hindex, ← get_message hdata]
    congr 1
    omega
  rw [writtenGroup, Message.command, hget, hindex, get_message hcommand]

/-- With a short address the command is the second byte. -/
theorem writtenGroup_short (h : self.raw = d₀ :: d₁ :: d₂ :: rest) (hd₀ : ¬ 192 ≤ d₀) :
    writtenGroup self.message = commandGroup d₁ d₂ := by
  refine writtenGroup_of_index (k := 1) ?_ (by rw [h]; rfl) (by rw [h]; rfl)
  rw [Message.commandIndex, longAddress_message (by rw [h]; rfl), decide_eq_false hd₀,
    if_neg Bool.false_ne_true]
  omega

/-- With a long address it is the third. -/
theorem writtenGroup_long (h : self.raw = d₀ :: d₁ :: d₂ :: d₃ :: rest) (hd₀ : 192 ≤ d₀) :
    writtenGroup self.message = commandGroup d₂ d₃ := by
  refine writtenGroup_of_index (k := 2) ?_ (by rw [h]; rfl) (by rw [h]; rfl)
  rw [Message.commandIndex, longAddress_message (by rw [h]; rfl), decide_eq_true hd₀, if_pos rfl]
  omega

theorem data_eq (h : self.raw = d₀ :: d₁ :: d₂ :: rest) :
    self.packet.data = d₀ :: d₁ :: (d₂ :: rest).dropLast := by
  rw [(accepted_of_decode self.decoded).2, h]
  rfl

theorem carriedGroup_short (h : self.raw = d₀ :: d₁ :: d₂ :: rest) (hd₀ : d₀ ≤ 127) :
    carriedGroup self.packet = parsedGroup d₁ (d₂ :: rest).dropLast.head? := by
  refine carriedGroup_eq (n := 1) ?_ (by rw [data_eq h]; rfl)
  rw [addressLength_cons (data_eq h), if_pos hd₀]

theorem carriedGroup_long (h : self.raw = d₀ :: d₁ :: d₂ :: d₃ :: rest)
    (hd₀ : 192 ≤ d₀ ∧ d₀ ≤ 231) :
    carriedGroup self.packet = parsedGroup d₂ (d₃ :: rest).dropLast.head? := by
  have hbasic : ¬ d₀ ≤ 127 := by
    simp only [UInt8.le_iff_toNat_le, UInt8.reduceToNat] at hd₀ ⊢
    omega
  refine carriedGroup_eq (n := 2) ?_ (by rw [data_eq h]; rfl)
  rw [addressLength_cons (data_eq h), if_neg hbasic, if_pos hd₀]

theorem parsedGroup_none {command : UInt8} (h : ExpandsFunctions command) :
    parsedGroup command none = none := by
  rcases h with rfl | rfl | rfl <;> rfl

/-- The Rust firmware rejects stray packets. -/
theorem carriedGroup_stray (h : self.Stray) : carriedGroup self.packet = none := by
  obtain ⟨d₀, d₁, d₂, rest, hraw, hdata, hle⟩ := decode_cases self.decoded
  rcases h with ⟨b, hb, h₁, h₂⟩ | h
  · rw [hraw] at hb
    obtain rfl : d₀ = b := Option.some.inj hb
    have hother : ¬ d₀ ≤ 127 ∧ ¬ (192 ≤ d₀ ∧ d₀ ≤ 231) := by
      simp only [UInt8.le_iff_toNat_le, UInt8.reduceToNat] at h₁ h₂ ⊢
      omega
    unfold carriedGroup OperationModeInstruction.tryFrom
    rw [addressLength_cons hdata, if_neg hother.1, if_neg hother.2]
    rfl
  · rw [Truncated, hraw] at h
    -- after the address there is the command and no byte more
    match rest with
    | [] =>
      rw [carriedGroup_short hraw h.1]
      exact parsedGroup_none h.2
    | [d₃] =>
      rw [carriedGroup_long hraw ⟨h.1, hle⟩]
      exact parsedGroup_none h.2

/-- A packet that is not stray means the same in both firmwares. -/
theorem writtenGroup_eq (h : ¬ self.Stray) :
    writtenGroup self.message = carriedGroup self.packet := by
  obtain ⟨d₀, d₁, d₂, rest, hraw, hdata, hle⟩ := decode_cases self.decoded
  obtain ⟨hother, hfull⟩ := not_or.mp h
  -- the command follows one address byte, or two
  by_cases hbasic : d₀ ≤ 127
  · have hshort : ¬ 192 ≤ d₀ := by
      simp only [UInt8.le_iff_toNat_le, UInt8.reduceToNat] at hbasic ⊢
      omega
    rw [writtenGroup_short hraw hshort, carriedGroup_short hraw hbasic]
    refine commandGroup_eq d₂ ?_
    rintro rfl hexpands
    rw [Truncated, hraw] at hfull
    exact hfull ⟨hbasic, hexpands⟩
  · have hlong : 192 ≤ d₀ := by
      by_contra hlt
      refine hother ⟨d₀, by rw [hraw]; rfl, ?_⟩
      simp only [UInt8.le_iff_toNat_le, UInt8.reduceToNat] at hbasic hlt ⊢
      omega
    obtain ⟨b, hb, -, hlength⟩ := (accepted_of_decode self.decoded).1.address
    rw [hraw] at hb hlength
    obtain rfl : d₀ = b := Option.some.inj hb
    obtain ⟨d₃, rest, rfl⟩ := List.exists_cons_of_ne_nil (l := rest) fun hnil => by
      have hlen := hlength hlong
      simp [hnil] at hlen
    rw [writtenGroup_long hraw hlong, carriedGroup_long hraw ⟨hlong, hle⟩]
    refine commandGroup_eq d₃ ?_
    rintro rfl hexpands
    rw [Truncated, hraw] at hfull
    exact hfull ⟨hlong, hexpands⟩

end Received

/-! ### Sequences of packets -/

/-- The C firmware evaluates the packets, one after the other. -/
def Core0.evaluateAll (board : Board) (self : Core0) (rs : List Received) : Core0 :=
  rs.foldl (fun self r => ((instructionEvaluation board r.message).run self).2) self

variable {board : Board} {self : Core0} {rs : List Received} {r : Received}

theorem evaluateAll_concat :
    (self.evaluateAll board (rs ++ [r])).activeFunctions =
      writeGroup (writtenGroup r.message) (self.evaluateAll board rs).activeFunctions := by
  obtain ⟨self', hrun, -, hfunctions⟩ :=
    instructionEvaluation_run board r.message (self.evaluateAll board rs)
  rw [← hfunctions, evaluateAll, List.foldl_append]
  exact congrArg (fun p => Core0.activeFunctions (Prod.snd p)) hrun

theorem foldFlags_concat (flags : FunctionGroupFlags) (packets : List Packet) (packet : Packet) :
    foldFlags flags (packets ++ [packet]) =
      writeGroup (carriedGroup packet) (foldFlags flags packets) := by
  rw [foldFlags_append, foldFlags, List.filterMap_cons]
  cases carriedGroup packet <;> rfl

/-- **Function flags in both firmwares.**  After packets with any bytes, a flag of
the Rust firmware is the one carried by the last accepted instruction whose group
contains it, whatever the order of instructions of different groups; and its
word is that of the C firmware after every packet, if and only if no stray packet
comes that the C firmware reads as a change. -/
theorem functionFlags_agree_iff (board : Board) (self : Core0) (rs : List Received) :
    ((∀ i < 32, bit (foldFlags self.activeFunctions (rs.map Received.packet)) i =
        (((rs.map Received.packet).filterMap carriedGroup).filterMap fun fg =>
          fg.write i).getLast?.getD (bit self.activeFunctions i)) ∧
      (∀ rs' : List Received, (∀ g : Group,
          ((rs.map Received.packet).filterMap carriedGroup).filter (·.groupMask = g.mask) =
            ((rs'.map Received.packet).filterMap carriedGroup).filter (·.groupMask = g.mask)) →
        foldFlags self.activeFunctions (rs.map Received.packet) =
          foldFlags self.activeFunctions (rs'.map Received.packet)) ∧
      ∀ pre, pre <+: rs → foldFlags self.activeFunctions (pre.map Received.packet) =
        (self.evaluateAll board pre).activeFunctions) ↔
    ∀ pre r post, rs = pre ++ r :: post → r.Stray →
      writeGroup (writtenGroup r.message)
          (foldFlags self.activeFunctions (pre.map Received.packet)) =
        foldFlags self.activeFunctions (pre.map Received.packet) := by
  constructor
  · rintro ⟨-, -, hagree⟩ pre r post rfl hstray
    -- compare the words before and after the stray packet
    have hpre := hagree pre ⟨_, rfl⟩
    have hr := hagree (pre ++ [r]) ⟨post, by simp⟩
    rw [List.map_append, List.map_singleton, foldFlags_concat, Received.carriedGroup_stray hstray,
      evaluateAll_concat, ← hpre] at hr
    exact hr.symm
  · intro hstray
    refine ⟨fun i hi => bit_foldFlags hi _ _, fun rs' h => foldFlags_congr _ h, ?_⟩
    -- over the packets received so far
    intro pre
    induction pre using List.reverseRecOn with
    | nil => exact fun _ => rfl
    | append_singleton pre r ih =>
      rintro ⟨post, rfl⟩
      have hpre := ih ⟨r :: post, by simp⟩
      rw [List.map_append, List.map_singleton, foldFlags_concat, evaluateAll_concat, ← hpre]
      by_cases hr : r.Stray
      · rw [Received.carriedGroup_stray hr, hstray pre r post (by simp) hr]
        rfl
      · rw [Received.writtenGroup_eq hr]

/-- F13-F20 for the address 3, without the data byte. -/
def truncatedPacket : Received :=
  ⟨[0x03, 0xDE, 0xDD], ⟨[0x03, 0xDE], by decide⟩, by decide, fun _ => 0⟩

/-- The C firmware sets the functions in the error detection byte. -/
theorem functions_from_checksum :
    foldFlags addressThree.activeFunctions [truncatedPacket.packet] = 0 ∧
    (addressThree.evaluateAll board₀ [truncatedPacket]).activeFunctions =
      (0xDD : UInt32) <<< 13 ∧
    foldFlags addressThree.activeFunctions [truncatedPacket.packet] ≠
      (addressThree.evaluateAll board₀ [truncatedPacket]).activeFunctions :=
  ⟨by decide +kernel, by decide +kernel, by decide +kernel⟩

end Rp2040
