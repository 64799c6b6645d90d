/-
The bytes an evaluated packet is read at (`Software/core0.c`).

Index 0 holds the error detection byte, so an address, command or data byte
lies at 1 to `length - 1`.  No function checks that the packet is long enough
for the instruction it recognises.

* `instructionReads_inside` — an instruction is read inside the packet if the
  packet is `Complete`;
* `programReads_inside` — a service mode instruction needs four bytes;
* `reads_inside_iff` — exactly which packets are read inside.
-/
import Rp2040Decoder.Core0Steps

namespace Rp2040

namespace Message

/-- The packet has room for its address, its command with the data byte the
command takes, and the error detection byte. -/
def Complete (packet : Message) : Prop :=
  (if packet.longAddress then 2 else 1) + 1 + (if Core0.TakesData packet.command then 1 else 0) + 1
    ≤ packet.length

instance (packet : Message) : Decidable packet.Complete := by
  unfold Complete
  infer_instance

/-- The indices are those of address, command and data bytes. -/
def Inside (packet : Message) (l : List ℤ) : Prop := ∀ i ∈ l, 1 ≤ i ∧ i < packet.length

variable {packet : Message} {l l' : List ℤ}

theorem inside_append : packet.Inside (l ++ l') ↔ packet.Inside l ∧ packet.Inside l' :=
  List.forall_mem_append

theorem inside_iff_of_reads {reads reads' : List ℤ} (h : reads' = reads ++ l) :
    (∃ l', reads' = reads ++ l' ∧ ∀ i ∈ l', 1 ≤ i ∧ i < packet.length) ↔ packet.Inside l := by
  constructor
  · rintro ⟨l', h', hl'⟩
    rwa [List.append_cancel_left (h.symm.trans h')]
  · exact fun hl => ⟨l, h, hl⟩

theorem inside_of_leading (hlen : 3 ≤ packet.length) (h : Core0.Leading packet l) :
    packet.Inside l := by
  intro i hi
  rcases h i hi with rfl | rfl
  · omega
  · omega

end Message

namespace Core0

variable {self : Core0} {board : Board} {packet : Message}

/-- An instruction is read inside a complete packet only. -/
theorem instructionReads_inside (hlen : 3 ≤ packet.length) :
    packet.Inside (instructionReads packet) ↔ packet.Complete := by
  have hfirst : packet.Inside [(packet.length : ℤ) - 1] :=
    Message.inside_of_leading hlen (by simp [Leading])
  rw [instructionReads, Message.Complete, Message.commandIndex]
  by_cases htakes : TakesData packet.command
  · rw [if_pos htakes, if_pos htakes]
    cases packet.longAddress with
    | true =>
      simp [Message.Inside]
      omega
    | false =>
      simp [Message.Inside]
      omega
  · rw [if_neg htakes, if_neg htakes]
    cases packet.longAddress with
    | true =>
      simp [Message.Inside]
      omega
    | false =>
      simp [Message.Inside]
      omega

/-- In program mode the data byte is the third. -/
theorem programReads_inside (hlen : 3 ≤ packet.length) :
    packet.Inside (programReads packet) ↔
      (packet.isService = true → packet.instructionType ≠ 0 → 4 ≤ packet.length) := by
  rw [programReads]
  by_cases hservice : packet.isService = true
  · rw [if_pos hservice]
    by_cases htype : packet.instructionType = 0
    · rw [if_pos htype, List.append_nil]
      exact iff_of_true (Message.inside_of_leading hlen (by simp [Leading]))
        fun _ hne => absurd htype hne
    · rw [if_neg htype]
      simp [Message.Inside, hservice, htype]
      omega
  · rw [if_neg hservice]
    exact iff_of_true (Message.inside_of_leading hlen (by simp [Leading]))
      fun h => absurd h hservice

/-- **A packet is read inside itself** exactly when it is complete, if it is
addressed to the decoder, and has four bytes, if it is a service mode
instruction executed as such. -/
theorem reads_inside_iff (overallAvgOffset : UInt8) (hlen : 3 ≤ packet.length)
    (hsum : errorDetection packet = true) :
    (∃ l, ((evaluatePacket board overallAvgOffset packet).run self).2.reads = self.reads ++ l ∧
      ∀ i ∈ l, 1 ≤ i ∧ i < packet.length) ↔
    (self.addressed packet = true → packet.Complete) ∧
    (self.addressed packet = false → self.resetMessageFlag = true → packet.isService = true →
      packet.instructionType ≠ 0 → 4 ≤ packet.length) := by
  -- the leading bytes are always inside, so the reads after them decide
  cases haddr : self.addressed packet with
  | true =>
    obtain ⟨l, self', hrun, hl, hbut⟩ :=
      evaluatePacket_of_addressed board overallAvgOffset (by omega) hsum haddr
    rw [hrun, Message.inside_iff_of_reads hbut.reads, Message.inside_append,
      instructionReads_inside hlen]
    simp only [Message.inside_of_leading hlen hl, true_and, forall_const, reduceCtorEq,
      IsEmpty.forall_iff, and_true]
  | false =>
    cases hflag : self.resetMessageFlag with
    | true =>
      obtain ⟨l, hrun, hl⟩ :=
        evaluatePacket_of_flag board overallAvgOffset (by omega) hsum haddr hflag
      have hreads : ((programMode board overallAvgOffset packet).run (log l self)).2.reads =
          self.reads ++ (l ++ programReads packet) := by
        rw [programMode_reads, log_reads, List.append_assoc]
      rw [hrun, Message.inside_iff_of_reads hreads, Message.inside_append, programReads_inside hlen]
      simp only [Message.inside_of_leading hlen hl, true_and, forall_const, reduceCtorEq,
        IsEmpty.forall_iff]
    | false =>
      obtain ⟨l, self', hrun, hl, hbut⟩ :=
        evaluatePacket_of_not_flag board overallAvgOffset (by omega) hsum haddr hflag
      rw [hrun, Message.inside_iff_of_reads hbut.reads]
      simp only [Message.inside_of_leading hlen hl, reduceCtorEq, IsEmpty.forall_iff,
        forall_const, and_self]

/-- A speed instruction for address 3 without its data byte. -/
def shortSpeedPacket : Message := ⟨[0x3C, 0x3F, 0x03], fun _ => 0⟩

/-- The speed target is taken from the error detection byte. -/
theorem speed_from_checksum : shortSpeedPacket.length = 3 ∧
    errorDetection shortSpeedPacket = true ∧
    ((evaluatePacket board₀ 0 shortSpeedPacket).run addressThree).2.speedStepTarget =
      shortSpeedPacket.get 0 ∧
    ¬ ∃ l, ((evaluatePacket board₀ 0 shortSpeedPacket).run addressThree).2.reads =
        addressThree.reads ++ l ∧ ∀ i ∈ l, 1 ≤ i ∧ i < shortSpeedPacket.length := by
  refine ⟨by decide, by decide, by decide +kernel, ?_⟩
  rintro ⟨l, hl, hinside⟩
  have hreads : ((evaluatePacket board₀ 0 shortSpeedPacket).run addressThree).2.reads =
      [2, 2, 2, 1, 0] := by decide +kernel
  rw [hreads] at hl
  have hzero := hinside 0 (by rw [← show _ = l from hl]; decide)
  omega

/-- The same instruction with its data byte. -/
def speedPacket : Message := ⟨[0x0F, 0x33, 0x3F, 0x03], fun _ => 0⟩

theorem speed_inside :
    ∃ l, ((evaluatePacket board₀ 0 speedPacket).run addressThree).2.reads =
      addressThree.reads ++ l ∧ ∀ i ∈ l, 1 ≤ i ∧ i < speedPacket.length :=
  (reads_inside_iff 0 (by decide) (by decide)).mpr ⟨by decide, by decide⟩

end Core0

end Rp2040
