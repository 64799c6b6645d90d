/-
What the functions of the C firmware do, one lemma each.

Every lemma names the indices its function reads and the parts of the state it
leaves alone; no later proof unfolds the functions.

* `addressEvaluation_run`, `resetMessageCheck_run`, `instructionEvaluation_run`,
  `programMode_keeps` — the four functions behind `evaluate_packet`;
* `evaluatePacket_of_addressed`, `evaluatePacket_of_flag`,
  `evaluatePacket_of_not_flag` — the three ways a valid packet is evaluated.
-/
import Rp2040Decoder.Core0
import Rp2040Decoder.FunctionGroups

namespace Rp2040

namespace Message

variable {packet : Message}

/-- Whether the first byte announces a long address. -/
def longAddress (packet : Message) : Bool := packet.get (packet.length - 1) >>> 6 == 0b00000011

/-- The index of the first byte after the address. -/
def commandIndex (packet : Message) : ℤ :=
  if packet.longAddress then packet.length - 3 else packet.length - 2

/-- The first byte after the address. -/
def command (packet : Message) : UInt8 := packet.get packet.commandIndex

/-- A reset message starts with two zero bytes. -/
def isReset (packet : Message) : Bool :=
  packet.get (packet.length - 1) == 0 && packet.get (packet.length - 2) == 0

/-- A service mode packet has the first byte 112-127. -/
def isService (packet : Message) : Bool :=
  packet.get (packet.length - 1) < 128 && 111 < packet.get (packet.length - 1)

/-- The instruction type bits of a service mode packet. -/
def instructionType (packet : Message) : UInt8 := 0b00001100 &&& packet.get (packet.length - 1)

theorem instructionType_cases (packet : Message) : packet.instructionType = 0 ∨
    packet.instructionType = 0b00000100 ∨ packet.instructionType = 0b00001000 ∨
    packet.instructionType = 0b00001100 := by
  rw [instructionType]
  have hall : ∀ b : Fin 256, 0b00001100 &&& UInt8.ofFin b = 0 ∨
      0b00001100 &&& UInt8.ofFin b = 0b00000100 ∨ 0b00001100 &&& UInt8.ofFin b = 0b00001000 ∨
      0b00001100 &&& UInt8.ofFin b = 0b00001100 := by decide +kernel
  exact hall (packet.get (packet.length - 1)).toFin

theorem isReset_of_isService (h : packet.isService = true) : packet.isReset = false := by
  have hne : packet.get (packet.length - 1) ≠ 0 := by
    rintro heq
    rw [isService, heq] at h
    cases h
  rw [isReset, beq_false_of_ne hne, Bool.false_and]

/-- The bytes of the array are those of the list. -/
theorem get_pred {k : ℕ} (hk : k < packet.length) :
    packet.get (packet.length - 1 - k) = packet.data.getD (packet.length - 1 - k) 0 := by
  have hlen : packet.length - 1 - k < packet.data.length := by
    rw [length] at hk ⊢
    omega
  rw [get, if_pos (by omega), List.getD_eq_getElem?_getD,
    show ((packet.length : ℤ) - 1 - k).toNat = packet.length - 1 - k by omega,
    List.getElem?_eq_getElem hlen]
  rfl

theorem get_first (h : 1 ≤ packet.length) :
    packet.get (packet.length - 1) = packet.data.getD (packet.length - 1) 0 := by
  simpa using get_pred (k := 0) h

theorem get_second (h : 2 ≤ packet.length) :
    packet.get (packet.length - 2) = packet.data.getD (packet.length - 2) 0 := by
  have hget := get_pred (k := 1) h
  rwa [show (packet.length : ℤ) - 1 - (1 : ℕ) = packet.length - 2 by omega,
    Nat.sub_sub] at hget

end Message

namespace Core0

variable {self : Core0} {board : Board} {packet : Message} {α : Type}

/-! ### Reads -/

@[simp] theorem log_reads (l : List ℤ) : (log l self).reads = self.reads ++ l := rfl

@[simp] theorem log_resetMessageFlag (l : List ℤ) :
    (log l self).resetMessageFlag = self.resetMessageFlag := rfl

theorem run_byteAt_bind (i : ℤ) (k : UInt8 → Firmware α) :
    (byteAt packet i >>= k).run self = (k (packet.get i)).run (log [i] self) := rfl

theorem run_isLongAddress_bind (k : Bool → Firmware α) :
    (isLongAddress packet >>= k).run self =
      (k packet.longAddress).run (log [packet.length - 1] self) := rfl

theorem log_log (l l' : List ℤ) : log l' (log l self) = log (l ++ l') self := by
  simp only [log, List.append_assoc]

/-- A further read. -/
theorem run_byteAt_log (l : List ℤ) (i : ℤ) (k : UInt8 → Firmware α) :
    (byteAt packet i >>= k).run (log l self) =
      (k (packet.get i)).run (log (l ++ [i]) self) := by
  rw [run_byteAt_bind, log_log]

theorem run_isLongAddress_log (l : List ℤ) (k : Bool → Firmware α) :
    (isLongAddress packet >>= k).run (log l self) =
      (k packet.longAddress).run (log (l ++ [(packet.length : ℤ) - 1]) self) := by
  rw [run_isLongAddress_bind, log_log]

/-- The address check reads the first two bytes at most. -/
theorem addressEvaluation_run (self : Core0) (h : 2 ≤ packet.length) :
    ∃ l, (addressEvaluation packet).run self =
        (.ok (Rp2040.addressEvaluation self.cvArrayFlash packet.length packet.data), log l self) ∧
      ∀ i ∈ l, i = packet.length - 1 ∨ i = packet.length - 2 := by
  have hfirst := packet.get_first (by omega)
  have hsecond := packet.get_second h
  have hlong : packet.longAddress = Rp2040.isLongAddress packet.length packet.data := by
    rw [Message.longAddress, hfirst, Rp2040.isLongAddress]
  rw [addressEvaluation, run_byteAt_bind, Rp2040.addressEvaluation, ← hfirst, ← hsecond]
  by_cases hidle : packet.get (packet.length - 1) = 255
  · rw [if_pos hidle, if_pos hidle]
    exact ⟨_, rfl, by simp⟩
  rw [if_neg hidle, if_neg hidle, Proc.run_gets_bind]
  have hcv : (log [(packet.length : ℤ) - 1] self).cvArrayFlash = self.cvArrayFlash := rfl
  simp only [id, hcv]
  by_cases hbit : self.cvArrayFlash 28 &&& 0b00100000 ≠ 0
  · rw [if_pos hbit, if_pos hbit, run_isLongAddress_log, ← hlong]
    cases packet.longAddress with
    | true =>
      rw [if_pos rfl, if_pos rfl, run_byteAt_log, run_byteAt_log]
      exact ⟨_, rfl, by simp⟩
    | false =>
      rw [if_neg Bool.false_ne_true, if_neg Bool.false_ne_true]
      exact ⟨_, rfl, by simp⟩
  · rw [if_neg hbit, if_neg hbit, run_byteAt_log]
    exact ⟨_, rfl, by simp⟩

/-! ### Function instructions -/

/-- The group `update_active_functions` writes. -/
def groupOf (newFunctionBitmask : UInt32) (clrBitInd : Fin 6) : FunctionGroup :=
  .new (~~~clrBitArr clrBitInd) newFunctionBitmask

/-- The outputs are all that `set_outputs` and a direction change touch. -/
structure SameBut (s s' : Core0) : Prop where
  flash : s'.flash = s.flash
  resetMessageFlag : s'.resetMessageFlag = s.resetMessageFlag
  acknowledged : s'.acknowledged = s.acknowledged
  reads : s'.reads = s.reads

theorem SameBut.trans {s s' s'' : Core0} (h : SameBut s s') (h' : SameBut s' s'') :
    SameBut s s'' :=
  ⟨h'.flash.trans h.flash, h'.resetMessageFlag.trans h.resetMessageFlag,
    h'.acknowledged.trans h.acknowledged, h'.reads.trans h.reads⟩

theorem updateActiveFunctions_frame (newFunctionBitmask : UInt32) (clrBitInd : Fin 6)
    (directionChange : Bool) : SameBut self
      (self.updateActiveFunctions board newFunctionBitmask clrBitInd directionChange) := by
  rw [updateActiveFunctions]
  split
  · exact ⟨rfl, rfl, rfl, rfl⟩
  · simp only
    split <;> exact ⟨rfl, rfl, rfl, rfl⟩

theorem activeFunctions_updateActiveFunctions (newFunctionBitmask : UInt32) (clrBitInd : Fin 6) :
    (self.updateActiveFunctions board newFunctionBitmask clrBitInd false).activeFunctions =
      (groupOf newFunctionBitmask clrBitInd).unionWithMask self.activeFunctions := by
  have hmask : ~~~(~~~clrBitArr clrBitInd) = clrBitArr clrBitInd := UInt32.not_not
  rw [updateActiveFunctions, if_neg Bool.false_ne_true, groupOf, FunctionGroup.unionWithMask,
    FunctionGroup.new, hmask]
  simp only
  split <;> rfl

/-- The group of a function group instruction. -/
def functionGroupOf (command : UInt8) : FunctionGroup :=
  match command >>> 4 with
  | 0b00001011 => groupOf (command.toUInt32 <<< 5) 1
  | 0b00001010 => groupOf (command.toUInt32 <<< 9) 2
  | _ => groupOf ((command &&& 0b00001111).toUInt32 <<< 1 +
      (command &&& 0b00010000).toUInt32 >>> 4) 0

/-- The group of a feature expansion instruction. -/
def featureGroupOf (command data : UInt8) : Option FunctionGroup :=
  match command with
  | 0b11011110 => some (groupOf (data.toUInt32 <<< 13) 3)
  | 0b11011111 => some (groupOf (data.toUInt32 <<< 21) 4)
  | 0b11011000 => some (groupOf (data.toUInt32 <<< 29) 5)
  | _ => none

/-- The group a command writes; the byte after it is `data`. -/
def commandGroup (command data : UInt8) : Option FunctionGroup :=
  if command = 0b00111111 then none
  else if command >>> 6 = 0b00000010 then some (functionGroupOf command)
  else if command >>> 5 = 0b00000110 then featureGroupOf command data
  else none

/-- The commands that are followed by a data byte. -/
def TakesData (command : UInt8) : Prop :=
  command = 0b00111111 ∨ command = 0b11011110 ∨ command = 0b11011111 ∨ command = 0b11011000

instance (command : UInt8) : Decidable (TakesData command) := by
  unfold TakesData
  infer_instance

/-- The indices `instruction_evaluation` reads. -/
def instructionReads (packet : Message) : List ℤ :=
  [(packet.length : ℤ) - 1, packet.commandIndex] ++
    if TakesData packet.command then [packet.commandIndex - 1] else []

/-- The group the packet writes, read as `instruction_evaluation` reads it. -/
def writtenGroup (packet : Message) : Option FunctionGroup :=
  commandGroup packet.command (packet.get (packet.commandIndex - 1))

/-- Write the group, if there is one. -/
def writeGroup (fg : Option FunctionGroup) (flags : FunctionGroupFlags) : FunctionGroupFlags :=
  fg.elim flags fun fg => fg.unionWithMask flags

theorem functionGroupInstruction_frame (command : UInt8) :
    SameBut self (functionGroupInstruction board command self) := by
  unfold functionGroupInstruction
  split <;> exact updateActiveFunctions_frame _ _ false

theorem activeFunctions_functionGroupInstruction (command : UInt8) :
    (functionGroupInstruction board command self).activeFunctions =
      (functionGroupOf command).unionWithMask self.activeFunctions := by
  by_cases hB : command >>> 4 = 0b00001011
  · simp only [functionGroupInstruction, functionGroupOf, hB]
    exact activeFunctions_updateActiveFunctions _ _
  by_cases hA : command >>> 4 = 0b00001010
  · simp only [functionGroupInstruction, functionGroupOf, hA]
    exact activeFunctions_updateActiveFunctions _ _
  · simp only [functionGroupInstruction, functionGroupOf]
    exact activeFunctions_updateActiveFunctions _ _

/-- An instruction changes the flag word by the group it carries. -/
theorem instructionEvaluation_run (board : Board) (packet : Message) (self : Core0) : ∃ self',
    (instructionEvaluation board packet).run self = (.ok (), self') ∧
      SameBut (log (instructionReads packet) self) self' ∧
      self'.activeFunctions = writeGroup (writtenGroup packet) self.activeFunctions := by
  rw [instructionEvaluation, run_isLongAddress_bind, writtenGroup, instructionReads]
  have hindex : (if packet.longAddress = true then ((packet.length : ℤ) - 3)
      else packet.length - 2) = packet.commandIndex := rfl
  simp only [hindex, run_byteAt_log, List.singleton_append]
  rw [show packet.get packet.commandIndex = packet.command from rfl]
  unfold commandGroup
  generalize packet.command = command
  -- 128 speed steps: only the speed target changes
  by_cases h₁ : command = 0b00111111
  · have htakes : TakesData command := Or.inl h₁
    rw [if_pos h₁, if_pos h₁, if_pos htakes, run_byteAt_log]
    refine ⟨_, rfl, ?_, ?_⟩
    · simp only
      split
      · exact ⟨rfl, rfl, rfl, rfl⟩
      · exact ⟨rfl, rfl, rfl, rfl⟩
    · simp only
      split <;> rfl
  rw [if_neg h₁, if_neg h₁]
  -- a function group is in the command itself
  by_cases h₂ : command >>> 6 = 0b00000010
  · have htakes : ¬ TakesData command := by
      rintro (h | h | h | h) <;> rw [h] at h₂ <;> exact absurd h₂ (by decide)
    rw [if_pos h₂, if_pos h₂, if_neg htakes, List.append_nil]
    exact ⟨_, rfl, functionGroupInstruction_frame command,
      activeFunctions_functionGroupInstruction command⟩
  rw [if_neg h₂, if_neg h₂]
  -- a feature expansion has it in the data byte, except those not handled
  by_cases h₃ : command >>> 5 = 0b00000110
  · rw [if_pos h₃, if_pos h₃]
    unfold featureGroupOf
    split
    · have htakes : TakesData 0b11011110 := by decide
      rw [if_pos htakes, run_byteAt_log]
      exact ⟨_, rfl, updateActiveFunctions_frame _ _ false,
        activeFunctions_updateActiveFunctions _ _⟩
    · have htakes : TakesData 0b11011111 := by decide
      rw [if_pos htakes, run_byteAt_log]
      exact ⟨_, rfl, updateActiveFunctions_frame _ _ false,
        activeFunctions_updateActiveFunctions _ _⟩
    · have htakes : TakesData 0b11011000 := by decide
      rw [if_pos htakes, run_byteAt_log]
      exact ⟨_, rfl, updateActiveFunctions_frame _ _ false,
        activeFunctions_updateActiveFunctions _ _⟩
    · rename_i hDE hDF hD8
      have htakes : ¬ TakesData command := by
        rintro (h | h | h | h)
        · exact h₁ h
        · exact hDE h
        · exact hDF h
        · exact hD8 h
      rw [if_neg htakes, List.append_nil]
      refine ⟨_, rfl, ⟨rfl, rfl, rfl, rfl⟩, ?_⟩
      simp only [writeGroup, Option.elim_none]
      rfl
  · have htakes : ¬ TakesData command := by
      rintro (h | h | h | h)
      · exact h₁ h
      all_goals rw [h] at h₃; exact h₃ (by decide)
    rw [if_neg h₃, if_neg h₃, if_neg htakes, List.append_nil]
    exact ⟨_, rfl, ⟨rfl, rfl, rfl, rfl⟩, rfl⟩

/-! ### Reset messages and programming -/

/-- The parts of the state that programming leaves alone. -/
def untouched (self : Core0) : Bool × List ℤ := (self.resetMessageFlag, self.reads)

theorem resetMessageCheck_run (board : Board) (packet : Message) (self : Core0) : ∃ l self',
    (resetMessageCheck board packet).run self = (.ok packet.isReset, self') ∧
      SameBut (log l self) self' ∧ ∀ i ∈ l, i = packet.length - 1 ∨ i = packet.length - 2 := by
  rw [resetMessageCheck, run_byteAt_bind, Message.isReset]
  -- the second byte is read only if the first is zero
  by_cases hfirst : packet.get (packet.length - 1) = 0
  · rw [if_pos hfirst, hfirst, run_byteAt_log]
    by_cases hsecond : packet.get (packet.length - 2) = 0
    · rw [if_pos hsecond, hsecond]
      refine ⟨[packet.length - 1, packet.length - 2], _, rfl, ?_, by simp⟩
      refine .trans ?_ (updateActiveFunctions_frame 0 0 false)
      exact ⟨rfl, rfl, rfl, rfl⟩
    · rw [if_neg hsecond, beq_false_of_ne hsecond]
      exact ⟨_, _, rfl, ⟨rfl, rfl, rfl, rfl⟩, by simp⟩
  · rw [if_neg hfirst, beq_false_of_ne hfirst]
    exact ⟨_, _, rfl, ⟨rfl, rfl, rfl, rfl⟩, by simp⟩

/-- What `f` observes is neither in the flash nor an acknowledgement. -/
structure Unprogrammed {τ : Type} (f : Core0 → τ) : Prop where
  flash : ∀ self flash, f { self with flash } = f self
  acknowledged : ∀ self acknowledged, f { self with acknowledged } = f self

theorem unprogrammed_untouched : Unprogrammed untouched := ⟨fun _ _ => rfl, fun _ _ => rfl⟩

section

variable {τ : Type} {f : Core0 → τ} (hf : Unprogrammed f)

include hf

theorem flashSafeExecute_keeps (func : Proc RpFlash Unit Unit) :
    Proc.Keeps f (flashSafeExecute func) := by
  intro self
  simp only [flashSafeExecute, Proc.run, ExceptT.run_mk, StateT.run]
  split <;> exact hf.flash self _

theorem eraseAndProgram_keeps (cvArray : CvArray) : Proc.Keeps f (eraseAndProgram cvArray) := by
  refine .bind (flashSafeExecute_keeps hf _) fun ok => ?_
  cases ok
  · exact .pure _
  · exact flashSafeExecute_keeps hf _

theorem acknowledge_keeps : Proc.Keeps f acknowledge :=
  .modify fun self => hf.acknowledged self _

theorem writeCvByte_keeps (cvAddress : ℕ) (cvData : UInt8) :
    Proc.Keeps f (writeCvByte cvAddress cvData) := by
  refine .bind (.gets _) fun cvArrayTemp =>
    .bind (eraseAndProgram_keeps hf cvArrayTemp) fun ok => ?_
  cases ok
  · exact .pure _
  · exact acknowledge_keeps hf

theorem writeCvHandler_keeps (overallAvgOffset : UInt8) (cvIndex : ℕ) (cvData : UInt8) :
    Proc.Keeps f (writeCvHandler board overallAvgOffset cvIndex cvData) := by
  rw [writeCvHandler]
  refine .bind (.gets id) fun self => ?_
  have hwrite := writeCvByte_keeps hf
  have hcalibrate : Proc.Keeps f (adcOffsetAdjustment overallAvgOffset) :=
    .bind (.gets _) fun cvArrayTemp =>
      .bind (eraseAndProgram_keeps hf cvArrayTemp) fun _ => .pure _
  have hdefaults : Proc.Keeps f (resetCvArrayToDefault board) :=
    .bind (eraseAndProgram_keeps hf _) fun _ => .pure _
  split
  · split
    · exact .pure _
    · exact hwrite _ _
  · split
    · exact hcalibrate
    · exact .pure _
  · split
    · exact hdefaults
    · exact .pure _
  · split
    · exact .pure _
    · exact hwrite _ _
  · split
    · exact .pure _
    · exact hwrite _ _
  · exact .pure _
  · exact .pure _
  · exact hwrite _ _

theorem verifyCvBit_keeps (cvAddress : ℕ) (bitVal bitPos : UInt8) :
    Proc.Keeps f (verifyCvBit cvAddress bitVal bitPos) := by
  refine .bind (.gets id) fun self => ?_
  split
  · exact acknowledge_keeps hf
  · exact .pure _

theorem verifyCvByte_keeps (cvAddress : ℕ) (cvData : UInt8) :
    Proc.Keeps f (verifyCvByte cvAddress cvData) := by
  refine .bind (.gets id) fun self => ?_
  split
  · exact acknowledge_keeps hf
  · exact .pure _

end

/-- The indices `program_mode` reads. -/
def programReads (packet : Message) : List ℤ :=
  if packet.isService then
    [(packet.length : ℤ) - 1, (packet.length : ℤ) - 2] ++
      if packet.instructionType = 0 then [] else [(packet.length : ℤ) - 3]
  else [(packet.length : ℤ) - 1]

theorem programMode_keeps {τ : Type} {f : Core0 → τ} (hf : Unprogrammed f) (board : Board)
    (overallAvgOffset : UInt8) :
    f ((programMode board overallAvgOffset packet).run self).2 =
      f (log (programReads packet) self) := by
  rw [programMode, run_byteAt_bind, programReads]
  by_cases hservice : packet.isService
  · have hrange : packet.get (packet.length - 1) < 128 ∧ 111 < packet.get (packet.length - 1) := by
      simpa [Message.isService] using hservice
    rw [if_pos hservice, if_pos hrange, run_byteAt_bind, log_log,
      show 0b00001100 &&& packet.get (packet.length - 1) = packet.instructionType from rfl]
    -- verify a bit, verify a byte, write a byte, or nothing
    by_cases h₈ : packet.instructionType = 0b00001000
    · rw [if_pos h₈, h₈, run_byteAt_log]
      exact verifyCvBit_keeps hf _ _ _ _
    by_cases h₄ : packet.instructionType = 0b00000100
    · rw [if_neg h₈, if_pos h₄, h₄, run_byteAt_log]
      exact verifyCvByte_keeps hf _ _ _
    by_cases h₁₂ : packet.instructionType = 0b00001100
    · rw [if_neg h₈, if_neg h₄, if_pos h₁₂, h₁₂, run_byteAt_log]
      exact writeCvHandler_keeps hf _ _ _ _
    · have h₀ := packet.instructionType_cases.resolve_right (by tauto)
      rw [if_neg h₈, if_neg h₄, if_neg h₁₂, if_pos h₀, List.append_nil]
      rfl
  · have hrange : ¬(packet.get (packet.length - 1) < 128 ∧
        111 < packet.get (packet.length - 1)) := by
      simpa [Message.isService] using hservice
    rw [if_neg hservice, if_neg hrange]
    rfl

theorem programMode_reads (board : Board) (overallAvgOffset : UInt8) :
    ((programMode board overallAvgOffset packet).run self).2.reads =
      self.reads ++ programReads packet :=
  congrArg Prod.snd (programMode_keeps unprogrammed_untouched board overallAvgOffset)

/-- Only a service packet does anything in program mode. -/
theorem programMode_run_of_not_service (board : Board) (overallAvgOffset : UInt8)
    (h : packet.isService = false) :
    (programMode board overallAvgOffset packet).run self =
      (.ok (), log [(packet.length : ℤ) - 1] self) := by
  have hrange : ¬(packet.get (packet.length - 1) < 128 ∧
      111 < packet.get (packet.length - 1)) := by
    simpa [Message.isService] using h
  rw [programMode, run_byteAt_bind, if_neg hrange]
  rfl

/-! ### Evaluation -/

/-- The packet is addressed to the decoder. -/
def addressed (self : Core0) (packet : Message) : Bool :=
  Rp2040.addressEvaluation self.cvArrayFlash packet.length packet.data

/-- The indices are those of the first two bytes. -/
def Leading (packet : Message) (l : List ℤ) : Prop :=
  ∀ i ∈ l, i = packet.length - 1 ∨ i = packet.length - 2

/-- A packet for the decoder clears the flag and is executed. -/
theorem evaluatePacket_of_addressed (board : Board) (overallAvgOffset : UInt8)
    (hlen : 2 ≤ packet.length) (hsum : errorDetection packet = true)
    (h : self.addressed packet = true) :
    ∃ l self', (evaluatePacket board overallAvgOffset packet).run self = (.ok (), self') ∧
      Leading packet l ∧
      SameBut { log (l ++ instructionReads packet) self with resetMessageFlag := false } self' := by
  obtain ⟨l, haddr, hl⟩ := addressEvaluation_run self hlen
  obtain ⟨self', hrun, hbut, -⟩ := instructionEvaluation_run board packet
    { log l self with resetMessageFlag := false }
  refine ⟨l, self', ?_, hl, ?_⟩
  · rw [evaluatePacket, if_pos hsum, Proc.run_bind_of_ok haddr]
    rw [addressed] at h
    rw [if_pos h, Proc.run_modify_bind, hrun]
  · exact ⟨hbut.flash, hbut.resetMessageFlag, hbut.acknowledged,
      hbut.reads.trans (List.append_assoc _ _ _)⟩

/-- While the flag is set, any other packet goes to the program mode. -/
theorem evaluatePacket_of_flag (board : Board) (overallAvgOffset : UInt8) (hlen : 2 ≤ packet.length)
    (hsum : errorDetection packet = true) (h : self.addressed packet = false)
    (hflag : self.resetMessageFlag = true) :
    ∃ l, (evaluatePacket board overallAvgOffset packet).run self =
        (programMode board overallAvgOffset packet).run (log l self) ∧ Leading packet l := by
  obtain ⟨l, haddr, hl⟩ := addressEvaluation_run self hlen
  refine ⟨l, ?_, hl⟩
  rw [addressed] at h
  rw [evaluatePacket, if_pos hsum, Proc.run_bind_of_ok haddr, h, if_neg Bool.false_ne_true,
    Proc.run_gets_bind, id, log_resetMessageFlag, if_pos hflag]

/-- Otherwise a packet sets the flag if it is a reset message. -/
theorem evaluatePacket_of_not_flag (board : Board) (overallAvgOffset : UInt8)
    (hlen : 2 ≤ packet.length) (hsum : errorDetection packet = true)
    (h : self.addressed packet = false) (hflag : self.resetMessageFlag = false) :
    ∃ l self', (evaluatePacket board overallAvgOffset packet).run self = (.ok (), self') ∧
      Leading packet l ∧
      SameBut { log l self with resetMessageFlag := packet.isReset } self' := by
  obtain ⟨l, haddr, hl⟩ := addressEvaluation_run self hlen
  obtain ⟨l', self', hrun, hbut, hl'⟩ := resetMessageCheck_run board packet (log l self)
  refine ⟨l ++ l', { self' with resetMessageFlag := packet.isReset }, ?_, ?_, ?_⟩
  · rw [addressed] at h
    rw [evaluatePacket, if_pos hsum, Proc.run_bind_of_ok haddr, h, if_neg Bool.false_ne_true,
      Proc.run_gets_bind, id, log_resetMessageFlag, hflag, if_neg Bool.false_ne_true,
      Proc.run_bind_of_ok hrun]
    rfl
  · exact fun i hi => (List.mem_append.mp hi).elim (hl i) (hl' i)
  · exact ⟨hbut.flash, rfl, hbut.acknowledged, hbut.reads.trans (List.append_assoc _ _ _)⟩

end Core0

end Rp2040
