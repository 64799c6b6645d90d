/-
The program mode of the C firmware (`program_mode` in `Software/core0.c`, and
what it calls) as a memory of CVs.

A programmer sends instructions and looks for the acknowledgement pulse.  What
it sees of the decoder is a memory of CVs that answers yes or no.  There is no
bit write: the firmware takes one for the verification of the bit.

* `programmed`, `Answers` — the memory;
* `answer_sent` — what the firmware does with one instruction;
* `observe_program` — the firmware refines the memory;
* `readOut_of_write` — a CV that is written and read out bit by bit.
-/
import Rp2040Decoder.ByteWrite
import Rp2040Decoder.Core0Loop

namespace Rp2040

open Transition

instance (cvs : ℕ → UInt8) (a : ℕ) (value : UInt8) : Decidable (WriteAccepted cvs a value) := by
  unfold WriteAccepted Handler.Rejected
  infer_instance

/-- An instruction for one of the CVs as it is sent, what memory around its
packet reads as, and what an ADC calibration would measure. -/
structure Sent where
  instruction : ServiceInstruction
  cvAddr_mem : 1 ≤ instruction.cvAddr ∧ instruction.cvAddr ≤ CV_SIZE
  outside : ℤ → UInt8
  overallAvgOffset : UInt8

/-- The instruction and its checksum, in the order of the packet array. -/
def Sent.message (self : Sent) : Message where
  data := (self.instruction.bytes ++ [checksum self.instruction.bytes]).reverse
  outside := self.outside

/-! ### The packet of an instruction -/

namespace ServiceInstruction

/-- `0111CCAA` -/
def first (i : ServiceInstruction) : UInt8 :=
  (0x70 : UInt8) ||| i.type.code <<< 2 ||| UInt8.ofNat ((i.cvAddr - 1) / 256 % 4)

/-- The first byte is that of a service mode packet, and carries its fields. -/
theorem first_fields (i : ServiceInstruction) : (112 ≤ i.first ∧ i.first ≤ 127) ∧
    (0b00001100 : UInt8) &&& i.first = i.type.code <<< 2 ∧
    (0b00000011 : UInt8) &&& i.first = UInt8.ofNat ((i.cvAddr - 1) / 256 % 4) := by
  have hall : ∀ (t : ServiceInstructionType) (hi : Fin 4),
      ((112 : UInt8) ≤ ((0x70 : UInt8) ||| t.code <<< 2 ||| UInt8.ofNat hi) ∧
        ((0x70 : UInt8) ||| t.code <<< 2 ||| UInt8.ofNat hi) ≤ 127) ∧
      (0b00001100 : UInt8) &&& ((0x70 : UInt8) ||| t.code <<< 2 ||| UInt8.ofNat hi) =
        t.code <<< 2 ∧
      (0b00000011 : UInt8) &&& ((0x70 : UInt8) ||| t.code <<< 2 ||| UInt8.ofNat hi) =
        UInt8.ofNat hi := by
    intro t
    cases t <;> decide
  exact hall i.type ⟨(i.cvAddr - 1) / 256 % 4, Nat.mod_lt _ (by decide)⟩

/-- The index of the CV in the array. -/
theorem cvIndex_eq {i : ServiceInstruction} (h : 1 ≤ i.cvAddr ∧ i.cvAddr ≤ CV_SIZE) :
    (UInt8.ofNat ((i.cvAddr - 1) % 256)).toNat + ((0b00000011 : UInt8) &&& i.first).toNat * 256 =
      i.cvAddr - 1 := by
  rw [i.first_fields.2.2,
    UInt8.toNat_ofNat_of_lt' (show (i.cvAddr - 1) / 256 % 4 < 256 by omega),
    UInt8.toNat_ofNat_of_lt' (show (i.cvAddr - 1) % 256 < 256 by omega)]
  rw [CV_SIZE] at h
  omega

end ServiceInstruction

namespace Sent

variable (s : Sent)

theorem get_first : s.message.get (s.message.length - 1) = s.instruction.first := rfl

theorem get_second : s.message.get (s.message.length - 2) =
    UInt8.ofNat ((s.instruction.cvAddr - 1) % 256) := rfl

theorem get_third : s.message.get (s.message.length - 3) = s.instruction.data := rfl

theorem errorDetection_message : Core0.errorDetection s.message = true := by
  have hbytes : s.message.data.reverse =
      s.instruction.bytes ++ [checksum s.instruction.bytes] := List.reverse_reverse _
  rw [Core0.errorDetection_eq, hbytes, checksum_concat, UInt8.xor_self]
  rfl

theorem isService_message : s.message.isService = true := by
  have hle := s.instruction.first_fields.1
  rw [Message.isService, s.get_first]
  simp only [UInt8.le_iff_toNat_le, UInt8.reduceToNat] at hle
  simp only [Bool.and_eq_true, decide_eq_true_eq, UInt8.lt_iff_toNat_lt, UInt8.reduceToNat]
  omega

end Sent

namespace Core0

/-! ### The memory -/

/-- The CVs after the instruction. -/
def programmed (board : Board) (overallAvgOffset : UInt8) (cvs : ℕ → UInt8) :
    ServiceInstruction → ℕ → UInt8
  | .writeByte a value =>
    if WriteAccepted cvs a value then Function.update cvs a value
    else if a = 7 ∧ value = 7 then Function.update cvs 172 overallAvgOffset
    else if a = 8 ∧ value = 8 then cvDefault board.decoderId
    else cvs
  | _ => cvs

/-- The instruction is acknowledged. -/
def Answers (cvs : ℕ → UInt8) : ServiceInstruction → Prop
  | .verifyByte a value => cvs a = value
  | .verifyBit a b v => (cvs a).toNat.testBit b = v
  | .writeBit a b v => (cvs a).toNat.testBit b = v
  | .writeByte a value => WriteAccepted cvs a value

instance (cvs : ℕ → UInt8) (i : ServiceInstruction) : Decidable (Answers cvs i) := by
  unfold Answers
  split <;> infer_instance

/-- The answer of the firmware. -/
def answer (board : Board) (self : Core0) (s : Sent) : Option (Bool × Core0) :=
  (self.next board (s.message, s.overallAvgOffset)).map fun self' =>
    (decide (self.acknowledged < self'.acknowledged), self')

/-- A service packet is not for the decoder. -/
def Apart (cvs : ℕ → UInt8) : Prop :=
  cvs 29 &&& 0b00100000 = 0 → ¬ (112 ≤ cvs 1 ∧ cvs 1 ≤ 127)

/-- The decoder is in program mode, with these CVs and a flash that works. -/
structure InProgramMode (cvs : ℕ → UInt8) (core : Core0) : Prop where
  flag : core.resetMessageFlag = true
  faultless : core.Faultless
  content : SameCvs core.cv cvs

variable {board : Board} {overallAvgOffset : UInt8} {cvs : ℕ → UInt8} {core core' : Core0}
  {i : ServiceInstruction} {s : Sent}

/-- Apart from its own address, the decoder takes no service packet for an
operation. -/
theorem not_addressed_sent (h : SameCvs core.cv cvs) (hapart : Apart cvs) (s : Sent) :
    core.addressed s.message = false := by
  have hfirst : s.message.data.getD (s.message.length - 1) 0 = s.instruction.first := rfl
  obtain ⟨hle, -⟩ := s.instruction.first_fields
  have h₂₉ : core.cv 29 = cvs 29 := h ⟨by decide, by decide⟩
  have h₁ : core.cv 1 = cvs 1 := h ⟨by decide, by decide⟩
  have hshort : ∀ b : UInt8, 112 ≤ b ∧ b ≤ 127 → b ≠ 255 ∧ b >>> 6 ≠ 0b00000011 := by
    have hall : ∀ b : Fin 256, 112 ≤ UInt8.ofFin b ∧ UInt8.ofFin b ≤ 127 →
        UInt8.ofFin b ≠ 255 ∧ UInt8.ofFin b >>> 6 ≠ 0b00000011 := by decide +kernel
    exact fun b => hall b.toFin
  obtain ⟨hidle, hlong⟩ := hshort _ hle
  rw [addressed, Rp2040.addressEvaluation, hfirst, if_neg hidle,
    show core.cvArrayFlash 28 = cvs 29 from h₂₉, show core.cvArrayFlash 0 = cvs 1 from h₁]
  by_cases hbit : cvs 29 &&& 0b00100000 = 0
  · -- a short address, which is not the first byte
    rw [if_neg (not_not.mpr hbit), beq_eq_false_iff_ne]
    exact fun heq => hapart hbit (heq ▸ hle)
  · rw [if_pos hbit, Rp2040.isLongAddress, hfirst, beq_false_of_ne hlong]
    rfl

/-! ### One instruction -/

/-- What `program_mode` does with the fields of the packet. -/
def execute (board : Board) (overallAvgOffset : UInt8) : ServiceInstruction → Firmware Unit
  | .verifyByte a value => verifyCvByte (a - 1) value
  | .verifyBit a b v =>
    verifyCvBit (a - 1) ((packBit false b v >>> 3) &&& 0b00000001) (0b00000111 &&& packBit false b v)
  | .writeBit a b v =>
    verifyCvBit (a - 1) ((packBit true b v >>> 3) &&& 0b00000001) (0b00000111 &&& packBit true b v)
  | .writeByte a value => writeCvHandler board overallAvgOffset (a - 1) value

/-- The packet selects its instruction. -/
theorem programMode_sent (s : Sent) : ∃ l,
    (programMode board overallAvgOffset s.message).run core =
      (execute board overallAvgOffset s.instruction).run (log l core) := by
  have hservice := s.isService_message
  rw [Message.isService, Bool.and_eq_true, decide_eq_true_eq, decide_eq_true_eq] at hservice
  have htype := s.instruction.first_fields.2.1
  have hindex := ServiceInstruction.cvIndex_eq s.cvAddr_mem
  rw [programMode, run_byteAt_bind, if_pos hservice, run_byteAt_log]
  simp only [s.get_first, s.get_second, htype, hindex]
  cases hi : s.instruction with
  | verifyByte a value =>
    have hcode : (ServiceInstruction.verifyByte a value).type.code <<< 2 = 0b00000100 := rfl
    rw [hcode, if_neg (by decide), if_pos rfl, run_byteAt_log, s.get_third, hi]
    exact ⟨_, rfl⟩
  | verifyBit a b v =>
    have hcode : (ServiceInstruction.verifyBit a b v).type.code <<< 2 = 0b00001000 := rfl
    rw [hcode, if_pos rfl, run_byteAt_log, s.get_third, hi]
    exact ⟨_, rfl⟩
  | writeBit a b v =>
    have hcode : (ServiceInstruction.writeBit a b v).type.code <<< 2 = 0b00001000 := rfl
    rw [hcode, if_pos rfl, run_byteAt_log, s.get_third, hi]
    exact ⟨_, rfl⟩
  | writeByte a value =>
    have hcode : (ServiceInstruction.writeByte a value).type.code <<< 2 = 0b00001100 := rfl
    rw [hcode, if_neg (by decide), if_neg (by decide), if_pos rfl, run_byteAt_log, s.get_third, hi]
    exact ⟨_, rfl⟩

/-- The bit is compared with the value, whatever the bit that tells a write
from a verification. -/
theorem bitMatches_iff (x : UInt8) (k : Bool) (b : Fin 8) (v : Bool) :
    (x >>> ((0b00000111 : UInt8) &&& packBit k b v)) &&& (1 : UInt8) =
        (packBit k b v >>> 3) &&& (1 : UInt8) ↔ x.toNat.testBit b = v := by
  have hfields : ∀ (k : Bool) (b : Fin 8) (v : Bool),
      (0b00000111 : UInt8) &&& packBit k b v = packBit false b v &&& 0b00000111 ∧
        (packBit k b v >>> 3) &&& (1 : UInt8) = (packBit false b v &&& 0b00001000) >>> 3 := by
    decide
  obtain ⟨hpos, hval⟩ := hfields k b v
  rw [hpos, hval]
  exact bitMatches_packBit x b v

theorem faultless_operation (sector : (Fin ERASE_SIZE → UInt8) → Fin ERASE_SIZE → UInt8) :
    Proc.Preserves Faultless (flashSafeExecute (RpFlash.operation sector)) := by
  intro self h
  rw [flashSafeExecute_run (RpFlash.operation_run_of_none (h _))]
  exact h

theorem faultless_eraseAndProgram (cvArray : CvArray) :
    Proc.Preserves Faultless (eraseAndProgram cvArray) := by
  refine .bind (faultless_operation _) fun ok => ?_
  cases ok
  · exact .pure _
  · exact faultless_operation _

theorem faultless_writeCvHandler (cvIndex : ℕ) (cvData : UInt8) :
    Proc.Preserves Faultless (writeCvHandler board overallAvgOffset cvIndex cvData) := by
  have hwrite (i : ℕ) : Proc.Preserves Faultless (writeCvByte i cvData) := by
    refine .bind (.gets _) fun cvArray => .bind (faultless_eraseAndProgram cvArray) fun ok => ?_
    cases ok
    · exact .pure _
    · exact .modify fun self h => h
  have hcalibrate : Proc.Preserves Faultless (adcOffsetAdjustment overallAvgOffset) :=
    .bind (.gets _) fun cvArray => .bind (faultless_eraseAndProgram cvArray) fun _ => .pure _
  have hdefaults : Proc.Preserves Faultless (resetCvArrayToDefault board) :=
    .bind (faultless_eraseAndProgram _) fun _ => .pure _
  rw [writeCvHandler]
  refine .bind (.gets id) fun self => ?_
  split
  · split
    · exact .pure _
    · exact hwrite _
  · split
    · exact hcalibrate
    · exact .pure _
  · split
    · exact hdefaults
    · exact .pure _
  · split
    · exact .pure _
    · exact hwrite _
  · split
    · exact .pure _
    · exact hwrite _
  · exact .pure _
  · exact .pure _
  · exact hwrite _

/-- The memory has these CVs, the firmware is still in program mode, and it has
acknowledged what `answers`. -/
structure Done (answers : Prop) [Decidable answers] (cvs : ℕ → UInt8) (core core' : Core0) :
    Prop where
  mode : InProgramMode cvs core'
  acknowledged : core'.acknowledged = core.acknowledged + if answers then 1 else 0

theorem acknowledge_run (h : InProgramMode cvs core) {p answers : Prop} [Decidable p]
    [Decidable answers] (hp : p ↔ answers) :
    ∃ core', (if p then acknowledge else pure () : Firmware Unit).run core = (.ok (), core') ∧
      Done answers cvs core core' := by
  by_cases hyes : p
  · rw [if_pos hyes]
    exact ⟨_, rfl, ⟨h.flag, h.faultless, h.content⟩, by rw [if_pos (hp.mp hyes)]⟩
  · rw [if_neg hyes]
    exact ⟨_, rfl, h, by rw [if_neg (mt hp.mpr hyes)]; rfl⟩

/-- A write leaves the decoder in program mode. -/
theorem mode_writeCvHandler (h : InProgramMode cvs core) {a : ℕ} {cvData : UInt8}
    {cvs' : ℕ → UInt8}
    (hrun : (writeCvHandler board overallAvgOffset (a - 1) cvData).run core = (.ok (), core'))
    (hcontent : SameCvs core'.cv cvs') : InProgramMode cvs' core' := by
  have hfaultless := @faultless_writeCvHandler board overallAvgOffset (a - 1) cvData core
    h.faultless
  have hflag := congrArg Prod.fst (@writeCvHandler_keeps board _ _ unprogrammed_untouched
    overallAvgOffset (a - 1) cvData core)
  rw [hrun] at hfaultless hflag
  exact ⟨hflag.trans h.flag, hfaultless, hcontent⟩

theorem writeCvHandler_run (h : InProgramMode cvs core) {a : ℕ} (h₁ : 1 ≤ a) (h₂ : a ≤ CV_SIZE)
    (value : UInt8) : ∃ core',
      (writeCvHandler board overallAvgOffset (a - 1) value).run core = (.ok (), core') ∧
      Done (Answers cvs (.writeByte a value))
        (programmed board overallAvgOffset cvs (.writeByte a value)) core core' := by
  have haccepted := h.content.accepted_iff a value
  rw [programmed]
  by_cases ha : WriteAccepted cvs a value
  · -- one CV is written
    obtain ⟨core', hrun, hack, hcv⟩ := writeCvByte_run h.faultless h₁ h₂ value
    rw [← @writeCvHandler_accepted core board overallAvgOffset a value h₁ (haccepted.mpr ha)]
      at hrun
    rw [if_pos ha]
    refine ⟨core', hrun, mode_writeCvHandler h hrun (hcv.trans (h.content.update a value)), ?_⟩
    rw [hack, if_pos (show Answers cvs (.writeByte a value) from ha)]
  have hno : ¬ Answers cvs (.writeByte a value) := ha
  rw [if_neg ha]
  by_cases h7 : a = 7 ∧ value = 7
  · obtain ⟨rfl, rfl⟩ := h7
    obtain ⟨core', hrun, hack, hcv⟩ := adcOffsetAdjustment_run h.faultless overallAvgOffset
    have hrun' : (writeCvHandler board overallAvgOffset (7 - 1) 7).run core = (.ok (), core') :=
      hrun
    rw [if_pos ⟨rfl, rfl⟩]
    refine ⟨core', hrun, mode_writeCvHandler h hrun' (hcv.trans (h.content.update 172 _)), ?_⟩
    rw [hack, if_neg hno]
    rfl
  rw [if_neg h7]
  by_cases h8 : a = 8 ∧ value = 8
  · obtain ⟨rfl, rfl⟩ := h8
    obtain ⟨core', hrun, hack, hcv⟩ := resetCvArrayToDefault_run h.faultless board
    have hrun' : (writeCvHandler board overallAvgOffset (8 - 1) 8).run core = (.ok (), core') :=
      hrun
    rw [if_pos ⟨rfl, rfl⟩]
    refine ⟨core', hrun, mode_writeCvHandler h hrun' hcv, ?_⟩
    rw [hack, if_neg hno]
    rfl
  rw [if_neg h8]
  -- the value is rejected, or the CV is not one that is written
  have hrun : (writeCvHandler board overallAvgOffset (a - 1) value).run core = (.ok (), core) := by
    rcases not_writeAccepted_iff.mp (mt haccepted.mp ha) with hrejected | rfl | rfl | hignored
    · exact writeCvHandler_rejected hrejected
    · rw [writeCvHandler_version, if_neg fun hv => h7 ⟨rfl, hv⟩, Proc.run_pure]
    · rw [writeCvHandler_id, if_neg fun hv => h8 ⟨rfl, hv⟩, Proc.run_pure]
    · exact writeCvHandler_ignored hignored
  refine ⟨core, hrun, h, ?_⟩
  rw [if_neg hno]
  rfl

/-- The firmware does what the memory does. -/
theorem execute_run (h : InProgramMode cvs core) (hi : 1 ≤ i.cvAddr ∧ i.cvAddr ≤ CV_SIZE) :
    ∃ core', (execute board overallAvgOffset i).run core = (.ok (), core') ∧
      Done (Answers cvs i) (programmed board overallAvgOffset cvs i) core core' := by
  have hcv {a : ℕ} (ha : 1 ≤ a ∧ a ≤ CV_SIZE) : core.cvArrayFlash (a - 1) = cvs a := h.content ha
  cases i with
  | verifyByte a value =>
    rw [execute, verifyCvByte, Proc.run_gets_bind, id, hcv (a := a) hi]
    exact acknowledge_run h Iff.rfl
  | verifyBit a b v =>
    rw [execute, verifyCvBit, Proc.run_gets_bind, id, hcv (a := a) hi]
    exact acknowledge_run h (bitMatches_iff (cvs a) false b v)
  | writeBit a b v =>
    rw [execute, verifyCvBit, Proc.run_gets_bind, id, hcv (a := a) hi]
    exact acknowledge_run h (bitMatches_iff (cvs a) true b v)
  | writeByte a value => exact writeCvHandler_run h hi.1 hi.2 value

/-- The evaluation of an instruction answers as the memory does. -/
theorem answer_sent (h : InProgramMode cvs core) (hapart : Apart cvs) (s : Sent) :
    ∃ core', answer board core s = some (decide (Answers cvs s.instruction), core') ∧
      InProgramMode (programmed board s.overallAvgOffset cvs s.instruction) core' := by
  have hlen : 2 ≤ s.message.length := show 2 ≤ 4 by decide
  obtain ⟨l, heval, -⟩ := evaluatePacket_of_flag board s.overallAvgOffset hlen
    s.errorDetection_message (not_addressed_sent h.content hapart s) h.flag
  obtain ⟨l', hmode⟩ := @programMode_sent board s.overallAvgOffset (log l core) s
  rw [log_log] at hmode
  have hlog : InProgramMode cvs (log (l ++ l') core) := ⟨h.flag, h.faultless, h.content⟩
  obtain ⟨core', hrun, hdone⟩ :=
    @execute_run board s.overallAvgOffset cvs _ s.instruction hlog s.cvAddr_mem
  have hnext : core.next board (s.message, s.overallAvgOffset) = some core' := by
    rw [Core0.next, heval, hmode, hrun]
  refine ⟨core', ?_, hdone.mode⟩
  have hack : core.acknowledged < core'.acknowledged ↔ Answers cvs s.instruction := by
    have hcount : core'.acknowledged =
      core.acknowledged + if Answers cvs s.instruction then 1 else 0 := hdone.acknowledged
    rw [hcount]
    split
    · rename_i hyes
      exact iff_of_true (Nat.lt_succ_self _) hyes
    · rename_i hno
      exact iff_of_false (Nat.lt_irrefl _) hno
  rw [answer, hnext, Option.map_some, decide_eq_decide.mpr hack]

/-- A reset message leads to the program mode, with the CVs as they are. -/
theorem inProgramMode_of_reset {packet : Message} (hf : core.Faultless)
    (hlen : 2 ≤ packet.length) (hsum : errorDetection packet = true)
    (hreset : packet.isReset = true) (haddressed : core.addressed packet = false) :
    InProgramMode core.cv ((evaluatePacket board overallAvgOffset packet).run core).2 := by
  have hmode {s : Core0} (hflag : s.resetMessageFlag = true) (hflash : s.flash = core.flash) :
      InProgramMode core.cv s := by
    refine ⟨hflag, ?_, fun n _ => ?_⟩
    · rw [Faultless, hflash]
      exact hf
    · rw [cv, cv, cvArrayFlash, cvArrayFlash, hflash]
  cases hflag : core.resetMessageFlag with
  | true =>
    -- it is no service packet, so the program mode goes on
    obtain ⟨l, heval, -⟩ := evaluatePacket_of_flag board overallAvgOffset hlen hsum haddressed hflag
    have hservice : packet.isService = false := eq_false_of_ne_true fun hyes => by
      rw [Message.isReset_of_isService hyes] at hreset
      cases hreset
    rw [heval, programMode_run_of_not_service board overallAvgOffset hservice]
    exact hmode hflag rfl
  | false =>
    obtain ⟨l, s, heval, -, hbut⟩ :=
      evaluatePacket_of_not_flag board overallAvgOffset hlen hsum haddressed hflag
    rw [heval]
    exact hmode (hbut.resetMessageFlag.trans hreset) hbut.flash

/-! ### Runs -/

/-- The memory after the instructions. -/
def contents (board : Board) (cvs : ℕ → UInt8) (sents : List Sent) : ℕ → UInt8 :=
  sents.foldl (fun cvs s => programmed board s.overallAvgOffset cvs s.instruction) cvs

/-- The answers of the memory. -/
def answers (board : Board) : (ℕ → UInt8) → List Sent → List Bool
  | _, [] => []
  | cvs, s :: sents =>
    decide (Answers cvs s.instruction) ::
      answers board (programmed board s.overallAvgOffset cvs s.instruction) sents

/-- No instruction is sent while the decoder takes it for one of its own
packets. -/
def AllApart (board : Board) (cvs : ℕ → UInt8) (sents : List Sent) : Prop :=
  ∀ sents₁ s sents₂, sents = sents₁ ++ s :: sents₂ → Apart (contents board cvs sents₁)

theorem AllApart.head {sents : List Sent} (h : AllApart board cvs (s :: sents)) : Apart cvs :=
  h [] s sents rfl

theorem AllApart.tail {sents : List Sent} (h : AllApart board cvs (s :: sents)) :
    AllApart board (programmed board s.overallAvgOffset cvs s.instruction) sents :=
  fun sents₁ s' sents₂ heq => h (s :: sents₁) s' sents₂ (by rw [heq, List.cons_append])

/-- In program mode, the firmware answers as the memory. -/
theorem observe_inProgramMode {sents : List Sent} (h : InProgramMode cvs core)
    (hapart : AllApart board cvs sents) :
    ∃ core', observe (answer board) core sents = some (answers board cvs sents, core') ∧
      InProgramMode (contents board cvs sents) core' := by
  induction sents generalizing cvs core with
  | nil => exact ⟨core, rfl, h⟩
  | cons s sents ih =>
    obtain ⟨core₁, hanswer, h₁⟩ := @answer_sent board cvs core h hapart.head s
    obtain ⟨core', hobserve, h'⟩ := ih h₁ hapart.tail
    refine ⟨core', ?_, h'⟩
    rw [observe, hanswer, Option.bind_some, hobserve, Option.map_some]
    rfl

/-- **Program mode is a memory of CVs.**  Behind a reset message, and while no
flash operation fails, every sequence of instructions for the CVs is evaluated,
acknowledged as the memory answers, and leaves the CVs of the memory. -/
theorem observe_program {packet : Message} {sents : List Sent} (hf : core.Faultless)
    (hlen : 2 ≤ packet.length) (hsum : errorDetection packet = true)
    (hreset : packet.isReset = true) (haddressed : core.addressed packet = false)
    (hapart : AllApart board core.cv sents) :
    ∃ core', observe (answer board)
        ((evaluatePacket board overallAvgOffset packet).run core).2 sents =
          some (answers board core.cv sents, core') ∧
      SameCvs core'.cv (contents board core.cv sents) ∧ core'.resetMessageFlag = true := by
  have h := @inProgramMode_of_reset board overallAvgOffset core packet hf hlen hsum hreset
    haddressed
  obtain ⟨core', hobserve, h'⟩ := observe_inProgramMode h hapart
  exact ⟨core', hobserve, h'.content, h'.flag⟩

/-! ### Reading out -/

theorem answers_append (cvs : ℕ → UInt8) (sents sents' : List Sent) :
    answers board cvs (sents ++ sents') =
      answers board cvs sents ++ answers board (contents board cvs sents) sents' := by
  induction sents generalizing cvs with
  | nil => rfl
  | cons s sents ih => rw [List.cons_append, answers, ih]; rfl

theorem length_answers (cvs : ℕ → UInt8) (sents : List Sent) :
    (answers board cvs sents).length = sents.length := by
  induction sents generalizing cvs with
  | nil => rfl
  | cons s sents ih => rw [answers, List.length_cons, ih, List.length_cons]

/-- The instruction leaves CV `n` alone. -/
def Spares (n : ℕ) : ServiceInstruction → Prop
  | .writeByte a value => a ≠ n ∧ ¬ (a = 7 ∧ value = 7 ∧ n = 172) ∧ ¬ (a = 8 ∧ value = 8)
  | _ => True

instance (n : ℕ) (i : ServiceInstruction) : Decidable (Spares n i) := by
  unfold Spares
  split <;> infer_instance

theorem programmed_of_spares {n : ℕ} (h : Spares n i) :
    programmed board overallAvgOffset cvs i n = cvs n := by
  cases i with
  | writeByte a value =>
    obtain ⟨hne, h7, h8⟩ := h
    rw [programmed]
    split
    · exact Function.update_of_ne (Ne.symm hne) _ _
    split
    · rename_i hv
      exact Function.update_of_ne (fun hn => h7 ⟨hv.1, hv.2, hn⟩) _ _
    · rfl
  | _ => rfl

theorem contents_of_spares {n : ℕ} {sents : List Sent} (h : ∀ s ∈ sents, Spares n s.instruction) :
    contents board cvs sents n = cvs n := by
  induction sents generalizing cvs with
  | nil => rfl
  | cons s sents ih =>
    exact (ih fun s' hs' => h s' (List.mem_cons_of_mem s hs')).trans
      (programmed_of_spares (h s List.mem_cons_self))

/-- A written CV has the new value if the write is acknowledged, and else the
old one; CV8 resets the decoder. -/
theorem programmed_self {a : ℕ} {value : UInt8} (h8 : ¬ (a = 8 ∧ value = 8)) :
    programmed board overallAvgOffset cvs (.writeByte a value) a =
      if WriteAccepted cvs a value then value else cvs a := by
  rw [programmed]
  split
  · exact Function.update_self a value cvs
  split
  · rename_i h7
    exact Function.update_of_ne (by omega) _ _
  · rfl

/-- Verifications are answered from the CVs they find. -/
theorem answers_ofFn {a n : ℕ} {reader : Fin n → Sent} {bit : Fin n → Fin 8}
    (h : ∀ k, (reader k).instruction = .verifyBit a (bit k) true) :
    answers board cvs (List.ofFn reader) = List.ofFn fun k => (cvs a).toNat.testBit (bit k) := by
  induction n with
  | zero => rfl
  | succ n ih =>
    have hsame : programmed board (reader 0).overallAvgOffset cvs (reader 0).instruction = cvs := by
      rw [h 0]
      rfl
    have hbit : decide (Answers cvs (reader 0).instruction) = (cvs a).toNat.testBit (bit 0) := by
      rw [Bool.eq_iff_iff, decide_eq_true_iff, h 0]
      exact Iff.rfl
    rw [List.ofFn_succ, List.ofFn_succ, answers, hsame, ih fun k => h k.succ, hbit]

/-- Instructions that do not touch the address. -/
theorem allApart_of_spares {sents : List Sent} (h : Apart cvs)
    (hall : ∀ s ∈ sents, Spares 29 s.instruction ∧ Spares 1 s.instruction) :
    AllApart board cvs sents := by
  rintro sents₁ s sents₂ rfl
  have hmem : ∀ s' ∈ sents₁, s' ∈ sents₁ ++ s :: sents₂ := fun s' => List.mem_append_left _
  rw [Apart, contents_of_spares fun s' hs' => (hall s' (hmem s' hs')).1,
    contents_of_spares fun s' hs' => (hall s' (hmem s' hs')).2]
  exact h

/-- The decoder with the factory defaults after a reset message. -/
def enteredCore : Core0 :=
  ((evaluatePacket board₀ 0 ⟨[0, 0, 0], fun _ => 0⟩).run Handler.programmingCore).2

theorem inProgramMode_enteredCore : InProgramMode Handler.programmingCore.cv enteredCore :=
  inProgramMode_of_reset (fun _ => rfl) (by decide) (by decide) (by decide) (by decide)

/-- An instruction for CV3. -/
def toCv₃ (i : ServiceInstruction) (h : i.cvAddr = 3) : Sent :=
  ⟨i, by rw [h]; decide, fun _ => 0, 0⟩

/-- The value 42, a bit write that does nothing, and the bits. -/
def session : List Sent :=
  toCv₃ (.writeByte 3 42) rfl :: ([toCv₃ (.writeBit 3 (Fin.last 7) true) rfl] ++
    List.ofFn fun b => toCv₃ (.verifyBit 3 b true) rfl)

theorem allApart_session : AllApart board₀ Handler.programmingCore.cv session :=
  allApart_of_spares (fun _ => by decide) (by decide +kernel)

/-- The decoder stays in program mode. -/
theorem observe_program_session :
    ∃ core', observe (answer board₀) enteredCore session =
        some (answers board₀ Handler.programmingCore.cv session, core') ∧
      core'.resetMessageFlag = true := by
  obtain ⟨core', hobserve, -, hflag⟩ := @observe_program board₀ 0 Handler.programmingCore
    ⟨[0, 0, 0], fun _ => 0⟩ session (fun _ => rfl) (by decide) (by decide) (by decide) (by decide)
    allApart_session
  exact ⟨core', hobserve, hflag⟩

end Core0

end Rp2040
