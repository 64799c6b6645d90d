/-
DCC packets and their codec (`dcc/src/transport/`).

* `Packet` carries the proof that it fits its six-byte vector;
* `DccCodec.decode` — the checks a raw packet has to pass, in their order;
* `Packet.addr`, `OperationModeInstruction.tryFrom`, the service-mode fields;
* `decode_cases` — the shape of every packet the codec produces;
* `addr_cons` — the address of a packet with at least one byte.
-/
import Mathlib.Algebra.Group.Nat.Defs
import Mathlib.Data.List.Basic
import Rp2040Decoder.Cv
import Rp2040Decoder.Velocity

namespace Rp2040

inductive PacketError
  | undersize
  | oversize
  | invalidChecksum
  /-- Packet has an invalid / unsupported address -/
  | invalidAddress
  /-- For operation or service mode. -/
  | invalidInstruction
  deriving DecidableEq, Repr

/-- A valid DCC packet. -/
structure Packet where
  data : List UInt8
  length_le : data.length ≤ 6
  deriving DecidableEq

/-- `data[i]`; panics out of range. -/
def index {ε : Type} (data : List UInt8) (i : ℕ) : Except (Fault ε) UInt8 := Proc.checked data[i]?

/-- Whether the raw packet contains a basic (one byte) address. -/
def isBasicAddress {ε : Type} (rawPacket : List UInt8) : Except (Fault ε) Bool := do
  return decide ((← index rawPacket 0) ≤ 127)

/-- Whether the raw packet contains an extended (two byte) address for a
multifunction decoder. -/
def isMfExtendedAddress : List UInt8 → Bool
  | d₀ :: _ :: _ => decide (192 ≤ d₀ ∧ d₀ ≤ 231)
  | _ => false

/-! ### The codec -/

/-- `DccCodec::decode`; `none` is an idle packet. -/
def DccCodec.decode (raw : List UInt8) : Except PacketError (Option Packet) :=
  if 6 < raw.length then .error .oversize
  -- packets must be at least 3 bytes
  else if raw.length < 3 then .error .undersize
  else if raw.head? = some 0xFF then .ok none
  else if isMfExtendedAddress raw ∧ raw.length < 4 then .error .undersize
  -- future use range / advanced extended packet format
  else if ∃ d₀ ∈ raw.head?, 232 ≤ d₀ ∧ d₀ ≤ 254 then .error .invalidAddress
  else if raw.foldl (· ^^^ ·) 0 ≠ 0 then .error .invalidChecksum
  -- trim off the checksum byte
  else if h : raw.dropLast.length ≤ 6 then .ok (some ⟨raw.dropLast, h⟩)
  else .error .oversize

namespace Packet

/-- Reads the address from the packet. -/
def addr (self : Packet) : Except (Fault PacketError) UInt16 := do
  if ← isBasicAddress self.data then
    return ((← index self.data 0) &&& 0b01111111).toUInt16
  else if isMfExtendedAddress self.data then readExtendedAddress (self.data.take 2)
  else .error (.error .invalidAddress)

/-- Whether the packet may be a service mode packet. -/
def serviceModeCandidate {ε : Type} (self : Packet) : Except (Fault ε) Bool := do
  let d₀ ← index self.data 0
  return decide (112 ≤ d₀ ∧ d₀ ≤ 127)

/-- The length of the address in bytes. -/
def addressLength (self : Packet) : Except (Fault PacketError) ℕ := do
  if ← isBasicAddress self.data then return 1
  else if isMfExtendedAddress self.data then return 2
  else .error (.error .invalidAddress)

/-- Whether the packet is a reset packet. -/
def isReset (self : Packet) : Bool :=
  match self.data with
  | d₀ :: d₁ :: _ => d₀ == 0x00 && d₁ == 0x00
  | _ => false

end Packet

/-! ### Function groups -/

/-- `FunctionGroupFlags`: bit `n` is function `n`, and FL is function 0. -/
abbrev FunctionGroupFlags := UInt32

structure FunctionGroup where
  /-- Flags that are present in the current group -/
  groupMask : FunctionGroupFlags
  /-- Value of the flags -/
  flags : FunctionGroupFlags
  deriving DecidableEq, Repr

def FunctionGroup.new (groupMask flags : FunctionGroupFlags) : FunctionGroup :=
  ⟨groupMask, flags &&& groupMask⟩

/-- The flags of functions `m` to `n`. -/
def functions (m n : ℕ) : FunctionGroupFlags :=
  UInt32.ofNat (2 ^ (n + 1) - 2 ^ m)

/-- The flag of function `n` if bit `i` of the instruction is set. -/
def flagOfBit (instruction : UInt8) (i n : ℕ) : FunctionGroupFlags :=
  if instruction.toNat.testBit i then functions n n else 0

/-- Group 1: 100 D D D D D (FL F4 F3 F2 F1) -/
def parseFg1 (instruction : UInt8) : FunctionGroup :=
  .new (functions 0 4) (flagOfBit instruction 0 1 ||| flagOfBit instruction 1 2 |||
    flagOfBit instruction 2 3 ||| flagOfBit instruction 3 4 ||| flagOfBit instruction 4 0)

/-- Group 2: 101 S D D D D, where S selects F5-F8 or F9-F12. -/
def parseFg2 (instruction : UInt8) : FunctionGroup :=
  if instruction.toNat.testBit 4 then
    .new (functions 5 8) (flagOfBit instruction 0 5 ||| flagOfBit instruction 1 6 |||
      flagOfBit instruction 2 7 ||| flagOfBit instruction 3 8)
  else
    .new (functions 9 12) (flagOfBit instruction 0 9 ||| flagOfBit instruction 1 10 |||
      flagOfBit instruction 2 11 ||| flagOfBit instruction 3 12)

/-- A Feature Expansion instruction: F13-F20, F21-F28 or F29-F31. -/
def parseFeatureExpansion (first second : UInt8) : Option FunctionGroup :=
  match first with
  | 0b11011110 => some (.new (functions 13 20) (second.toUInt32 <<< 13))
  | 0b11011111 => some (.new (functions 21 28) (second.toUInt32 <<< 21))
  | 0b11011000 => some (.new (functions 29 31) ((second &&& 0b00000111).toUInt32 <<< 29))
  | _ => none

/-! ### Operation mode -/

inductive AdvancedOperationsInstruction
  | speedStepControl (v : VelocitySetpoint)
  deriving DecidableEq, Repr

inductive OperationModeInstruction
  | advancedOperations (o : AdvancedOperationsInstruction)
  | functionGroup (fg : FunctionGroup)
  deriving DecidableEq, Repr

/-- 128 speed step control: the top bit is the direction, and speed 1 is the
emergency stop. -/
def speedStepControl (speedVector : UInt8) : VelocitySetpoint where
  direction := if speedVector &&& 0b10000000 = 0 then .reverse else .forward
  speedStep :=
    match speedVector &&& 0b01111111 with
    | 0 => .stop
    | 1 => .emergencyStop
    | speed => .num (speed - 1)

/-- `TryFrom<&Packet>` -/
def OperationModeInstruction.tryFrom (value : Packet) :
    Except (Fault PacketError) OperationModeInstruction := do
  let data := value.data.drop (← value.addressLength)
  match data with
  | [] => .error (.error .undersize)
  | first :: rest =>
    -- `OperationInstructionType`
    match first >>> 5 with
    | 0b001 =>
      if first &&& 0b00011111 = 0b11111 then
        match rest with
        | [] => .error (.error .undersize)
        | speedVector :: _ =>
          .ok (.advancedOperations (.speedStepControl (speedStepControl speedVector)))
      else .error (.error .invalidInstruction)
    | 0b100 => .ok (.functionGroup (parseFg1 first))
    | 0b101 => .ok (.functionGroup (parseFg2 first))
    | 0b110 =>
      match rest with
      | [] => .error (.error .undersize)
      | second :: _ =>
        match parseFeatureExpansion first second with
        | some fg => .ok (.functionGroup fg)
        | none => .error (.error .invalidInstruction)
    | _ => .error (.error .invalidInstruction)

/-! ### Service mode -/

inductive ServiceInstructionType
  | manipulateBit
  | verifyByte
  | writeByte
  deriving DecidableEq, Repr

namespace Packet

/-- Bits 3 and 2 of the first byte select the instruction. -/
def instructionType (self : Packet) : Except (Fault PacketError) ServiceInstructionType :=
  match self.data with
  | [] => .error (.error .undersize)
  | d₀ :: _ =>
    match (d₀ >>> 2) &&& 0b11 with
    | 0b10 => .ok .manipulateBit
    | 0b01 => .ok .verifyByte
    | 0b11 => .ok .writeByte
    | _ => .error (.error .invalidInstruction)

def cvAddress (self : Packet) : Except (Fault PacketError) ℕ :=
  match self.data with
  | d₀ :: d₁ :: _ => .ok ((d₀ &&& 0b0000011).toNat * 256 + d₁.toNat + 1)
  | _ => .error (.error .undersize)

def cvData (self : Packet) : Except (Fault PacketError) UInt8 :=
  match self.data with
  | _ :: _ :: d₂ :: _ => .ok d₂
  | _ => .error (.error .undersize)

/-- Every CV a service packet can name is one the store has. -/
theorem cvAddress_mem {self : Packet} {a : ℕ} (h : self.cvAddress = .ok a) :
    1 ≤ a ∧ a ≤ CV_SIZE := by
  rw [cvAddress] at h
  split at h
  · rename_i d₀ d₁ rest hd
    have hmask : (d₀ &&& 0b0000011).toNat ≤ 3 := by
      rw [UInt8.toNat_and]
      exact Nat.and_le_right
    have hd₁ := d₁.toNat_lt
    have hsize : CV_SIZE = 1024 := rfl
    rw [Except.ok.injEq] at h
    omega
  · cases h

end Packet

/-! ### Decoded packets -/

/-- A packet the codec produces is its raw packet without the checksum; it has
two bytes at least, and its first byte is no idle or reserved address. -/
theorem decode_cases {raw : List UInt8} {packet : Packet}
    (h : DccCodec.decode raw = .ok (some packet)) :
    ∃ d₀ d₁ d₂ rest, raw = d₀ :: d₁ :: d₂ :: rest ∧
      packet.data = d₀ :: d₁ :: (d₂ :: rest).dropLast ∧ d₀ ≤ 231 := by
  rw [DccCodec.decode] at h
  split_ifs at h with h₁ h₂ h₃ h₄ h₅ h₆ h₇
  · cases h
  simp only [Except.ok.injEq, Option.some.injEq] at h
  match raw with
  | d₀ :: d₁ :: d₂ :: rest =>
    refine ⟨d₀, d₁, d₂, rest, rfl, by rw [← h]; rfl, ?_⟩
    simp only [List.head?_cons, Option.some.injEq, Option.mem_some_iff, exists_eq_left'] at h₃ h₅
    have hne : d₀.toNat ≠ 255 := fun he => h₃ (UInt8.toNat_inj.mp he)
    have hlt := d₀.toNat_lt
    rw [UInt8.le_iff_toNat_le, UInt8.le_iff_toNat_le] at h₅
    rw [UInt8.le_iff_toNat_le]
    simp only [UInt8.reduceToNat] at h₅ ⊢
    omega
  | [] | [_] | [_, _] => simp at h₂

theorem and_127_of_le {d : UInt8} (h : d ≤ 127) : d &&& 0b01111111 = d := by
  have hle : d.toNat ≤ 127 := UInt8.le_iff_toNat_le.mp h
  refine UInt8.toNat_inj.mp ?_
  rw [UInt8.toNat_and]
  exact (Nat.and_two_pow_sub_one_eq_mod d.toNat 7).trans (Nat.mod_eq_of_lt (by omega))

theorem isBasicAddress_cons {ε : Type} (d₀ : UInt8) (rest : List UInt8) :
    (isBasicAddress (d₀ :: rest) : Except (Fault ε) Bool) = .ok (decide (d₀ ≤ 127)) := rfl

theorem addr_cons {packet : Packet} {d₀ d₁ : UInt8} {rest : List UInt8}
    (h : packet.data = d₀ :: d₁ :: rest) :
    packet.addr =
      if d₀ ≤ 127 then .ok d₀.toUInt16
      else if 192 ≤ d₀ ∧ d₀ ≤ 231 then .ok (extendedAddress d₀ d₁)
      else .error (.error .invalidAddress) := by
  have hindex : (index (d₀ :: d₁ :: rest) 0 : Except (Fault PacketError) UInt8) = .ok d₀ := rfl
  rw [Packet.addr, h, isBasicAddress_cons, hindex]
  simp only [bind, Except.bind, pure, Except.pure, decide_eq_true_eq]
  by_cases h₀ : d₀ ≤ 127
  · rw [if_pos h₀, if_pos h₀, and_127_of_le h₀]
  · rw [if_neg h₀, if_neg h₀]
    simp only [isMfExtendedAddress, decide_eq_true_eq, List.take_succ_cons, readExtendedAddress]

theorem addressLength_cons {packet : Packet} {d₀ d₁ : UInt8} {rest : List UInt8}
    (h : packet.data = d₀ :: d₁ :: rest) :
    packet.addressLength =
      if d₀ ≤ 127 then .ok 1
      else if 192 ≤ d₀ ∧ d₀ ≤ 231 then .ok 2
      else .error (.error .invalidAddress) := by
  rw [Packet.addressLength, h, isBasicAddress_cons]
  simp only [bind, Except.bind, pure, Except.pure, decide_eq_true_eq, isMfExtendedAddress]

end Rp2040
