/-
Parsing a packet with every check written out.

The functions of `Packet` and `ServiceMode` whose operations cannot fail are
written without the checks the compiler puts around them.  Here the checks are
there, and a failed one is a panic:

* `decodeChecked_eq` — decoding does not panic, whatever the raw slice;
* `tryFromChecked_eq`, `cvAddressChecked_eq` — nor does parsing a packet whose
  address can be read;
* `withBitChecked_eq`, `bitChecked_eq` — nor do the shifts of `manipulate_bit`.
-/
import Rp2040Decoder.Overflow
import Rp2040Decoder.ServiceMode

namespace Rp2040

/-- `&data[start..]`; panics when it starts beyond the end. -/
def sliceFrom {ε : Type} (data : List UInt8) (start : ℕ) : Except (Fault ε) (List UInt8) :=
  Proc.checked (if start ≤ data.length then some (data.drop start) else none)

/-- `&data[..stop]`; panics when it stops beyond the end. -/
def sliceTo {ε : Type} (data : List UInt8) (stop : ℕ) : Except (Fault ε) (List UInt8) :=
  Proc.checked (if stop ≤ data.length then some (data.take stop) else none)

/-- `Vec::from_slice` for the six-byte vector of a packet, unwrapped. -/
def Packet.fromSlice {ε : Type} (data : List UInt8) : Except (Fault ε) Packet :=
  Proc.checked (if h : data.length ≤ 6 then some ⟨data, h⟩ else none)

/-- `DccCodec::decode` with its checks. -/
def DccCodec.decodeChecked (p : Profile) (raw : List UInt8) :
    Except (Fault PacketError) (Option Packet) := do
  if 6 < raw.length then .error (.error .oversize)
  else if raw.length < 3 then .error (.error .undersize)
  else if (← index raw 0) = 0xFF then return none
  else if isMfExtendedAddress raw ∧ raw.length < 4 then .error (.error .undersize)
  else
    let d₀ ← index raw 0
    if 232 ≤ d₀ ∧ d₀ ≤ 254 then .error (.error .invalidAddress)
    else if raw.foldl (· ^^^ ·) 0 ≠ 0 then .error (.error .invalidChecksum)
    else
      let stop ← Proc.checked (p.subUsize raw.length 1)
      return some (← Packet.fromSlice (← sliceTo raw stop))

/-- `speedStepControl` with its check: the speed steps are numbered from 1. -/
def speedStepControlChecked {ε : Type} (p : Profile) (speedVector : UInt8) :
    Except (Fault ε) VelocitySetpoint := do
  let direction := if speedVector &&& 0b10000000 = 0 then .reverse else .forward
  match speedVector &&& 0b01111111 with
  | 0 => return { speedStep := .stop, direction }
  | 1 => return { speedStep := .emergencyStop, direction }
  | speed => return { speedStep := .num (← Proc.checked (p.subU8 speed 1)), direction }

/-- `OperationModeInstruction::try_from` with its checks. -/
def OperationModeInstruction.tryFromChecked (p : Profile) (value : Packet) :
    Except (Fault PacketError) OperationModeInstruction := do
  let data ← sliceFrom value.data (← value.addressLength)
  match data with
  | [] => .error (.error .undersize)
  | first :: rest =>
    match first >>> 5 with
    | 0b001 =>
      if first &&& 0b00011111 = 0b11111 then
        match rest with
        | [] => .error (.error .undersize)
        | speedVector :: _ =>
          return .advancedOperations (.speedStepControl (← speedStepControlChecked p speedVector))
      else .error (.error .invalidInstruction)
    | 0b100 => .ok (.functionGroup (parseFg1 first))
    | 0b101 => .ok (.functionGroup (parseFg2 first))
    | 0b110 =>
      match rest with
      | [] => .error (.error .undersize)
      | second :: _ =>
        match parseFeatureExpansion first second with
        | some fg => .ok (.functionGroup fg)
        | none => .error (.error .invalidInstruction)
    | _ => .error (.error .invalidInstruction)

/-- `cv_address` with its checks: the sum is one of `u16`. -/
def Packet.cvAddressChecked (p : Profile) (self : Packet) : Except (Fault PacketError) ℕ :=
  match self.data with
  | d₀ :: d₁ :: _ => do
    let msb := (d₀ &&& 0b0000011).toUInt16 <<< 8
    let sum ← Proc.checked (p.addU16 msb d₁.toUInt16)
    let address ← Proc.checked (p.addU16 sum 1)
    return address.toNat
  | _ => .error (.error .undersize)

/-- The new value in `manipulate_bit` with its checks. -/
def withBitChecked {ε : Type} (p : Profile) (current packed : UInt8) :
    Except (Fault ε) UInt8 := do
  let bitPos := packed &&& 0b00000111
  let dVal ← Proc.checked (p.shrU8 (packed &&& 0b00001000) 3)
  let mask ← Proc.checked (p.shlU8 1 bitPos)
  return (current &&& ~~~mask) ||| (← Proc.checked (p.shlU8 dVal bitPos))

/-- The bit compared in `manipulate_bit`, with its checks. -/
def bitChecked {ε : Type} (p : Profile) (current packed : UInt8) : Except (Fault ε) UInt8 := do
  return (← Proc.checked (p.shrU8 current (packed &&& 0b00000111))) &&& 1

variable {ε : Type} {p : Profile}

theorem checked_some {α : Type} (a : α) :
    (Proc.checked (some a) : Except (Fault ε) α) = .ok a := rfl

theorem index_zero_cons {d₀ : UInt8} {rest : List UInt8} :
    (index (d₀ :: rest) 0 : Except (Fault ε) UInt8) = .ok d₀ := rfl

theorem sliceTo_pred {d : UInt8} {rest : List UInt8} :
    (sliceTo (d :: rest) (rest.length + 1 - 1) : Except (Fault ε) (List UInt8)) =
      .ok (d :: rest).dropLast := by
  rw [sliceTo, if_pos (by rw [List.length_cons]; omega), checked_some, List.dropLast_eq_take,
    List.length_cons]

theorem fromSlice_of_le {data : List UInt8} (h : data.length ≤ 6) :
    (Packet.fromSlice data : Except (Fault ε) Packet) = .ok ⟨data, h⟩ := by
  rw [Packet.fromSlice, dif_pos h, checked_some]

/-- Decoding never panics. -/
theorem decodeChecked_eq (raw : List UInt8) :
    DccCodec.decodeChecked p raw = (DccCodec.decode raw).mapError .error := by
  rw [DccCodec.decodeChecked, DccCodec.decode]
  by_cases h₁ : 6 < raw.length
  · rw [if_pos h₁, if_pos h₁]
    rfl
  rw [if_neg h₁, if_neg h₁]
  by_cases h₂ : raw.length < 3
  · rw [if_pos h₂, if_pos h₂]
    rfl
  rw [if_neg h₂, if_neg h₂]
  obtain ⟨d₀, rest, rfl⟩ : ∃ d₀ rest, raw = d₀ :: rest :=
    List.exists_cons_of_ne_nil fun h => h₂ (by rw [h]; decide)
  have hlen : (d₀ :: rest).dropLast.length ≤ 6 := by
    rw [List.length_dropLast]
    omega
  have hsub : p.subUsize (d₀ :: rest).length 1 = some (rest.length + 1 - 1) :=
    p.subUsize_of_le (by rw [List.length_cons]; omega)
  simp only [index_zero_cons, bind, Except.bind, pure, Except.pure, List.head?_cons,
    Option.some.injEq, Option.mem_some_iff, exists_eq_left', hsub, checked_some, sliceTo_pred,
    fromSlice_of_le hlen, dif_pos hlen]
  split_ifs <;> rfl

theorem sliceFrom_of_le {data : List UInt8} {start : ℕ} (h : start ≤ data.length) :
    (sliceFrom data start : Except (Fault ε) (List UInt8)) = .ok (data.drop start) := by
  rw [sliceFrom, if_pos h, checked_some]

/-- The address is a part of the packet. -/
theorem addressLength_le {value : Packet} {n : ℕ} (h : value.addressLength = .ok n) :
    n ≤ value.data.length := by
  cases hdata : value.data with
  | nil =>
    rw [Packet.addressLength, hdata] at h
    cases h
  | cons d₀ rest =>
    rw [Packet.addressLength, hdata, isBasicAddress_cons] at h
    simp only [bind, Except.bind, pure, Except.pure, decide_eq_true_eq] at h
    split_ifs at h with h₀ h₁
    · rw [← Except.ok.inj h, List.length_cons]
      omega
    · cases rest with
      | nil => simp [isMfExtendedAddress] at h₁
      | cons d₁ rest =>
        rw [← Except.ok.inj h, List.length_cons, List.length_cons]
        omega

theorem speedStepControlChecked_eq (speedVector : UInt8) :
    (speedStepControlChecked p speedVector : Except (Fault ε) VelocitySetpoint) =
      .ok (speedStepControl speedVector) := by
  rw [speedStepControlChecked, speedStepControl]
  generalize hs : speedVector &&& 0b01111111 = speed
  split
  · rfl
  · rfl
  · rename_i h₀ h₁
    have hle : (1 : UInt8) ≤ speed := by
      have hne : speed.toNat ≠ 0 := fun h => h₀ (UInt8.toNat_inj.mp h)
      rw [UInt8.le_iff_toNat_le]
      show 1 ≤ speed.toNat
      omega
    simp only [p.subU8_of_le hle, checked_some, bind, Except.bind, pure, Except.pure]

/-- Parsing an instruction never panics on a packet whose address does not. -/
theorem tryFromChecked_eq (value : Packet) :
    OperationModeInstruction.tryFromChecked p value =
      OperationModeInstruction.tryFrom value := by
  rw [OperationModeInstruction.tryFromChecked, OperationModeInstruction.tryFrom]
  cases h : value.addressLength with
  | error e => rfl
  | ok n =>
    simp only [bind, Except.bind, sliceFrom_of_le (addressLength_le h),
      speedStepControlChecked_eq]
    rfl

theorem cvAddressChecked_eq (value : Packet) : value.cvAddressChecked p = value.cvAddress := by
  rcases hdata : value.data with _ | ⟨d₀, _ | ⟨d₁, rest⟩⟩
  · rw [Packet.cvAddressChecked, Packet.cvAddress, hdata]
  · rw [Packet.cvAddressChecked, Packet.cvAddress, hdata]
  have hmask : (d₀ &&& 0b0000011).toNat ≤ 3 := by
    rw [UInt8.toNat_and]
    exact Nat.and_le_right
  have hd₁ := d₁.toNat_lt
  have hmsb : ((d₀ &&& 0b0000011).toUInt16 <<< 8).toNat = (d₀ &&& 0b0000011).toNat * 256 := by
    rw [toNat_shiftLeft_eight (by rw [UInt8.toNat_toUInt16]; exact UInt8.toNat_lt _),
      UInt8.toNat_toUInt16]
  have hsum : ((d₀ &&& 0b0000011).toUInt16 <<< 8 + d₁.toUInt16).toNat =
      (d₀ &&& 0b0000011).toNat * 256 + d₁.toNat := by
    rw [UInt16.toNat_add, hmsb, UInt8.toNat_toUInt16]
    omega
  have hadd₁ : p.addU16 ((d₀ &&& 0b0000011).toUInt16 <<< 8) d₁.toUInt16 =
      some ((d₀ &&& 0b0000011).toUInt16 <<< 8 + d₁.toUInt16) :=
    p.addU16_of_lt (by rw [hmsb, UInt8.toNat_toUInt16]; omega)
  have hadd₂ : p.addU16 ((d₀ &&& 0b0000011).toUInt16 <<< 8 + d₁.toUInt16) 1 =
      some ((d₀ &&& 0b0000011).toUInt16 <<< 8 + d₁.toUInt16 + 1) :=
    p.addU16_of_lt (by rw [hsum]; show _ + 1 < _; omega)
  have hnat : ((d₀ &&& 0b0000011).toUInt16 <<< 8 + d₁.toUInt16 + 1).toNat =
      (d₀ &&& 0b0000011).toNat * 256 + d₁.toNat + 1 := by
    rw [UInt16.toNat_add, hsum]
    exact Nat.mod_eq_of_lt (by show _ + 1 < 2 ^ 16; omega)
  simp only [Packet.cvAddressChecked, Packet.cvAddress, hdata, hadd₁, hadd₂, hnat, checked_some,
    bind, Except.bind, pure, Except.pure]

theorem and_seven_lt (packed : UInt8) : packed &&& 0b00000111 < 8 := by
  rw [UInt8.lt_iff_toNat_lt, UInt8.toNat_and]
  exact Nat.lt_succ_of_le Nat.and_le_right

theorem withBitChecked_eq (current packed : UInt8) :
    (withBitChecked p current packed : Except (Fault ε) UInt8) =
      .ok (withBit current packed) := by
  rw [withBitChecked, p.shrU8_of_lt _ (by decide), p.shlU8_of_lt _ (and_seven_lt packed)]
  simp only [checked_some, bind, Except.bind, p.shlU8_of_lt _ (and_seven_lt packed)]
  rfl

theorem bitChecked_eq (current packed : UInt8) :
    (bitChecked p current packed : Except (Fault ε) UInt8) =
      .ok ((current >>> (packed &&& 0b00000111)) &&& 1) := by
  rw [bitChecked, p.shrU8_of_lt _ (and_seven_lt packed)]
  rfl

end Rp2040
