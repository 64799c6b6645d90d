/-
Which packets are addressed to the decoder: `is_recipient` of the Rust firmware
(`dcc/src/lib.rs`) against `address_evaluation` of the C firmware
(`Software/core0.c`).

The Rust side reduces packet and store to one number each and compares the
numbers; a basic and an extended address may then coincide.

* `isRecipient_eq` — it accepts the packets that are addressed to the decoder
  and those whose number collides with its own in the other form;
* `addressEvaluation_iff` — the C side accepts the former only;
* `isRecipient_agrees_iff` — the two agree exactly where nothing collides.
-/
import Rp2040Decoder.Flash
import Rp2040Decoder.Packet

namespace Rp2040

open ReadableStore

/-- Whether the packet is addressed to the specific decoder. -/
def isRecipient {ε S : Type} [Store S] (packet : Packet) (store : S) : Except (Fault ε) Bool :=
  match packet.addr with
  | .error .panic => .error .panic
  | .error (.error _) => .ok false
  | .ok a =>
    match Store.addr store with
    | .error .panic => .error .panic
    | .error (.error _) => .ok false
    | .ok b => .ok (a == b)

def BROADCAST_ADDRESS : UInt16 := 0xFFFF

/-- Whether the packet is addressed to the broadcast address. -/
def isBroadcast {ε : Type} (packet : Packet) : Except (Fault ε) Bool :=
  match packet.addr with
  | .error .panic => .error .panic
  | .error (.error _) => .ok false
  | .ok a => .ok (a == BROADCAST_ADDRESS)

/-! ### The C firmware -/

/-- `get_16bit_CV` -/
def get16bitCV (cvArrayFlash : ℕ → UInt8) (cvStartIndex : ℕ) : UInt16 :=
  (cvArrayFlash (cvStartIndex + 1)).toUInt16 + (cvArrayFlash cvStartIndex).toUInt16 <<< 8

/-- The C firmware keeps the bytes of a message in the order opposite to their
transmission. -/
def isLongAddress (numberOfBytes : ℕ) (byteArray : List UInt8) : Bool :=
  byteArray.getD (numberOfBytes - 1) 0 >>> 6 == 0b00000011

def addressEvaluation (cvArrayFlash : ℕ → UInt8) (numberOfBytes : ℕ) (byteArray : List UInt8) :
    Bool :=
  -- check for idle message
  if byteArray.getD (numberOfBytes - 1) 0 = 255 then false
  else if cvArrayFlash 28 &&& 0b00100000 ≠ 0 then
    if isLongAddress numberOfBytes byteArray then
      let addressByte₁ := (byteArray.getD (numberOfBytes - 1) 0).toUInt16 - 192
      let addressByte₀ := (byteArray.getD (numberOfBytes - 2) 0).toUInt16
      let readAddress := addressByte₁ <<< 8 + addressByte₀
      let longAddress := get16bitCV cvArrayFlash 16 &&& 0x3FFF
      longAddress == readAddress
    else false
  else cvArrayFlash 0 == byteArray.getD (numberOfBytes - 1) 0

/-! ### Addresses and their forms -/

/-- The addressing form of the packet agrees with bit 5 of CV29, and the
numbers agree. -/
def Addressed (cvs : ℕ → UInt8) (packet : Packet) : Prop :=
  match packet.data with
  | d₀ :: d₁ :: _ =>
    if 0b00100000 &&& cvs 29 ≠ 0 then
      192 ≤ d₀ ∧ d₀ ≤ 231 ∧ extendedAddress d₀ d₁ = extendedAddress (cvs 17) (cvs 18)
    else d₀ ≤ 127 ∧ d₀ = cvs 1
  | _ => False

/-- The forms differ, and the numbers agree. -/
def Collides (cvs : ℕ → UInt8) (packet : Packet) : Prop :=
  match packet.data with
  | d₀ :: d₁ :: _ =>
    if 0b00100000 &&& cvs 29 ≠ 0 then
      d₀ ≤ 127 ∧ d₀.toUInt16 = extendedAddress (cvs 17) (cvs 18)
    else 192 ≤ d₀ ∧ d₀ ≤ 231 ∧ extendedAddress d₀ d₁ = (cvs 1).toUInt16
  | _ => False

instance (cvs : ℕ → UInt8) (packet : Packet) : Decidable (Addressed cvs packet) := by
  unfold Addressed
  split <;> infer_instance

instance (cvs : ℕ → UInt8) (packet : Packet) : Decidable (Collides cvs packet) := by
  unfold Collides
  split <;> infer_instance

theorem addressed_cons {cvs : ℕ → UInt8} {packet : Packet} {d₀ d₁ : UInt8} {rest : List UInt8}
    (h : packet.data = d₀ :: d₁ :: rest) : Addressed cvs packet ↔
      if 0b00100000 &&& cvs 29 ≠ 0 then
        192 ≤ d₀ ∧ d₀ ≤ 231 ∧ extendedAddress d₀ d₁ = extendedAddress (cvs 17) (cvs 18)
      else d₀ ≤ 127 ∧ d₀ = cvs 1 := by
  rw [Addressed, h]

/-- A packet cannot agree with the decoder in both forms. -/
theorem not_addressed_of_collides {cvs : ℕ → UInt8} {packet : Packet}
    (h : Collides cvs packet) : ¬ Addressed cvs packet := by
  rw [Collides] at h
  rw [Addressed]
  split at h
  · rename_i d₀ d₁ rest hd
    by_cases hbit : 0b00100000 &&& cvs 29 ≠ 0
    · simp only [if_pos hbit, UInt8.le_iff_toNat_le, UInt8.reduceToNat] at h ⊢
      omega
    · simp only [if_neg hbit, UInt8.le_iff_toNat_le, UInt8.reduceToNat] at h ⊢
      omega
  · exact h.elim

theorem toUInt16_inj {a b : UInt8} : a.toUInt16 = b.toUInt16 ↔ a = b := by
  rw [← UInt16.toNat_inj, UInt8.toNat_toUInt16, UInt8.toNat_toUInt16, UInt8.toNat_inj]

/-- The Rust firmware accepts what is addressed to it and what collides. -/
theorem isRecipient_eq {ε S : Type} [Store S] [ReadableStore S] {packet : Packet} {d₀ d₁ : UInt8}
    {rest : List UInt8} (h : packet.data = d₀ :: d₁ :: rest) (store : S) :
    ∃ b : Bool, (isRecipient packet store : Except (Fault ε) Bool) = .ok b ∧
      (b = true ↔ Addressed (cvs store) packet ∨ Collides (cvs store) packet) := by
  rw [isRecipient, addr_cons h, addr_eq, Addressed, Collides, h]
  simp only
  by_cases h₀ : d₀ ≤ 127
  · rw [if_pos h₀]
    refine ⟨_, rfl, ?_⟩
    rw [beq_iff_eq, cvAddr]
    have hlong : ¬ 192 ≤ d₀ := by
      simp only [UInt8.le_iff_toNat_le, UInt8.reduceToNat] at h₀ ⊢
      omega
    by_cases hbit : 0b00100000 &&& cvs store 29 ≠ 0
    · simp only [if_pos hbit, h₀, hlong, false_and, true_and, false_or]
    · simp only [if_neg hbit, h₀, hlong, false_and, true_and, or_false, toUInt16_inj]
  · rw [if_neg h₀]
    by_cases h₁ : 192 ≤ d₀ ∧ d₀ ≤ 231
    · rw [if_pos h₁]
      refine ⟨_, rfl, ?_⟩
      rw [beq_iff_eq, cvAddr]
      by_cases hbit : 0b00100000 &&& cvs store 29 ≠ 0
      · simp only [if_pos hbit, h₀, h₁, false_and, true_and, or_false]
      · simp only [if_neg hbit, h₀, h₁, false_and, true_and, false_or]
    · rw [if_neg h₁]
      refine ⟨false, rfl, ?_⟩
      by_cases hbit : 0b00100000 &&& cvs store 29 ≠ 0
      · simp only [if_pos hbit, h₀, ← and_assoc, h₁, false_and, or_self, Bool.false_eq_true]
      · simp only [if_neg hbit, h₀, ← and_assoc, h₁, false_and, or_self, Bool.false_eq_true]

/-! ### The C firmware on decoded packets -/

theorem get16bitCV_and (cvArrayFlash : ℕ → UInt8) (i : ℕ) :
    (get16bitCV cvArrayFlash i &&& 0x3FFF) =
      extendedAddress (cvArrayFlash i) (cvArrayFlash (i + 1)) := by
  refine UInt16.toNat_inj.mp ?_
  have h₀ := (cvArrayFlash (i + 1)).toNat_lt
  have h₁ := (cvArrayFlash i).toNat_lt
  have hshift : ((cvArrayFlash i).toUInt16 <<< 8).toNat = (cvArrayFlash i).toNat * 256 := by
    rw [toNat_shiftLeft_eight (by rw [UInt8.toNat_toUInt16]; exact h₁), UInt8.toNat_toUInt16]
  rw [toNat_extendedAddress, UInt16.toNat_and, get16bitCV, UInt16.toNat_add, hshift,
    UInt8.toNat_toUInt16]
  refine (Nat.and_two_pow_sub_one_eq_mod _ 14).trans ?_
  omega

theorem shiftRight_six_eq_iff (d : UInt8) : (d >>> 6 == 0b00000011) = true ↔ 192 ≤ d := by
  have hlt := d.toNat_lt
  rw [beq_iff_eq, ← UInt8.toNat_inj, UInt8.toNat_shiftRight, UInt8.le_iff_toNat_le]
  show d.toNat >>> 6 = 3 ↔ 192 ≤ d.toNat
  rw [Nat.shiftRight_eq_div_pow]
  omega

/-- The C firmware's sum of the two address bytes is the 14-bit address. -/
theorem readAddress_eq {d₀ : UInt8} (h : 192 ≤ d₀) (d₁ : UInt8) :
    (d₀.toUInt16 - 192) <<< 8 + d₁.toUInt16 = extendedAddress d₀ d₁ := by
  have h₀ := d₀.toNat_lt
  have h₁ := d₁.toNat_lt
  have hle : 192 ≤ d₀.toNat := UInt8.le_iff_toNat_le.mp h
  have hsub : (d₀.toUInt16 - 192).toNat = d₀.toNat - 192 := by
    rw [UInt16.toNat_sub_of_le _ _ (UInt16.le_iff_toNat_le.mpr (by
      rw [UInt8.toNat_toUInt16]; exact hle)), UInt8.toNat_toUInt16]
    rfl
  have hshift : ((d₀.toUInt16 - 192) <<< 8).toNat = (d₀.toNat - 192) * 256 := by
    rw [toNat_shiftLeft_eight (by omega), hsub]
  refine UInt16.toNat_inj.mp ?_
  rw [toNat_extendedAddress, UInt16.toNat_add, hshift, UInt8.toNat_toUInt16]
  omega

/-- The C firmware accepts the packets addressed to the decoder, no others. -/
theorem addressEvaluation_iff {raw : List UInt8} {packet : Packet} {cvs : ℕ → UInt8}
    (h : DccCodec.decode raw = .ok (some packet)) (hcv₁ : cvs 1 ≤ 127) :
    addressEvaluation (fun i => cvs (i + 1)) raw.length raw.reverse = true ↔
      Addressed cvs packet := by
  obtain ⟨d₀, d₁, d₂, rest, rfl, hdata, hd₀⟩ := decode_cases h
  have hfirst : (d₀ :: d₁ :: d₂ :: rest).reverse.getD ((d₀ :: d₁ :: d₂ :: rest).length - 1) 0 =
      d₀ := by
    rw [List.getD_eq_getElem?_getD, List.getElem?_reverse (by simp)]
    simp
  have hsecond : (d₀ :: d₁ :: d₂ :: rest).reverse.getD ((d₀ :: d₁ :: d₂ :: rest).length - 2) 0 =
      d₁ := by
    rw [List.getD_eq_getElem?_getD, List.getElem?_reverse (by simp)]
    simp
  have hidle : ¬ d₀ = 255 := by
    rintro rfl
    exact absurd hd₀ (by decide)
  rw [addressed_cons hdata, addressEvaluation, hfirst, hsecond, if_neg hidle, UInt8.and_comm]
  by_cases hbit : 0b00100000 &&& cvs 29 ≠ 0
  · rw [if_pos hbit, if_pos hbit, isLongAddress, hfirst]
    by_cases hlong : 192 ≤ d₀
    · rw [if_pos ((shiftRight_six_eq_iff d₀).mpr hlong), get16bitCV_and]
      simp only
      rw [readAddress_eq hlong, beq_iff_eq]
      exact ⟨fun he => ⟨hlong, hd₀, he.symm⟩, fun he => he.2.2.symm⟩
    · rw [if_neg fun he => hlong ((shiftRight_six_eq_iff d₀).mp he)]
      exact ⟨fun he => Bool.noConfusion he, fun he => absurd he.1 hlong⟩
  · rw [if_neg hbit, if_neg hbit, beq_iff_eq]
    exact ⟨fun he => ⟨he ▸ hcv₁, he.symm⟩, fun he => he.2.symm⟩

/-- **Recipients in both firmwares.**  On a decoded packet and a store with
CV1 in 1..=127, `is_recipient` is true exactly when the packet is addressed to
the decoder, and agrees with `address_evaluation`, if and only if the packet's
number is not the decoder's in the other addressing form. -/
theorem isRecipient_agrees_iff {ε S : Type} [Store S] [ReadableStore S] {raw : List UInt8}
    {packet : Packet} {store : S} (h : DccCodec.decode raw = .ok (some packet))
    (hcv₁ : 1 ≤ cvs store 1 ∧ cvs store 1 ≤ 127) :
    (((isRecipient packet store : Except (Fault ε) Bool) = .ok true ↔
          Addressed (cvs store) packet) ∧
        (isRecipient packet store : Except (Fault ε) Bool) =
          .ok (addressEvaluation (fun i => cvs store (i + 1)) raw.length raw.reverse)) ↔
      ¬ Collides (cvs store) packet := by
  obtain ⟨d₀, d₁, d₂, rest, -, hdata, -⟩ := decode_cases h
  obtain ⟨b, hb, hiff⟩ : ∃ b : Bool, (isRecipient packet store : Except (Fault ε) Bool) = .ok b ∧
    (b = true ↔ Addressed (cvs store) packet ∨ Collides (cvs store) packet) :=
    isRecipient_eq hdata store
  have hc := addressEvaluation_iff h hcv₁.2
  rw [hb, Except.ok.injEq, Except.ok.injEq]
  constructor
  · rintro ⟨haddr, -⟩ hcol
    exact not_addressed_of_collides hcol (haddr.mp (hiff.mpr (Or.inr hcol)))
  · intro hcol
    have haddr : b = true ↔ Addressed (cvs store) packet :=
      hiff.trans (or_iff_left hcol)
    exact ⟨haddr, Bool.eq_iff_iff.mpr (haddr.trans hc.symm)⟩

/-- The factory defaults with the long address 3 selected. -/
def longAddressThree : Flash .release :=
  Flash.new ⟨fun i => if i.val = 16 then 192 else if i.val = 17 then 3
    else if i.val = 28 then 0b00100000 else defaultValue (i.val + 1), fun _ => none, 0⟩

/-- A speed packet for the long address 3. -/
theorem recipient_long_address :
    ∃ packet, DccCodec.decode [192, 3, 0x3F, 0x85, 0x79] = .ok (some packet) ∧
      (isRecipient packet longAddressThree : Except (Fault PacketError) Bool) = .ok true := by
  have h : DccCodec.decode [192, 3, 0x3F, 0x85, 0x79] =
    .ok (some ⟨[192, 3, 0x3F, 0x85], by decide⟩) := by decide
  have hagrees := (@isRecipient_agrees_iff PacketError _ _ _ _ _ longAddressThree h
    (by decide)).mpr (by decide)
  exact ⟨_, h, hagrees.1.mpr (by decide)⟩

/-- A speed packet for the short address 3, and a decoder with the long
address 3: the Rust firmware accepts it, the C firmware does not. -/
theorem recipient_short_collides :
    ∃ packet, DccCodec.decode [3, 0x3F, 0x85, 0xB9] = .ok (some packet) ∧
      cvs longAddressThree 1 = 3 ∧
      (isRecipient packet longAddressThree : Except (Fault PacketError) Bool) = .ok true ∧
      ¬ Addressed (cvs longAddressThree) packet ∧
      addressEvaluation (fun i => cvs longAddressThree (i + 1)) 4 [0xB9, 0x85, 0x3F, 3] =
        false := by
  refine ⟨⟨[3, 0x3F, 0x85], by decide⟩, by decide, by decide, by decide, by decide, by decide⟩

end Rp2040
