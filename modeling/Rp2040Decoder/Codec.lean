/-
What the codec accepts (`DccCodec::decode` in `dcc/src/transport/codec.rs`).

* `decode_eq_some_iff` — the raw packets it accepts, and the packet it makes of
  each of them;
* `decode_append_checksum` — a payload with its checksum is decoded to itself;
* `not_accepted_of_set` — no accepted packet is one byte away from another.
-/
import Rp2040Decoder.Folds
import Rp2040Decoder.Packet

namespace Rp2040

/-- The checksum byte of a payload. -/
def checksum (data : List UInt8) : UInt8 := data.foldl (· ^^^ ·) 0

theorem checksum_concat (data : List UInt8) (x : UInt8) :
    checksum (data ++ [x]) = checksum data ^^^ x := by
  rw [checksum, List.foldl_append, List.foldl_cons, List.foldl_nil, checksum]

/-- The checksum notices a single changed byte. -/
theorem checksum_set_ne {data : List UInt8} {i : ℕ} (hi : i < data.length) {x : UInt8}
    (hx : x ≠ data[i]) : checksum (data.set i x) ≠ checksum data :=
  Folds.foldl_set_ne (fun a _ _ h => (UInt8.xor_left_inj a).mp h)
    (fun b _ _ h => (UInt8.xor_right_inj b).mp h) hi hx 0

/-- The address byte is neither idle nor reserved, and a packet with an
extended address has a byte left for an instruction. -/
def AdmissibleAddress (len : ℕ) (d₀ : UInt8) : Prop := d₀ ≤ 231 ∧ (192 ≤ d₀ → 4 ≤ len)

instance (len : ℕ) (d₀ : UInt8) : Decidable (AdmissibleAddress len d₀) := by
  unfold AdmissibleAddress
  infer_instance

/-- The raw packets the codec accepts. -/
structure Accepted (raw : List UInt8) : Prop where
  length : 3 ≤ raw.length ∧ raw.length ≤ 6
  address : ∃ d₀ ∈ raw.head?, AdmissibleAddress raw.length d₀
  checksum : checksum raw = 0

theorem le_231_of_not_idle {d₀ : UInt8} (hidle : d₀ ≠ 0xFF)
    (hreserved : ¬ (232 ≤ d₀ ∧ d₀ ≤ 254)) : d₀ ≤ 231 := by
  have hne : d₀.toNat ≠ 255 := fun h => hidle (UInt8.toNat_inj.mp h)
  have hlt := d₀.toNat_lt
  rw [UInt8.le_iff_toNat_le, UInt8.le_iff_toNat_le] at hreserved
  rw [UInt8.le_iff_toNat_le]
  simp only [UInt8.reduceToNat] at hreserved ⊢
  omega

/-- The checks of `decode` pass on accepted packets only. -/
theorem accepted_of_decode {raw : List UInt8} {packet : Packet}
    (h : DccCodec.decode raw = .ok (some packet)) :
    Accepted raw ∧ packet.data = raw.dropLast := by
  rw [DccCodec.decode] at h
  split_ifs at h with h₁ h₂ h₃ h₄ h₅ h₆ h₇
  · cases h
  simp only [Except.ok.injEq, Option.some.injEq] at h
  refine ⟨⟨⟨by omega, by omega⟩, ?_, not_not.mp h₆⟩, by rw [← h]⟩
  rcases raw with _ | ⟨d₀, _ | ⟨d₁, rest⟩⟩
  · simp at h₂
  · simp at h₂
  · have hle : d₀ ≤ 231 :=
      le_231_of_not_idle (fun he => h₃ (by rw [he]; rfl)) fun he => h₅ ⟨d₀, rfl, he⟩
    refine ⟨d₀, rfl, hle, fun hext => ?_⟩
    simp only [isMfExtendedAddress, decide_eq_true_eq] at h₄
    by_contra hlen
    exact h₄ ⟨⟨hext, hle⟩, by omega⟩

theorem decode_of_accepted {raw : List UInt8} {packet : Packet} (h : Accepted raw)
    (hdata : packet.data = raw.dropLast) : DccCodec.decode raw = .ok (some packet) := by
  obtain ⟨⟨h₃, h₆⟩, ⟨d₀, hd₀, hle, hext⟩, hsum⟩ := h
  have hle' : d₀.toNat ≤ 231 := UInt8.le_iff_toNat_le.mp hle
  have hidle : ¬ raw.head? = some 0xFF := by
    rintro he
    rw [Option.mem_def.mp hd₀, Option.some.injEq] at he
    rw [he] at hle'
    exact absurd hle' (by decide)
  have hmf : ¬ (isMfExtendedAddress raw ∧ raw.length < 4) := by
    rintro ⟨hmf, hlen⟩
    rcases raw with _ | ⟨d, _ | ⟨d₁, rest⟩⟩
    · simp at h₃
    · simp at h₃
    · obtain rfl : d = d₀ := Option.some.inj hd₀
      rw [isMfExtendedAddress, decide_eq_true_eq] at hmf
      exact absurd (hext hmf.1) (by omega)
  have hreserved : ¬ ∃ d ∈ raw.head?, 232 ≤ d ∧ d ≤ 254 := by
    rintro ⟨d, hd, h232, -⟩
    rw [Option.mem_def, Option.mem_def.mp hd₀, Option.some.injEq] at hd
    rw [← hd, UInt8.le_iff_toNat_le] at h232
    exact absurd (Nat.le_trans h232 hle') (by decide)
  have hlen : raw.dropLast.length ≤ 6 := by
    rw [List.length_dropLast]
    omega
  rw [DccCodec.decode, if_neg (by omega), if_neg (by omega), if_neg hidle, if_neg hmf,
    if_neg hreserved, if_neg (fun h => h hsum), dif_pos hlen]
  cases packet
  subst hdata
  rfl

theorem decode_eq_some_iff {raw : List UInt8} {packet : Packet} :
    DccCodec.decode raw = .ok (some packet) ↔ Accepted raw ∧ packet.data = raw.dropLast :=
  ⟨accepted_of_decode, fun h => decode_of_accepted h.1 h.2⟩

/-! ### Consequences -/

/-- A payload of two to five bytes with an admissible address. -/
structure Payload (data : List UInt8) : Prop where
  length : 2 ≤ data.length ∧ data.length ≤ 5
  address : ∃ d₀ ∈ data.head?, AdmissibleAddress (data.length + 1) d₀

theorem accepted_append_checksum {data : List UInt8} (h : Payload data) :
    Accepted (data ++ [checksum data]) := by
  obtain ⟨⟨h₂, h₅⟩, d₀, hd₀, haddress⟩ := h
  refine ⟨?_, ⟨d₀, ?_, ?_⟩, ?_⟩
  · rw [List.length_append, List.length_singleton]
    omega
  · rw [List.head?_append, Option.mem_def.mp hd₀]
    rfl
  · rwa [List.length_append, List.length_singleton]
  · rw [checksum_concat, UInt8.xor_self]

/-- Appending the checksum and decoding gives the payload back. -/
theorem decode_append_checksum {data : List UInt8} (h : Payload data) :
    ∃ packet, DccCodec.decode (data ++ [checksum data]) = .ok (some packet) ∧
      packet.data = data := by
  have hlen : data.length ≤ 6 := by
    have := h.length.2
    omega
  exact ⟨⟨data, hlen⟩, decode_of_accepted (accepted_append_checksum h)
    List.dropLast_concat.symm, rfl⟩

/-- Changing one byte of an accepted packet breaks its checksum. -/
theorem not_accepted_of_set {raw : List UInt8} (h : Accepted raw) {i : ℕ} (hi : i < raw.length)
    {x : UInt8} (hx : x ≠ raw[i]) : ¬ Accepted (raw.set i x) := fun h' =>
  checksum_set_ne hi hx (h'.checksum.trans h.checksum.symm)

/-- **The codec.**  `decode` makes a packet of exactly the slices of three to
six bytes with an admissible address byte and checksum zero, and the packet is
the slice without its last byte; so a payload with its checksum is decoded to
itself, and no slice one byte away from an accepted one is accepted. -/
theorem decode_accepts :
    (∀ raw packet, DccCodec.decode raw = .ok (some packet) ↔
      ((3 ≤ raw.length ∧ raw.length ≤ 6) ∧
        (∃ d₀ ∈ raw.head?, d₀ ≤ 231 ∧ (192 ≤ d₀ ∧ d₀ ≤ 231 → 4 ≤ raw.length)) ∧
        raw.foldl (· ^^^ ·) 0 = 0) ∧ packet.data = raw.dropLast) ∧
    (∀ data : List UInt8, ∀ d₀ ∈ data.head?, 2 ≤ data.length → data.length ≤ 5 → d₀ ≤ 231 →
      (192 ≤ d₀ ∧ d₀ ≤ 231 → 3 ≤ data.length) →
      ∃ packet, DccCodec.decode (data ++ [data.foldl (· ^^^ ·) 0]) = .ok (some packet) ∧
        packet.data = data) ∧
    (∀ raw packet, DccCodec.decode raw = .ok (some packet) →
      ∀ (i : ℕ) (hi : i < raw.length) (x : UInt8), x ≠ raw[i] →
        ∀ packet', DccCodec.decode (raw.set i x) ≠ .ok (some packet')) := by
  refine ⟨fun raw packet => ?_, ?_, ?_⟩
  · rw [decode_eq_some_iff]
    refine and_congr_left' ⟨?_, ?_⟩
    · rintro ⟨hlen, ⟨d₀, hd₀, hle, hext⟩, hsum⟩
      exact ⟨hlen, ⟨d₀, hd₀, hle, fun h => hext h.1⟩, hsum⟩
    · rintro ⟨hlen, ⟨d₀, hd₀, hle, hext⟩, hsum⟩
      exact ⟨hlen, ⟨d₀, hd₀, hle, fun h => hext ⟨h, hle⟩⟩, hsum⟩
  · intro data d₀ hd₀ h₂ h₅ hle hext
    exact decode_append_checksum ⟨⟨h₂, h₅⟩, d₀, hd₀, hle,
      fun h => Nat.succ_le_succ (hext ⟨h, hle⟩)⟩
  · intro raw packet h i hi x hx packet' h'
    exact not_accepted_of_set (accepted_of_decode h).1 hi hx (accepted_of_decode h').1

end Rp2040
