/-
Reading packets from the PIO (`application/src/transport/pio_decoder.rs`).

* `read`, `reads` — two words of the FIFO are one raw packet;
* `frame_length_of_le`, `frame_length_of_lt` — a packet of up to seven bytes
  fills exactly one read, a longer one wraps the padding register;
* `reads_frames` — frames of up to seven bytes are read back;
* `delivers_iff` — the packets on the wire are delivered, one read each, exactly
  if none of them is longer than seven bytes.
-/
import Mathlib.Data.List.Forall2
import Rp2040Decoder.Packet
import Rp2040Decoder.PioDecoder

namespace Rp2040.Pio

open Bits

/-! ### `PioDccDecoder::read` -/

/-- The bytes of a word in memory after a byte-swapped `dma_pull`. -/
def wordBytes (w : UInt32) : List UInt8 :=
  [(w >>> 24).toUInt8, (w >>> 16).toUInt8, (w >>> 8).toUInt8, w.toUInt8]

/-- The packet in a filled buffer, whose final byte is the padding count. -/
def unpad (buff : List UInt8) : List UInt8 :=
  let padding := buff.getD 7 0
  let len := 7 - padding.toNat
  -- received bytes come inverted off the wire
  (buff.take len).map (~~~·)

/-- One `read` pulls two words. -/
def read (w₀ w₁ : UInt32) : List UInt8 := unpad (wordBytes w₀ ++ wordBytes w₁)

/-- The successive reads; the last one waits while there is no second word. -/
def reads : List UInt32 → List (List UInt8)
  | w₀ :: w₁ :: words => read w₀ w₁ :: reads words
  | _ => []

/-- What the wire asks of the words in the FIFO: eight bytes for every packet,
and one read for every packet, which returns it or is rejected by the codec. -/
structure Delivers (packets : List WirePacket) (words : List UInt32) : Prop where
  bytes : (words.flatMap wordBytes).length = 8 * packets.length
  reads : List.Forall₂
    (fun p raw => (p.bytes.length ≤ 7 → raw = p.bytes) ∧
      (7 < p.bytes.length → ∃ e, DccCodec.decode raw = .error e)) packets (reads words)

/-! ### Words and their bytes -/

theorem length_wordBytes (w : UInt32) : (wordBytes w).length = 4 := rfl

theorem byteBits_shiftRight {w k : UInt32} {n : ℕ} (hk : k.toNat = n) (hn : n < 32) :
    byteBits (w >>> k).toUInt8 = bits 8 (w.toNat / 2 ^ n) := by
  rw [byteBits_toUInt8, UInt32.toNat_shiftRight, hk, Nat.mod_eq_of_lt hn,
    Nat.shiftRight_eq_div_pow]

/-- The bytes of a word are its bits, oldest first. -/
theorem wordBits_eq (w : UInt32) : Rx.wordBits w = (wordBytes w).flatMap byteBits := by
  have h₀ : Rx.wordBits w = bits 24 (w.toNat / 2 ^ 8) ++ bits 8 w.toNat := bits_split 24 8 w.toNat
  have h₁ : bits 24 (w.toNat / 2 ^ 8) = bits 16 (w.toNat / 2 ^ 16) ++ bits 8 (w.toNat / 2 ^ 8) := by
    rw [bits_split 16 8, Nat.div_div_eq_div_mul, ← pow_add]
  have h₂ : bits 16 (w.toNat / 2 ^ 16) =
      bits 8 (w.toNat / 2 ^ 24) ++ bits 8 (w.toNat / 2 ^ 16) := by
    rw [bits_split 8 8, Nat.div_div_eq_div_mul, ← pow_add]
  simp only [wordBytes, List.flatMap_cons, List.flatMap_nil, List.append_nil, byteBits_toUInt8 w,
    byteBits_shiftRight (w := w) (show (24 : UInt32).toNat = 24 from rfl) (by decide),
    byteBits_shiftRight (w := w) (show (16 : UInt32).toNat = 16 from rfl) (by decide),
    byteBits_shiftRight (w := w) (show (8 : UInt32).toNat = 8 from rfl) (by decide)]
  rw [h₀, h₁, h₂, List.append_assoc, List.append_assoc]

theorem byteBits_injective : Function.Injective byteBits := by
  intro a b h
  exact UInt8.toNat_inj.mp (bits_injective a.toNat_lt b.toNat_lt h)

/-- The words pushed, when everything shifted in has been pushed. -/
theorem words_of_bits {rx : Rx} {bytes : List UInt8} {n : ℕ}
    (hbits : rx.bits = bytes.flatMap byteBits) (hlen : bytes.length = 4 * n) :
    rx.words.flatMap wordBytes = bytes := by
  have hcount : rx.count = 0 := by
    have hrx := rx.length_bits
    rw [hbits, length_flatMap length_byteBits, hlen] at hrx
    have := rx.count_lt
    omega
  apply flatMap_injective length_byteBits (by decide) byteBits_injective
  rw [← hbits, Rx.bits, hcount, Bits.bits, List.append_nil, List.flatMap_assoc]
  exact congrArg (fun f => rx.words.flatMap f) (funext fun w => (wordBits_eq w).symm)

/-! ### Frames -/

theorem toNat_padding (n : ℕ) : (padding n).toNat = (2 ^ 32 - n % 2 ^ 32 + 7) % 2 ^ 32 := by
  rw [padding, UInt32.toNat_sub, UInt32.toNat_ofNat']
  rfl

theorem length_frame (bytes : List UInt8) :
    (frame bytes).length = bytes.length + (padding bytes.length).toNat + 1 := by
  rw [frame, List.length_append, List.length_append, List.length_map, List.length_replicate]
  rfl

/-- Up to seven bytes fill one read. -/
theorem frame_length_of_le {bytes : List UInt8} (h : bytes.length ≤ 7) :
    (frame bytes).length = 8 := by
  rw [length_frame, toNat_padding]
  omega

/-- The eighth byte wraps the padding register. -/
theorem frame_length_of_lt {bytes : List UInt8} (h : 7 < bytes.length) :
    2 ^ 32 + 8 ≤ (frame bytes).length := by
  rw [length_frame, toNat_padding]
  omega

theorem map_not_map_not (bytes : List UInt8) : (bytes.map (~~~·)).map (~~~·) = bytes := by
  rw [List.map_map]
  exact (List.map_congr_left fun b _ => UInt8.not_not).trans (List.map_id bytes)

/-- A frame of up to seven bytes is read back. -/
theorem unpad_frame {bytes : List UInt8} (h : bytes.length ≤ 7) : unpad (frame bytes) = bytes := by
  have hpadding : (padding bytes.length).toNat = 7 - bytes.length := by
    rw [toNat_padding]
    omega
  have hbody : (bytes.map (~~~·) ++ List.replicate (padding bytes.length).toNat 0).length = 7 := by
    rw [List.length_append, List.length_map, List.length_replicate, hpadding]
    omega
  have hlast : (frame bytes).getD 7 0 = (padding bytes.length).toUInt8 := by
    rw [frame, List.getD_eq_getElem?_getD, List.getElem?_append_right hbody.le, hbody]
    rfl
  have hlen : 7 - ((frame bytes).getD 7 0).toNat = (bytes.map (~~~·)).length := by
    rw [hlast, UInt32.toNat_toUInt8, hpadding, List.length_map]
    omega
  have htake : (frame bytes).take (bytes.map (~~~·)).length = bytes.map (~~~·) := by
    rw [frame, List.append_assoc, List.take_left]
  rw [unpad, hlen, htake, map_not_map_not]

/-! ### The packets on the wire -/

/-- Frames of up to seven bytes are read one by one. -/
theorem reads_frames {packets : List WirePacket} {words : List UInt32}
    (hshort : ∀ p ∈ packets, p.bytes.length ≤ 7)
    (hwords : words.flatMap wordBytes = packets.flatMap fun p => frame p.bytes) :
    reads words = packets.map WirePacket.bytes := by
  induction packets generalizing words with
  | nil =>
    cases words with
    | nil => rfl
    | cons w words => cases hwords
  | cons p packets ih =>
    have hp := hshort p List.mem_cons_self
    have hframe := frame_length_of_le hp
    rw [List.flatMap_cons] at hwords
    -- a frame of eight bytes takes two words
    match words with
    | [] =>
      have hnil : frame p.bytes = [] := (List.append_eq_nil_iff.mp hwords.symm).1
      rw [hnil] at hframe
      cases hframe
    | [w] =>
      have hshorter := congrArg List.length hwords
      rw [List.flatMap_singleton, length_wordBytes, List.length_append, hframe] at hshorter
      omega
    | w₀ :: w₁ :: words =>
      rw [List.flatMap_cons, List.flatMap_cons, ← List.append_assoc] at hwords
      obtain ⟨hhead, htail⟩ := List.append_inj hwords (by rw [hframe]; rfl)
      rw [reads, read, hhead, unpad_frame hp, List.map_cons,
        ih (fun q hq => hshort q (List.mem_cons_of_mem p hq)) htail]

theorem length_frames_of_le {packets : List WirePacket}
    (hshort : ∀ p ∈ packets, p.bytes.length ≤ 7) :
    (packets.flatMap fun p => frame p.bytes).length = 8 * packets.length := by
  induction packets with
  | nil => rfl
  | cons p packets ih =>
    rw [List.flatMap_cons, List.length_append, frame_length_of_le (hshort p List.mem_cons_self),
      ih fun q hq => hshort q (List.mem_cons_of_mem p hq), List.length_cons]
    omega

/-- Every packet makes the program shift in eight bytes at least. -/
theorem length_frames_ge (packets : List WirePacket) :
    8 * packets.length ≤ (packets.flatMap fun p => frame p.bytes).length := by
  induction packets with
  | nil => exact le_rfl
  | cons p packets ih =>
    have hp : 8 ≤ (frame p.bytes).length := by
      rcases Nat.lt_or_ge 7 p.bytes.length with h | h
      · exact (Nat.le_add_left 8 _).trans (frame_length_of_lt h)
      · exact (frame_length_of_le h).ge
    rw [List.flatMap_cons, List.length_append, List.length_cons]
    omega

/-- A longer packet makes it shift in more. -/
theorem length_frames_of_lt {packets : List WirePacket} {p : WirePacket} (hp : p ∈ packets)
    (hlong : 7 < p.bytes.length) :
    2 ^ 32 + 8 * packets.length ≤ (packets.flatMap fun p => frame p.bytes).length := by
  obtain ⟨before, after, rfl⟩ := List.append_of_mem hp
  have hbefore := length_frames_ge before
  have hafter := length_frames_ge after
  have hframe := frame_length_of_lt hlong
  rw [List.flatMap_append, List.flatMap_cons, List.length_append, List.length_append,
    List.length_append, List.length_cons]
  omega

/-- What has been shifted in has been pushed, up to three bytes. -/
theorem length_flatMap_wordBytes {rx : Rx} {bytes : List UInt8}
    (hbits : rx.bits = bytes.flatMap byteBits) :
    bytes.length < (rx.words.flatMap wordBytes).length + 4 := by
  have hrx := rx.length_bits
  rw [hbits, length_flatMap length_byteBits] at hrx
  have hcount := rx.count_lt
  rw [length_flatMap length_wordBytes]
  omega

/-- **Packets on the wire.**  Whatever packets are sent, the program ends up
waiting for more, and it has delivered them, eight bytes and one read each,
exactly if none of them has more than seven bytes. -/
theorem delivers_iff (packets : List WirePacket) :
    ∃ s, Steps dccDecoder (start (packets.flatMap WirePacket.bits)) s ∧
      step dccDecoder s = none ∧
      (Delivers packets s.rx.words ↔ ∀ p ∈ packets, p.bytes.length ≤ 7) := by
  obtain ⟨s, hsteps, hhalt, hbits⟩ := run_packets packets
  refine ⟨s, hsteps, hhalt, ?_, ?_⟩
  -- a long packet pushes more words than the reads can take
  · intro hdelivers p hp
    by_contra hlong
    have hframes := length_frames_of_lt hp (Nat.lt_of_not_le hlong)
    have hpushed := length_flatMap_wordBytes hbits
    rw [hdelivers.bytes] at hpushed
    omega
  · intro hshort
    have hlen := length_frames_of_le hshort
    have hwords := words_of_bits (n := 2 * packets.length) hbits (by omega)
    refine ⟨by rw [hwords, hlen], ?_⟩
    rw [reads_frames hshort hwords, List.forall₂_map_right_iff, List.forall₂_same]
    intro p hp
    exact ⟨fun _ => rfl, fun hlong => absurd (hshort p hp) (Nat.not_le_of_lt hlong)⟩

/-- A packet of eight bytes. -/
def eightBytes : WirePacket :=
  ⟨11, [0xC0, 0x03, 0xEC, 0x00, 0x00, 0x02, 0x05, 0x28], by decide, by decide⟩

/-- **A packet of eight bytes** wraps the padding register: the program pushes
`2 ^ 30 + 2` words for it, two of which are the read it should cost. -/
theorem eight_bytes_not_delivered :
    ∃ s, Steps dccDecoder (start ([eightBytes].flatMap WirePacket.bits)) s ∧
      step dccDecoder s = none ∧ s.rx.words.length = 2 ^ 30 + 2 ∧
      ¬ Delivers [eightBytes] s.rx.words := by
  obtain ⟨s, hsteps, hhalt, hbits⟩ := run_packets [eightBytes]
  have hframe : (frame eightBytes.bytes).length = 2 ^ 32 + 8 := by
    rw [length_frame, toNat_padding]
    rfl
  have hwords : s.rx.words.length = 2 ^ 30 + 2 := by
    have hrx := s.rx.length_bits
    rw [hbits, length_flatMap length_byteBits, List.flatMap_singleton, hframe] at hrx
    have hcount := s.rx.count_lt
    omega
  refine ⟨s, hsteps, hhalt, hwords, fun hdelivers => ?_⟩
  have hbytes := hdelivers.bytes
  rw [length_flatMap length_wordBytes, hwords] at hbytes
  cases hbytes

end Rp2040.Pio
