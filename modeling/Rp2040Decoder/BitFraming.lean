/-
Bit framing (`detect_dcc_packet`, `bits_to_dcc_packet_data`).

The bit buffer is compared with three masks after every bit.  A mask matches
where a start bit, the zero that ends a run of ten ones or more, lies a multiple
of nine bits back with zeros between the bytes since.

* `detectDccPacket_eq` — the masks, as conditions on the bits received;
* `Quiet`, `InPacket` — where the start bits of a history are, before and
  within a transmission, and what a new bit changes;
* `reports_preamble`, `reports_transmission` — what is reported while a transmission
  is received;
* `reports_transmissions` — over any sequence of transmissions.
-/
import Mathlib.Data.List.GetD
import Rp2040Decoder.Bits
import Rp2040Decoder.Receiver

namespace Rp2040

open Bits

/-! ### The bits received -/

/-- Bit `k` of the history, counted back from the last bit. -/
def ago (hist : List Bool) (k : ℕ) : Bool := hist.getD k false

@[simp] theorem ago_nil (k : ℕ) : ago [] k = false := rfl

@[simp] theorem ago_cons_zero (b : Bool) (hist : List Bool) : ago (b :: hist) 0 = b := rfl

@[simp] theorem ago_cons_succ (b : Bool) (hist : List Bool) (k : ℕ) :
    ago (b :: hist) (k + 1) = ago hist k := rfl

theorem ago_append_of_lt {hist hist' : List Bool} {k : ℕ} (h : k < hist.length) :
    ago (hist ++ hist') k = ago hist k := by
  rw [ago, ago, List.getD_append _ _ _ _ h]

theorem ago_append_of_ge {hist hist' : List Bool} {k : ℕ} (h : hist.length ≤ k) :
    ago (hist ++ hist') k = ago hist' (k - hist.length) := by
  rw [ago, ago, List.getD_append_right _ _ _ _ h]

/-- The buffer holds the last 64 bits. -/
def Tracks (buffer : UInt64) (hist : List Bool) : Prop :=
  ∀ k < 64, buffer.toBitVec.getLsbD k = ago hist k

theorem tracks_zero : Tracks 0 [] := fun k _ => by simp

theorem tracks_shiftIn {buffer : UInt64} {hist : List Bool} (h : Tracks buffer hist) (b : Bool) :
    Tracks (Receiver.shiftIn buffer b) (b :: hist) := by
  intro k hk
  have hbit : (if b = true then (1 : UInt64) else 0).toBitVec.getLsbD k =
      (decide (k = 0) && b) := by
    cases b <;> simp
  have hshift : (buffer <<< 1).toBitVec.getLsbD k =
      (!decide (k < 1) && buffer.toBitVec.getLsbD (k - 1)) := by
    rw [UInt64.toBitVec_shiftLeft, show (1 : UInt64).toBitVec % 64 = 1 from rfl,
      BitVec.shiftLeft_eq', BitVec.getLsbD_shiftLeft, decide_eq_true hk, Bool.true_and]
    rfl
  rw [Receiver.shiftIn, UInt64.toBitVec_or, BitVec.getLsbD_or, hbit, hshift]
  cases k with
  | zero => simp
  | succ k => simp [h k (by omega)]

/-! ### The masks -/

/-- A packet of `n` bytes ends with the last bit: it is a one, there are zeros
before each of the bytes, and ten ones before them. -/
structure Framed (n : ℕ) (hist : List Bool) : Prop where
  endBit : ago hist 0 = true
  separators : ∀ j, 1 ≤ j → j ≤ n → ago hist (9 * j) = false
  preamble : ∀ i, 1 ≤ i → i ≤ 10 → ago hist (9 * n + i) = true

/-- A mask that covers the end bit, the separators and ten bits of the preamble
matches framed packets. -/
theorem masked_eq_iff {buffer mask message : UInt64} {hist : List Bool} {n : ℕ}
    (h : Tracks buffer hist) (hn : 9 * n + 10 < 64)
    (hmask : ∀ k < 64, mask.toBitVec.getLsbD k =
      decide (k = 0 ∨ 9 ∣ k ∧ k ≤ 9 * n ∨ 9 * n < k ∧ k ≤ 9 * n + 10))
    (hmessage : ∀ k < 64, message.toBitVec.getLsbD k =
      decide (k = 0 ∨ 9 * n < k ∧ k ≤ 9 * n + 10)) :
    buffer &&& mask = message ↔ Framed n hist := by
  -- the equality, bit by bit
  have hbits : buffer &&& mask = message ↔
      ∀ k < 64, (ago hist k && mask.toBitVec.getLsbD k) = message.toBitVec.getLsbD k := by
    constructor
    · rintro rfl k hk
      rw [UInt64.toBitVec_and, BitVec.getLsbD_and, h k hk]
    · intro hall
      refine UInt64.toBitVec_inj.mp (BitVec.eq_of_getLsbD_eq fun k hk => ?_)
      rw [UInt64.toBitVec_and, BitVec.getLsbD_and, h k hk, hall k hk]
  rw [hbits]
  constructor
  · intro hall
    -- where the mask is set, the message gives the bit
    have hbit : ∀ k < 64, (k = 0 ∨ 9 ∣ k ∧ k ≤ 9 * n ∨ 9 * n < k ∧ k ≤ 9 * n + 10) →
        ago hist k = decide (k = 0 ∨ 9 * n < k ∧ k ≤ 9 * n + 10) := by
      intro k hk hcovered
      have hk' := hall k hk
      rwa [hmask k hk, hmessage k hk, decide_eq_true hcovered, Bool.and_true] at hk'
    refine ⟨?_, fun j h₁ h₂ => ?_, fun i h₁ h₂ => ?_⟩
    · exact (hbit 0 (by omega) (Or.inl rfl)).trans (decide_eq_true (Or.inl rfl))
    · rw [hbit (9 * j) (by omega) (Or.inr (Or.inl ⟨Nat.dvd_mul_right 9 j, by omega⟩)),
        decide_eq_false (by omega)]
    · rw [hbit (9 * n + i) (by omega) (by omega), decide_eq_true (by omega)]
  · intro hf k hk
    rw [hmask k hk, hmessage k hk]
    by_cases hends : k = 0 ∨ 9 * n < k ∧ k ≤ 9 * n + 10
    · have hone : ago hist k = true := by
        rcases hends with rfl | ⟨h₁, h₂⟩
        · exact hf.endBit
        · have hi := hf.preamble (k - 9 * n) (by omega) (by omega)
          rwa [Nat.add_sub_cancel' (by omega)] at hi
      rw [hone, decide_eq_true hends, decide_eq_true (by omega), Bool.and_true]
    · rw [decide_eq_false hends]
      -- any other bit the mask covers is a separator
      by_cases hcovered : 9 ∣ k ∧ k ≤ 9 * n
      · obtain ⟨⟨j, rfl⟩, hle⟩ := hcovered
        rw [hf.separators j (by omega) (by omega), Bool.false_and]
      · rw [decide_eq_false (by omega), Bool.and_false]

theorem detectDccPacket_eq {buffer : UInt64} {hist : List Bool} (h : Tracks buffer hist) :
    (Receiver.detectDccPacket buffer = none ∧ ¬ Framed 3 hist ∧ ¬ Framed 4 hist ∧
      ¬ Framed 5 hist) ∨
    ∃ n, 3 ≤ n ∧ n ≤ 5 ∧ Receiver.detectDccPacket buffer = some n ∧ Framed n hist := by
  have h₃ : buffer &&& MESSAGE_MASK_3_BYTES = MESSAGE_3_BYTES ↔ Framed 3 hist :=
    masked_eq_iff h (by decide) (by decide) (by decide)
  have h₄ : buffer &&& MESSAGE_MASK_4_BYTES = MESSAGE_4_BYTES ↔ Framed 4 hist :=
    masked_eq_iff h (by decide) (by decide) (by decide)
  have h₅ : buffer &&& MESSAGE_MASK_5_BYTES = MESSAGE_5_BYTES ↔ Framed 5 hist :=
    masked_eq_iff h (by decide) (by decide) (by decide)
  -- the longest mask is tried first
  rw [Receiver.detectDccPacket]
  by_cases hf₅ : Framed 5 hist
  · rw [if_pos (h₅.mpr hf₅)]
    exact Or.inr ⟨5, by omega, by omega, rfl, hf₅⟩
  rw [if_neg (mt h₅.mp hf₅)]
  by_cases hf₄ : Framed 4 hist
  · rw [if_pos (h₄.mpr hf₄)]
    exact Or.inr ⟨4, by omega, by omega, rfl, hf₄⟩
  rw [if_neg (mt h₄.mp hf₄)]
  by_cases hf₃ : Framed 3 hist
  · rw [if_pos (h₃.mpr hf₃)]
    exact Or.inr ⟨3, by omega, by omega, rfl, hf₃⟩
  · rw [if_neg (mt h₃.mp hf₃)]
    exact Or.inl ⟨rfl, hf₃, hf₄, hf₅⟩

/-! ### Start bits -/

/-- A start bit lies `d` bits back: a zero after ten ones. -/
structure Start (hist : List Bool) (d : ℕ) : Prop where
  startBit : ago hist d = false
  preamble : ∀ i, 1 ≤ i → i ≤ 10 → ago hist (d + i) = true

/-- The packet that started `d` bits back has ended: where the separator of a
further byte would be, there was a one. -/
def Ended (hist : List Bool) (d : ℕ) : Prop :=
  ∃ m, 1 ≤ m ∧ 9 * m ≤ d ∧ ago hist (d - 9 * m) = true

/-- It ended before the last bit. -/
def Past (hist : List Bool) (d : ℕ) : Prop :=
  ∃ m, 1 ≤ m ∧ 9 * m < d ∧ ago hist (d - 9 * m) = true

variable {hist : List Bool} {b : Bool} {d k m n : ℕ}

theorem Framed.start (h : Framed n hist) (hn : 1 ≤ n) : Start hist (9 * n) :=
  ⟨h.separators n hn le_rfl, h.preamble⟩

theorem start_of_cons (h : Start (b :: hist) (d + 1)) : Start hist d := by
  refine ⟨h.startBit, fun i h₁ h₂ => ?_⟩
  have hi := h.preamble i h₁ h₂
  rwa [Nat.add_right_comm] at hi

/-- A one is no start bit. -/
theorem not_start_zero : ¬ Start (true :: hist) 0 := by
  intro h
  have hzero := h.startBit
  rw [ago_cons_zero] at hzero
  cases hzero

theorem Past.ended (h : Past hist d) : Ended hist d := by
  obtain ⟨m, hm, hlt, hone⟩ := h
  exact ⟨m, hm, hlt.le, hone⟩

theorem Ended.past_cons (h : Ended hist d) : Past (b :: hist) (d + 1) := by
  obtain ⟨m, hm, hle, hone⟩ := h
  refine ⟨m, hm, Nat.lt_succ_of_le hle, ?_⟩
  rwa [Nat.succ_sub hle, ago_cons_succ]

/-- No mask matches a packet that ended earlier. -/
theorem Past.not_framed (h : Past hist (9 * n)) : ¬ Framed n hist := by
  intro hf
  obtain ⟨m, hm, hlt, hone⟩ := h
  -- the one that ended it stands where the mask wants a separator
  have hzero := hf.separators (n - m) (by omega) (by omega)
  rw [Nat.mul_sub, hone] at hzero
  cases hzero

/-- Between transmissions: every packet that started has ended. -/
def Quiet (hist : List Bool) : Prop := ∀ d, Start hist d → Ended hist d

/-- Within a transmission, `k` bits after its start bit. -/
structure InPacket (k : ℕ) (hist : List Bool) : Prop where
  separator : ago hist (k % 9) = false
  starts : ∀ d, Start hist d → d = k ∨ Past hist d

theorem quiet_nil : Quiet [] := by
  intro d h
  have hone := h.preamble 1 le_rfl (by omega)
  rw [ago_nil] at hone
  cases hone

theorem Quiet.starts_cons_true (h : Quiet hist) : ∀ d, Start (true :: hist) d →
    Past (true :: hist) d := by
  intro d hd
  cases d with
  | zero => exact absurd hd not_start_zero
  | succ d => exact (h d (start_of_cons hd)).past_cons

theorem Quiet.cons_true (h : Quiet hist) : Quiet (true :: hist) :=
  fun d hd => (h.starts_cons_true d hd).ended

/-- A one between transmissions completes no packet. -/
theorem Quiet.not_framed (h : Quiet hist) (hn : 1 ≤ n) : ¬ Framed n (true :: hist) :=
  fun hf => (h.starts_cons_true _ (hf.start hn)).not_framed hf

/-- A zero starts a packet, if it starts one at all. -/
theorem Quiet.inPacket (h : Quiet hist) : InPacket 0 (false :: hist) := by
  refine ⟨rfl, fun d hd => ?_⟩
  cases d with
  | zero => exact Or.inl rfl
  | succ d => exact Or.inr (h d (start_of_cons hd)).past_cons

theorem InPacket.cons (h : InPacket k hist) (hb : (k + 1) % 9 = 0 → b = false) :
    InPacket (k + 1) (b :: hist) := by
  have hsep : ago (b :: hist) ((k + 1) % 9) = false := by
    by_cases hk : (k + 1) % 9 = 0
    · rw [hk, ago_cons_zero, hb hk]
    · rw [show (k + 1) % 9 = k % 9 + 1 by omega, ago_cons_succ, h.separator]
  refine ⟨hsep, fun d hd => ?_⟩
  cases d with
  | zero =>
    -- ten ones in a row would hold a separator
    have hone := hd.preamble (k % 9 + 1) (by omega) (by omega)
    rw [Nat.zero_add, ago_cons_succ, h.separator] at hone
    cases hone
  | succ d =>
    rcases h.starts d (start_of_cons hd) with rfl | hpast
    · exact Or.inl rfl
    · exact Or.inr hpast.ended.past_cons

/-- Within a transmission no mask matches. -/
theorem InPacket.not_framed (h : InPacket k hist) (hn : 1 ≤ n) : ¬ Framed n hist := by
  intro hf
  rcases h.starts _ (hf.start hn) with rfl | hpast
  · have hone := hf.endBit
    have hzero := h.separator
    rw [Nat.mul_mod_right, hone] at hzero
    cases hzero
  · exact hpast.not_framed hf

/-- The end bit completes the packet it ends only. -/
theorem InPacket.eq_of_framed (h : InPacket k hist) (hk : k + 1 = 9 * m) (hn : 1 ≤ n)
    (hf : Framed n (true :: hist)) : n = m := by
  obtain ⟨d, hd⟩ : ∃ d, 9 * n = d + 1 := ⟨9 * n - 1, by omega⟩
  have hstart := hf.start hn
  rw [hd] at hstart
  -- the mask sees the start bit of this packet, or of one that has ended
  rcases h.starts d (start_of_cons hstart) with rfl | hpast
  · omega
  · exact absurd hf (Past.not_framed (hd ▸ hpast.ended.past_cons))

theorem InPacket.quiet (h : InPacket k hist) (hk : k + 1 = 9 * m) (hm : 1 ≤ m) :
    Quiet (true :: hist) := by
  intro d hd
  cases d with
  | zero => exact absurd hd not_start_zero
  | succ d =>
    rcases h.starts d (start_of_cons hd) with rfl | hpast
    · exact ⟨m, hm, hk.ge, by rw [hk, Nat.sub_self, ago_cons_zero]⟩
    · exact hpast.ended.past_cons.ended

/-! ### Reports -/

namespace Receiver

variable {self : Receiver} {t : ℤ} {ts ts' : List ℤ} {bs : List Bool}

/-- The state after a sequence of pulses. -/
def receive (ts : List ℤ) (self : Receiver) : Receiver :=
  ts.foldl (fun self t => self.trackSignalFall t) self

theorem reports_append (ts ts' : List ℤ) (self : Receiver) :
    reports (ts ++ ts') self = reports ts self ++ reports ts' (receive ts self) := by
  induction ts generalizing self with
  | nil => rfl
  | cons t ts ih => rw [List.cons_append, reports, reports, ih, List.cons_append]; rfl

theorem receive_append (ts ts' : List ℤ) (self : Receiver) :
    receive (ts ++ ts') self = receive ts' (receive ts self) := List.foldl_append

/-- The receiver has seen the history. -/
def Seen (self : Receiver) (hist : List Bool) : Prop := Tracks self.inputBitBuffer hist

theorem inputBitBuffer_trackSignalFall :
    (self.trackSignalFall t).inputBitBuffer = shiftIn self.inputBitBuffer (pulseBit t) := by
  rw [trackSignalFall]
  split <;> rfl

theorem Seen.trackSignalFall (h : self.Seen hist) :
    (self.trackSignalFall t).Seen (pulseBit t :: hist) := by
  rw [Seen, inputBitBuffer_trackSignalFall]
  exact tracks_shiftIn h (pulseBit t)

theorem report_of_none
    (h : detectDccPacket (shiftIn self.inputBitBuffer (pulseBit t)) = none) :
    self.report t = none := by
  simp only [report, trackSignalFall, h, RingBuffer.put, Function.update_self,
    DccPacket.contents, Option.map_none]

theorem report_of_some (hn : n ≤ 5)
    (h : detectDccPacket (shiftIn self.inputBitBuffer (pulseBit t)) = some n) :
    self.report t =
      some ((List.range n).map (packetByte (shiftIn self.inputBitBuffer (pulseBit t)))) := by
  simp only [report, trackSignalFall, h, RingBuffer.push, RingBuffer.put, Function.update_self,
    DccPacket.contents, bitsToDccPacketData, Option.map_some, Option.some.injEq]
  refine List.ext_getElem (by simp [RING_BUFFER_BYTES, hn]) fun i h₁ h₂ => ?_
  have hi : i < n := by simpa using h₂
  simp [hi]

/-- While no mask matches nothing is reported. -/
theorem report_of_not_framed (h : self.Seen hist)
    (hno : ∀ n, 1 ≤ n → ¬ Framed n (pulseBit t :: hist)) : self.report t = none := by
  rcases detectDccPacket_eq (tracks_shiftIn h (pulseBit t)) with ⟨hnone, -⟩ | ⟨n, hn, -, -, hf⟩
  · exact report_of_none hnone
  · exact absurd hf (hno n (by omega))

theorem reports_preamble (h : self.Seen hist) (hquiet : Quiet hist)
    (hts : ts.map pulseBit = List.replicate k true) :
    reports ts self = List.replicate k none ∧
      (receive ts self).Seen (List.replicate k true ++ hist) ∧
      Quiet (List.replicate k true ++ hist) := by
  induction k generalizing ts self hist with
  | zero =>
    obtain rfl := List.map_eq_nil_iff.mp hts
    exact ⟨rfl, h, hquiet⟩
  | succ k ih =>
    obtain ⟨t, ts, rfl, ht, hts⟩ := List.map_eq_cons_iff.mp hts
    have hseen : (self.trackSignalFall t).Seen (true :: hist) := ht ▸ h.trackSignalFall
    obtain ⟨hreports, hrest⟩ := ih hseen hquiet.cons_true hts
    -- quiet before the one, and quiet after it
    have hnone := report_of_not_framed h (t := t) fun n hn => ht ▸ hquiet.not_framed hn
    rw [reports, hreports, hnone, List.replicate_succ, List.replicate_succ' (a := true),
      List.append_assoc]
    exact ⟨rfl, hrest⟩

/-- Zeros stand where separators belong, `k` bits after the start bit. -/
def Spaced : ℕ → List Bool → Prop
  | _, [] => True
  | k, b :: bs => ((k + 1) % 9 = 0 → b = false) ∧ Spaced (k + 1) bs

theorem spaced_append {bs' : List Bool} : Spaced k (bs ++ bs') ↔
    Spaced k bs ∧ Spaced (k + bs.length) bs' := by
  induction bs generalizing k with
  | nil => simp [Spaced]
  | cons b bs ih =>
    rw [List.cons_append, Spaced, ih, Spaced, List.length_cons, Nat.add_right_comm k,
      Nat.add_assoc k, and_assoc]

theorem spaced_of_le (h : k % 9 + bs.length ≤ 8) : Spaced k bs := by
  induction bs generalizing k with
  | nil => trivial
  | cons b bs ih =>
    rw [List.length_cons] at h
    exact ⟨fun hk => absurd hk (by omega), ih (by omega)⟩

theorem reports_spaced (h : self.Seen hist) (hin : InPacket k hist)
    (hts : ts.map pulseBit = bs) (hbs : Spaced k bs) :
    reports ts self = List.replicate bs.length none ∧
      (receive ts self).Seen (bs.reverse ++ hist) ∧
      InPacket (k + bs.length) (bs.reverse ++ hist) := by
  induction bs generalizing ts self hist k with
  | nil =>
    obtain rfl := List.map_eq_nil_iff.mp hts
    exact ⟨rfl, h, hin⟩
  | cons b bs ih =>
    obtain ⟨t, ts, rfl, rfl, htail⟩ := List.map_eq_cons_iff.mp hts
    have hin' := hin.cons hbs.1
    obtain ⟨hreports, hseen, hlast⟩ := ih h.trackSignalFall hin' htail hbs.2
    have hnone := report_of_not_framed h (t := t) fun n hn => hin'.not_framed hn
    rw [reports, hreports, hnone, List.length_cons, List.replicate_succ, List.reverse_cons,
      List.append_assoc]
    refine ⟨rfl, hseen, ?_⟩
    rwa [Nat.add_right_comm, Nat.add_assoc] at hlast

/-! ### Transmissions -/

/-- A byte with the zero before it, as it is sent. -/
def sentByte (b : UInt8) : List Bool := false :: bits 8 b.toNat

theorem length_sentByte (b : UInt8) : (sentByte b).length = 9 := by
  rw [sentByte, List.length_cons, length_bits]

theorem reverse_sentByte (b : UInt8) :
    (sentByte b).reverse = (List.range 8).map b.toNat.testBit ++ [false] := by
  rw [sentByte, List.reverse_cons, reverse_bits]

theorem ago_sentByte (b : UInt8) {j : ℕ} (hj : j < 8) :
    ago ((sentByte b).reverse ++ hist) j = b.toNat.testBit j := by
  rw [reverse_sentByte, List.append_assoc, ago_append_of_lt (by simpa using hj), ago,
    List.getD_eq_getElem _ _ (by simpa using hj)]
  simp

theorem ago_sentByte_separator (b : UInt8) : ago ((sentByte b).reverse ++ hist) 8 = false := by
  rw [reverse_sentByte, List.append_assoc, ago_append_of_ge (by simp)]
  rfl

theorem ago_sentByte_add (b : UInt8) (k : ℕ) :
    ago ((sentByte b).reverse ++ hist) (9 + k) = ago hist k := by
  have hlen : (sentByte b).reverse.length = 9 := by rw [List.length_reverse, length_sentByte]
  rw [ago_append_of_ge (by omega), hlen, Nat.add_sub_cancel_left]

/-- The bytes sent, as the history has them: the last one first. -/
def sentBack (bytes : List UInt8) : List Bool := (bytes.flatMap sentByte).reverse

theorem sentBack_concat (bytes : List UInt8) (b : UInt8) :
    sentBack (bytes ++ [b]) ++ hist = (sentByte b).reverse ++ (sentBack bytes ++ hist) := by
  rw [sentBack, List.flatMap_append, List.reverse_append, List.flatMap_singleton, sentBack,
    List.append_assoc]

/-- Bit `j` of the byte that is `i` bytes from the end. -/
theorem ago_sentBack {bytes : List UInt8} {i j : ℕ} (hj : j < 8) :
    ∀ b ∈ bytes.reverse[i]?, ago (sentBack bytes ++ hist) (9 * i + j) = b.toNat.testBit j := by
  induction bytes using List.reverseRecOn generalizing i with
  | nil => simp
  | append_singleton bytes c ih =>
    intro b hb
    rw [sentBack_concat]
    rw [List.reverse_concat] at hb
    cases i with
    | zero =>
      obtain rfl : c = b := Option.some.inj hb
      rw [Nat.mul_zero, Nat.zero_add, ago_sentByte c hj]
    | succ i =>
      rw [show 9 * (i + 1) + j = 9 + (9 * i + j) by omega, ago_sentByte_add]
      exact ih b hb

theorem ago_sentBack_separator {bytes : List UInt8} {i : ℕ} (hi : i < bytes.length) :
    ago (sentBack bytes ++ hist) (9 * i + 8) = false := by
  induction bytes using List.reverseRecOn generalizing i with
  | nil => simp at hi
  | append_singleton bytes c ih =>
    rw [sentBack_concat]
    cases i with
    | zero => exact ago_sentByte_separator c
    | succ i =>
      rw [show 9 * (i + 1) + 8 = 9 + (9 * i + 8) by omega, ago_sentByte_add]
      exact ih (by simpa using hi)

theorem length_sentBack (bytes : List UInt8) : (sentBack bytes).length = 9 * bytes.length := by
  rw [sentBack, List.length_reverse, length_flatMap length_sentByte]

/-- The history after a transmission is framed. -/
theorem framed_sentBack (bytes : List UInt8)
    (hpreamble : ∀ i < 10, ago hist i = true) :
    Framed bytes.length (true :: (sentBack bytes ++ hist)) := by
  refine ⟨rfl, fun j h₁ h₂ => ?_, fun i h₁ h₂ => ?_⟩
  · rw [show 9 * j = 9 * (j - 1) + 8 + 1 by omega, ago_cons_succ,
      ago_sentBack_separator (by omega)]
  · rw [show 9 * bytes.length + i = 9 * bytes.length + (i - 1) + 1 by omega, ago_cons_succ,
      ago_append_of_ge (by rw [length_sentBack]; omega), length_sentBack, Nat.add_sub_cancel_left]
    exact hpreamble (i - 1) (by omega)

theorem getLsbD_packetByte {buffer : UInt64} {i j : ℕ} (hi : i < 7) (hj : j < 8) :
    (packetByte buffer i).toBitVec.getLsbD j = buffer.toBitVec.getLsbD (9 * i + j + 1) := by
  have hshift : (UInt64.ofNat (i * 9 + 1)).toBitVec % 64 = BitVec.ofNat 64 (i * 9 + 1) := by
    have hlt : i * 9 + 1 < 64 := by omega
    refine BitVec.eq_of_toNat_eq ?_
    show (i * 9 + 1) % 2 ^ 64 % 64 = (i * 9 + 1) % 2 ^ 64
    rw [Nat.mod_eq_of_lt (Nat.lt_trans hlt (by decide)), Nat.mod_eq_of_lt hlt]
  rw [packetByte, UInt64.toBitVec_toUInt8, BitVec.getLsbD_setWidth, decide_eq_true hj,
    Bool.true_and, UInt64.toBitVec_shiftRight, hshift, BitVec.ushiftRight_eq',
    BitVec.getLsbD_ushiftRight, BitVec.toNat_ofNat, Nat.mod_eq_of_lt (by omega)]
  congr 1
  omega

/-- The bytes are read back from the buffer. -/
theorem packetByte_sentBack {buffer : UInt64} {bytes : List UInt8} {i : ℕ}
    (h : Tracks buffer (true :: (sentBack bytes ++ hist))) (hi : i < 7) :
    ∀ b ∈ bytes.reverse[i]?, packetByte buffer i = b := by
  intro b hb
  refine UInt8.toBitVec_inj.mp (BitVec.eq_of_getLsbD_eq fun j hj => ?_)
  rw [getLsbD_packetByte hi hj, h _ (by omega), ago_cons_succ, ago_sentBack hj b hb,
    ← BitVec.testBit_toNat]
  rfl

/-- A transmission: ones, the bytes with a zero before each, and a one. -/
structure Transmission where
  preamble : ℕ
  bytes : List UInt8
  length_mem : 3 ≤ bytes.length ∧ bytes.length ≤ 5

/-- The bits of a transmission. -/
def Transmission.bits (self : Transmission) : List Bool :=
  List.replicate self.preamble true ++ (self.bytes.flatMap sentByte ++ [true])

/-- Only the end bit of the transmission is reported, with its bytes. -/
def Transmission.reports (self : Transmission) : List (Option (List UInt8)) :=
  List.replicate (self.bits.length - 1) none ++ [some self.bytes.reverse]

theorem spaced_sentBytes (h : k % 9 = 8) (bytes : List UInt8) :
    Spaced k (bytes.flatMap sentByte) := by
  induction bytes generalizing k with
  | nil => trivial
  | cons b bytes ih =>
    rw [List.flatMap_cons, spaced_append, length_sentByte]
    refine ⟨⟨fun _ => rfl, spaced_of_le ?_⟩, ih (by omega)⟩
    rw [length_bits]
    omega

/-- The bits of the bytes complete no packet. -/
theorem reports_bytes {bytes : List UInt8} (hne : bytes ≠ []) (h : self.Seen hist)
    (hquiet : Quiet hist) (hts : ts.map pulseBit = bytes.flatMap sentByte) :
    reports ts self = List.replicate (9 * bytes.length) none ∧
      (receive ts self).Seen (sentBack bytes ++ hist) ∧
      ∃ k, k + 1 = 9 * bytes.length ∧ InPacket k (sentBack bytes ++ hist) := by
  obtain ⟨b, rest, rfl⟩ := List.exists_cons_of_ne_nil hne
  have hback : sentBack (b :: rest) ++ hist =
      (bits 8 b.toNat ++ rest.flatMap sentByte).reverse ++ (false :: hist) := by
    rw [sentBack, List.flatMap_cons, sentByte, List.cons_append, List.reverse_cons,
      List.append_assoc]
    rfl
  have hlen : (bits 8 b.toNat ++ rest.flatMap sentByte).length + 1 = 9 * (b :: rest).length := by
    rw [List.length_append, length_bits, length_flatMap length_sentByte, List.length_cons]
    omega
  obtain ⟨t, ts, rfl, ht, htail⟩ := List.map_eq_cons_iff.mp hts
  -- the first zero is the start bit, and the bits after it are spaced
  have hseen : (self.trackSignalFall t).Seen (false :: hist) := ht ▸ h.trackSignalFall
  have hspaced : Spaced 0 (bits 8 b.toNat ++ rest.flatMap sentByte) := by
    rw [spaced_append, length_bits]
    exact ⟨spaced_of_le (by rw [length_bits]), spaced_sentBytes rfl rest⟩
  obtain ⟨hreports, hlast, hin⟩ := reports_spaced hseen hquiet.inPacket htail hspaced
  have hnone := report_of_not_framed h (t := t) fun n hn => ht ▸ hquiet.inPacket.not_framed hn
  rw [hback, ← hlen, reports, hreports, hnone, List.replicate_succ]
  refine ⟨rfl, hlast, _, rfl, ?_⟩
  rwa [Nat.zero_add] at hin

/-- The end bit completes the packet. -/
theorem report_endBit {bytes : List UInt8} (hlen : 3 ≤ bytes.length ∧ bytes.length ≤ 5)
    (h : self.Seen (sentBack bytes ++ hist)) (hk : k + 1 = 9 * bytes.length)
    (hin : InPacket k (sentBack bytes ++ hist)) (hpreamble : ∀ i < 10, ago hist i = true)
    (ht : pulseBit t = true) : self.report t = some bytes.reverse := by
  have htracks := tracks_shiftIn h (pulseBit t)
  rw [ht] at htracks
  have hframed := framed_sentBack bytes hpreamble
  have hdetect : detectDccPacket (shiftIn self.inputBitBuffer (pulseBit t)) =
      some bytes.length := by
    rw [ht]
    -- this packet is framed, so some mask matches, and no other packet is
    rcases detectDccPacket_eq htracks with ⟨-, h₃, h₄, h₅⟩ | ⟨n, hn, -, hdetect, hf⟩
    · obtain hl | hl | hl : bytes.length = 3 ∨ bytes.length = 4 ∨ bytes.length = 5 := by omega
      · exact absurd (hl ▸ hframed) h₃
      · exact absurd (hl ▸ hframed) h₄
      · exact absurd (hl ▸ hframed) h₅
    · rw [hdetect, hin.eq_of_framed hk (by omega) hf]
  rw [report_of_some hlen.2 hdetect, ht, Option.some.injEq]
  refine List.ext_getElem (by simp) fun i h₁ h₂ => ?_
  have hi : i < bytes.length := by simpa using h₁
  rw [List.getElem_map, List.getElem_range]
  exact packetByte_sentBack htracks (by omega) _ (List.getElem?_eq_getElem h₂)

/-- A transmission after a quiet history, with ten ones before its start bit. -/
theorem reports_transmission (p : Transmission) (h : self.Seen hist) (hquiet : Quiet hist)
    (hpreamble : ∀ i < 10, ago (List.replicate p.preamble true ++ hist) i = true)
    (hts : ts.map pulseBit = p.bits) :
    reports ts self = p.reports ∧ ∃ hist', (receive ts self).Seen (true :: hist') ∧
      Quiet (true :: hist') := by
  obtain ⟨ts₁, ts', rfl, hones, hrest⟩ := List.map_eq_append_iff.mp hts
  obtain ⟨ts₂, ts₃, rfl, hbytes, hend⟩ := List.map_eq_append_iff.mp hrest
  obtain ⟨t, rfl, ht⟩ := List.map_eq_singleton_iff.mp hend
  have hne : p.bytes ≠ [] := by
    rintro hnil
    have hlen := p.length_mem.1
    rw [hnil] at hlen
    cases hlen
  obtain ⟨hreports₁, hseen₁, hquiet₁⟩ := reports_preamble h hquiet hones
  obtain ⟨hreports₂, hseen₂, k, hk, hin⟩ := reports_bytes hne hseen₁ hquiet₁ hbytes
  have hreport := report_endBit p.length_mem hseen₂ hk hin hpreamble ht
  refine ⟨?_, _, ?_, hin.quiet hk (by have := p.length_mem; omega)⟩
  · have hlen : p.bits.length - 1 = p.preamble + 9 * p.bytes.length := by
      rw [Transmission.bits, List.length_append, List.length_append, List.length_replicate,
        length_flatMap length_sentByte, List.length_singleton]
      omega
    rw [reports_append, reports_append, hreports₁, hreports₂, Transmission.reports, hlen,
      List.replicate_add, List.append_assoc]
    exact congrArg (fun r => _ ++ (_ ++ [r])) hreport
  · rw [receive_append, receive_append]
    exact ht ▸ hseen₂.trackSignalFall

theorem ago_replicate {i : ℕ} (hi : i < k) : ago (List.replicate k true ++ hist) i = true := by
  rw [ago_append_of_lt (by simpa using hi), ago, List.getD_replicate _ hi]

/-- The end bit of a transmission counts as a one of the next preamble. -/
theorem reports_further {transmissions : List Transmission}
    (hall : ∀ p ∈ transmissions, 9 ≤ p.preamble) (h : self.Seen (true :: hist))
    (hquiet : Quiet (true :: hist))
    (hts : ts.map pulseBit = transmissions.flatMap Transmission.bits) :
    reports ts self = transmissions.flatMap Transmission.reports := by
  induction transmissions generalizing ts self hist with
  | nil =>
    obtain rfl := List.map_eq_nil_iff.mp hts
    rfl
  | cons p transmissions ih =>
    obtain ⟨ts₁, ts₂, rfl, hp, hrest⟩ := List.map_eq_append_iff.mp hts
    -- nine ones of its own, and the end bit of the one before
    have hpreamble : ∀ i < 10, ago (List.replicate p.preamble true ++ true :: hist) i = true := by
      intro i hi
      rw [← List.singleton_append, ← List.append_assoc, ← List.replicate_succ']
      exact ago_replicate (by have := hall p List.mem_cons_self; omega)
    obtain ⟨hreports, hist', hseen, hquiet'⟩ := reports_transmission p h hquiet hpreamble hp
    rw [reports_append, hreports, List.flatMap_cons,
      ih (fun q hq => hall q (List.mem_cons_of_mem p hq)) hseen hquiet' hrest]

/-- **Bit framing.**  While transmissions are received one after the other, each
with ten ones before its start bit, the end bit of the one before among them,
every end bit is reported, with the bytes it ends, and no other bit is. -/
theorem reports_transmissions (transmissions : List Transmission)
    (hfirst : ∀ p ∈ transmissions.head?, 10 ≤ p.preamble)
    (hrest : ∀ p ∈ transmissions.tail, 9 ≤ p.preamble)
    (hself : self.inputBitBuffer = 0)
    (hts : ts.map pulseBit = transmissions.flatMap Transmission.bits) :
    reports ts self = transmissions.flatMap Transmission.reports := by
  have hseen : self.Seen [] := by
    rw [Seen, hself]
    exact tracks_zero
  cases transmissions with
  | nil =>
    obtain rfl := List.map_eq_nil_iff.mp hts
    rfl
  | cons p transmissions =>
    obtain ⟨ts₁, ts₂, rfl, hp, htail⟩ := List.map_eq_append_iff.mp hts
    have hpreamble : ∀ i < 10, ago (List.replicate p.preamble true ++ []) i = true :=
      fun i hi => ago_replicate (Nat.lt_of_lt_of_le hi (hfirst p rfl))
    have hall : ∀ q ∈ transmissions, 9 ≤ q.preamble := hrest
    obtain ⟨hreports, hist', hseen', hquiet⟩ :=
      reports_transmission p hseen quiet_nil hpreamble hp
    rw [reports_append, hreports, List.flatMap_cons, reports_further hall hseen' hquiet htail]

/-- A reset message, and a packet of five bytes right after it. -/
def resetTransmission : Transmission := ⟨10, [0, 0, 0], by decide⟩

def fiveByteTransmission : Transmission := ⟨9, [0xC3, 0xE8, 0x3F, 0x85, 0x91], by decide⟩

theorem reports_two_transmissions :
    reports ((resetTransmission.bits ++ fiveByteTransmission.bits).map fun b =>
        if b then 58 else 100) boot =
      resetTransmission.reports ++ fiveByteTransmission.reports :=
  reports_transmissions [resetTransmission, fiveByteTransmission] (by decide) (by decide) rfl
    (by decide)

end Receiver

end Rp2040
