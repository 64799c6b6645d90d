/-
The PIO program `dcc_decoder` (`application/src/transport/dcc_decoder.pio`).

* `dccDecoder` — the program, with the addresses of its labels;
* `WirePacket.bits` — a packet on the wire: preamble, a zero before every byte,
  and an end bit;
* `read_byte`, `read_packet`, `pad_packet` — what the loops of the program do;
* `receive` — one packet on the wire makes the program shift in its `frame`;
* `receive_all` — a sequence of packets makes it shift in their frames.

The register that counts the padding is decremented once per byte and wraps, so
the frame of a packet is its complemented bytes, `(7 - n) mod 2 ^ 32` null bytes
and the low byte of that number.
-/
import Rp2040Decoder.Pio

namespace Rp2040.Pio

open Bits

/-! ### The program -/

abbrev newPreamble := 0
abbrev preambleCandidate := 1
abbrev packetStart := 5
abbrev packet := 9
abbrev readPacketByte := 10
abbrev readPacketBit := 11
abbrev checkMoreData := 16
abbrev paddingLoop := 20
abbrev paddingDone := 23

/-- MINIMUM 10 "1"s -/
abbrev PREAMBLE_BITS : UInt32 := 10

/-- The end packet bit can count towards the first preamble bit. -/
abbrev PREAMBLE_BITS_WITH_END : UInt32 := 9

/-- `.program dcc_decoder` -/
def dccDecoder : List Instr :=
  [ -- new_preamble
    .set .x PREAMBLE_BITS,
    -- preamble_candidate
    .wait false,
    .wait true,
    .jmp .pin newPreamble,
    .jmp (.dec .x) preambleCandidate,
    -- packet_start
    .wait false,
    .wait true,
    .jmp .pin packet,
    .jmp .always packetStart,
    -- packet
    .set .x 7,
    -- read_packet_byte
    .set .y 7,
    -- read_packet_bit
    .wait false,
    .wait true,
    .shiftIn .pins 1,
    .jmp (.dec .y) readPacketBit,
    .jmp (.dec .x) checkMoreData,
    -- check_more_data
    .wait false,
    .wait true,
    .jmp .pin readPacketByte,
    .mov .y .x,
    -- padding_loop
    .jmp (.zero .x) paddingDone,
    .shiftIn .null 8,
    .jmp (.dec .x) paddingLoop,
    -- padding_done
    .shiftIn (.reg .y) 8,
    .set .x PREAMBLE_BITS_WITH_END,
    .jmp .always preambleCandidate ]

/-- The state machine as `PioDccDecoder::new` enables it; the line is pulled up. -/
def start (line : List Bool) : State := ⟨newPreamble, 0, 0, true, .empty, line⟩

/-! ### Packets on the wire -/

def byteBits (b : UInt8) : List Bool := bits 8 b.toNat

theorem length_byteBits (b : UInt8) : (byteBits b).length = 8 := length_bits 8 b.toNat

/-- The pin is high while a zero is sampled, so the bits arrive inverted. -/
theorem byteBits_not (b : UInt8) : byteBits (~~~b) = (byteBits b).map (!·) := by
  have hnot : (~~~b).toNat = 2 ^ 8 - 1 - b.toNat := UInt8.toNat_not b
  rw [byteBits, byteBits, hnot, bits_compl b.toNat_lt]

theorem byteBits_toUInt8 (x : UInt32) : byteBits x.toUInt8 = bits 8 x.toNat := by
  rw [byteBits, UInt32.toNat_toUInt8, bits_mod le_rfl]

/-- A register of whole bytes still holds whole bytes after whole bytes more. -/
theorem dvd_length_bits {rx rx' : Rx} {bytes : List UInt8} (hrx : 8 ∣ rx.bits.length)
    (h : rx'.bits = rx.bits ++ bytes.flatMap byteBits) : 8 ∣ rx'.bits.length := by
  rw [h, List.length_append, length_flatMap length_byteBits]
  exact dvd_add hrx (dvd_mul_right 8 _)

/-- A packet as a command station sends it. -/
structure WirePacket where
  /-- Ones before the first start bit. -/
  preamble : ℕ
  bytes : List UInt8
  preamble_ge : 11 ≤ preamble
  bytes_ne : bytes ≠ []

/-- A zero before every byte, and a one as the end bit. -/
def dataBits (bytes : List UInt8) : List Bool :=
  bytes.flatMap (fun b => false :: byteBits b) ++ [true]

theorem dataBits_cons (b : UInt8) (bytes : List UInt8) (line : List Bool) :
    dataBits (b :: bytes) ++ line = false :: (byteBits b ++ (dataBits bytes ++ line)) := by
  simp only [dataBits, List.flatMap_cons, List.append_assoc, List.cons_append]

/-- The DCC bits of a packet. -/
def WirePacket.bits (p : WirePacket) : List Bool :=
  List.replicate p.preamble true ++ dataBits p.bytes

/-- The padding register after `n` bytes. -/
def padding (n : ℕ) : UInt32 := 7 - UInt32.ofNat n

/-- What the program shifts in for a packet. -/
def frame (bytes : List UInt8) : List UInt8 :=
  bytes.map (~~~·) ++ List.replicate (padding bytes.length).toNat 0 ++
    [(padding bytes.length).toUInt8]

/-! ### The loops of the program -/

variable (x y : UInt32) (pin : Bool) (rx : Rx) (line : List Bool)

theorem toNat_sub_one {v : UInt32} {n : ℕ} (h : v.toNat = n + 1) : (v - 1).toNat = n := by
  have hle : (1 : UInt32) ≤ v := by
    rw [UInt32.le_iff_toNat_le, h]
    exact Nat.le_add_left 1 n
  rw [UInt32.toNat_sub_of_le _ _ hle, h]
  rfl

theorem ne_zero_of_toNat {v : UInt32} {n : ℕ} (h : v.toNat = n + 1) : v ≠ 0 := by
  rintro rfl
  cases h

/-- `preamble_candidate`: `x + 1` ones make a valid preamble. -/
theorem preamble_ones {n : ℕ} (hx : x.toNat = n) :
    ∃ x', Steps dccDecoder ⟨preambleCandidate, x, y, pin, rx, List.replicate (n + 1) true ++ line⟩
      ⟨packetStart, x', y, false, rx, line⟩ := by
  induction n generalizing x pin with
  | zero =>
    obtain rfl : x = 0 := UInt32.toNat_inj.mp hx
    have hbit : Steps dccDecoder ⟨1, 0, y, pin, rx, true :: line⟩ ⟨3, 0, y, false, rx, line⟩ :=
      Steps.wait_bit rfl rfl
    exact ⟨_, (hbit.tail rfl).tail rfl⟩
  | succ n ih =>
    have hbit : Steps dccDecoder
        ⟨1, x, y, pin, rx, true :: (List.replicate (n + 1) true ++ line)⟩
        ⟨3, x, y, false, rx, List.replicate (n + 1) true ++ line⟩ :=
      Steps.wait_bit rfl rfl
    have hone : Steps dccDecoder _ ⟨4, x, y, false, rx, List.replicate (n + 1) true ++ line⟩ :=
      hbit.tail rfl
    have hx0 : x ≠ 0 := ne_zero_of_toNat hx
    have hagain : Steps dccDecoder _
        ⟨1, x - 1, y, false, rx, List.replicate (n + 1) true ++ line⟩ :=
      hone.tail (Steps.jmp_dec (r := .x) rfl hx0)
    obtain ⟨x', hrest⟩ := ih (x - 1) false (toNat_sub_one hx)
    exact ⟨x', hagain.trans hrest⟩

/-- `packet_start`: further ones are accepted, and the zero starts the packet. -/
theorem packet_start (k : ℕ) :
    Steps dccDecoder ⟨packetStart, x, y, pin, rx, List.replicate k true ++ false :: line⟩
      ⟨packet, x, y, true, rx, line⟩ := by
  induction k generalizing pin with
  | zero =>
    have hbit : Steps dccDecoder ⟨5, x, y, pin, rx, false :: line⟩ ⟨7, x, y, true, rx, line⟩ :=
      Steps.wait_bit rfl rfl
    exact hbit.tail rfl
  | succ k ih =>
    have hbit : Steps dccDecoder
        ⟨5, x, y, pin, rx, true :: (List.replicate k true ++ false :: line)⟩
        ⟨7, x, y, false, rx, List.replicate k true ++ false :: line⟩ :=
      Steps.wait_bit rfl rfl
    have hone : Steps dccDecoder _
        ⟨5, x, y, false, rx, List.replicate k true ++ false :: line⟩ := (hbit.tail rfl).tail rfl
    exact hone.trans (ih false)

/-- `in pins, 1` appends the inverted bit. -/
theorem bits_shift_pin (b : Bool) :
    (rx.shift 1 (if !b then 1 else 0)).bits = rx.bits ++ [!b] := by
  rw [Rx.bits_shift rx.count_lt]
  cases b <;> rfl

/-- `read_packet_bit`: `y + 1` bits are shifted in, inverted. -/
theorem read_bits {bs : List Bool} (hy : y.toNat + 1 = bs.length) :
    ∃ y' pin' rx', Steps dccDecoder ⟨readPacketBit, x, y, pin, rx, bs ++ line⟩
      ⟨15, x, y', pin', rx', line⟩ ∧ rx'.bits = rx.bits ++ bs.map (!·) := by
  induction bs generalizing y pin rx with
  | nil => cases hy
  | cons b bs ih =>
    have hbit : Steps dccDecoder ⟨11, x, y, pin, rx, b :: (bs ++ line)⟩
        ⟨13, x, y, !b, rx, bs ++ line⟩ := Steps.wait_bit rfl rfl
    have hin : Steps dccDecoder _
        ⟨14, x, y, !b, rx.shift 1 (if !b then 1 else 0), bs ++ line⟩ := hbit.tail rfl
    have hbits := bits_shift_pin rx b
    cases bs with
    | nil =>
      obtain rfl : y = 0 := UInt32.toNat_inj.mp (Nat.succ.inj hy)
      exact ⟨_, _, _, hin.tail rfl, hbits⟩
    | cons b' bs =>
      have hy' : y.toNat = bs.length + 1 := Nat.succ.inj hy
      have hy0 : y ≠ 0 := ne_zero_of_toNat hy'
      have hagain : Steps dccDecoder _
          ⟨11, x, y - 1, !b, rx.shift 1 (if !b then 1 else 0), b' :: bs ++ line⟩ :=
        hin.tail (Steps.jmp_dec (r := .y) rfl hy0)
      obtain ⟨y', pin', rx', hrest, hrx'⟩ :=
        ih (y - 1) (!b) _ (congrArg Nat.succ (toNat_sub_one hy'))
      refine ⟨y', pin', rx', hagain.trans hrest, ?_⟩
      rw [hrx', hbits, List.append_assoc]
      rfl

/-- `read_packet_byte`, up to the decrement of the padding register. -/
theorem read_byte (b : UInt8) :
    ∃ y' pin' rx', Steps dccDecoder ⟨readPacketByte, x, y, pin, rx, byteBits b ++ line⟩
      ⟨checkMoreData, x - 1, y', pin', rx', line⟩ ∧ rx'.bits = rx.bits ++ byteBits (~~~b) := by
  have hset : Steps dccDecoder ⟨10, x, y, pin, rx, byteBits b ++ line⟩
      ⟨11, x, 7, pin, rx, byteBits b ++ line⟩ := Relation.ReflTransGen.single rfl
  obtain ⟨y', pin', rx', hread, hrx'⟩ := read_bits x 7 pin rx line (length_byteBits b).symm
  -- the jump goes to the next instruction, so it only decrements
  have hjmp : step dccDecoder ⟨15, x, y', pin', rx', line⟩ =
      some ⟨16, x - 1, y', pin', rx', line⟩ :=
    congrArg (fun pc => some (⟨pc, x - 1, y', pin', rx', line⟩ : State)) (ite_self 16)
  exact ⟨y', pin', rx', (hset.trans hread).tail hjmp, by rw [hrx', byteBits_not]⟩

/-- `check_more_data`: the bytes of a packet up to its end bit, each of them
taking one off the padding register. -/
theorem read_packet (b : UInt8) (bs : List UInt8) :
    ∃ y' pin' rx', Steps dccDecoder
      ⟨readPacketByte, x, y, pin, rx, byteBits b ++ (dataBits bs ++ line)⟩
      ⟨19, x - UInt32.ofNat (bs.length + 1), y', pin', rx', line⟩ ∧
      rx'.bits = rx.bits ++ ((b :: bs).map (~~~·)).flatMap byteBits := by
  induction bs generalizing b x y pin rx with
  | nil =>
    obtain ⟨y', pin', rx', hread, hrx'⟩ := read_byte x y pin rx (true :: line) b
    have hbit : Steps dccDecoder ⟨16, x - 1, y', pin', rx', true :: line⟩
        ⟨18, x - 1, y', false, rx', line⟩ := Steps.wait_bit rfl rfl
    refine ⟨y', false, rx', (hread.trans hbit).tail rfl, ?_⟩
    rw [hrx', List.map_singleton, List.flatMap_singleton]
  | cons b' bs ih =>
    rw [dataBits_cons]
    obtain ⟨y', pin', rx', hread, hrx'⟩ :=
      read_byte x y pin rx (false :: (byteBits b' ++ (dataBits bs ++ line))) b
    have hbit : Steps dccDecoder
        ⟨16, x - 1, y', pin', rx', false :: (byteBits b' ++ (dataBits bs ++ line))⟩
        ⟨18, x - 1, y', true, rx', byteBits b' ++ (dataBits bs ++ line)⟩ := Steps.wait_bit rfl rfl
    have hmore : Steps dccDecoder _
        ⟨10, x - 1, y', true, rx', byteBits b' ++ (dataBits bs ++ line)⟩ :=
      (hread.trans hbit).tail rfl
    obtain ⟨y'', pin'', rx'', hrest, hrx''⟩ := ih (x - 1) y' true rx' b'
    have hcount : x - 1 - UInt32.ofNat (bs.length + 1) = x - UInt32.ofNat (bs.length + 1 + 1) := by
      have hone : UInt32.ofNat (bs.length + 1 + 1) = UInt32.ofNat (bs.length + 1) + 1 :=
        UInt32.ofNat_add _ _
      grind
    rw [hcount] at hrest
    refine ⟨y'', pin'', rx'', hmore.trans hrest, ?_⟩
    rw [hrx'', hrx', List.append_assoc, ← List.flatMap_cons, ← List.map_cons]

/-- `padding_loop`: `x` null bytes, if the register holds whole bytes. -/
theorem padding_loop {n : ℕ} (hx : x.toNat = n) (hrx : 8 ∣ rx.bits.length) :
    ∃ rx', Steps dccDecoder ⟨paddingLoop, x, y, pin, rx, line⟩
      ⟨paddingDone, 0, y, pin, rx', line⟩ ∧
      rx'.bits = rx.bits ++ (List.replicate n 0).flatMap byteBits := by
  induction n generalizing x rx with
  | zero =>
    obtain rfl : x = 0 := UInt32.toNat_inj.mp hx
    exact ⟨rx, Relation.ReflTransGen.single rfl, (List.append_nil _).symm⟩
  | succ n ih =>
    have hx0 : x ≠ 0 := ne_zero_of_toNat hx
    have hjmp : step dccDecoder ⟨20, x, y, pin, rx, line⟩ = some ⟨21, x, y, pin, rx, line⟩ :=
      congrArg (fun pc => some (⟨pc, x, y, pin, rx, line⟩ : State))
        (if_neg fun h => hx0 (beq_iff_eq.mp h))
    have hpad : Steps dccDecoder ⟨20, x, y, pin, rx, line⟩ ⟨21, x, y, pin, rx, line⟩ :=
      Relation.ReflTransGen.single hjmp
    have hin : Steps dccDecoder _ ⟨22, x, y, pin, rx.shift 8 0, line⟩ := hpad.tail rfl
    have hagain : Steps dccDecoder _ ⟨20, x - 1, y, pin, rx.shift 8 0, line⟩ :=
      hin.tail (Steps.jmp_dec (r := .x) rfl hx0)
    have hbits : (rx.shift 8 0).bits = rx.bits ++ byteBits 0 :=
      Rx.bits_shift (Rx.count_add_eight_le hrx) 0
    have hwhole : 8 ∣ (rx.shift 8 0).bits.length := by
      rw [hbits, List.length_append, length_byteBits]
      exact dvd_add hrx dvd_rfl
    obtain ⟨rx', hrest, hrx'⟩ := ih (x - 1) _ (toNat_sub_one hx) hwhole
    refine ⟨rx', hagain.trans hrest, ?_⟩
    rw [hrx', hbits, List.replicate_succ, List.flatMap_cons, List.append_assoc]

/-- From the end bit of a packet to the next preamble: the padding and its
count. -/
theorem pad_packet (hrx : 8 ∣ rx.bits.length) :
    ∃ rx', Steps dccDecoder ⟨19, x, y, pin, rx, line⟩
      ⟨preambleCandidate, PREAMBLE_BITS_WITH_END, x, pin, rx', line⟩ ∧
      rx'.bits = rx.bits ++ (List.replicate x.toNat 0 ++ [x.toUInt8]).flatMap byteBits := by
  have hmov : Steps dccDecoder ⟨19, x, y, pin, rx, line⟩ ⟨20, x, x, pin, rx, line⟩ :=
    Relation.ReflTransGen.single rfl
  obtain ⟨rx₁, hpad, hrx₁⟩ := padding_loop x x pin rx line rfl hrx
  have hcount : Steps dccDecoder ⟨23, 0, x, pin, rx₁, line⟩
      ⟨24, 0, x, pin, rx₁.shift 8 x, line⟩ := Relation.ReflTransGen.single rfl
  have hwhole : 8 ∣ rx₁.bits.length := dvd_length_bits hrx hrx₁
  refine ⟨rx₁.shift 8 x, (((hmov.trans hpad).trans hcount).tail rfl).tail rfl, ?_⟩
  rw [Rx.bits_shift (Rx.count_add_eight_le hwhole), hrx₁, List.flatMap_append,
    List.flatMap_singleton, byteBits_toUInt8, List.append_assoc]

/-! ### Packets through the program -/

/-- **One packet.**  From a preamble candidate that asks for no more ones than
the packet brings, the program shifts in the packet's frame and is a preamble
candidate again. -/
theorem receive (p : WirePacket) (hx : x.toNat + 1 ≤ p.preamble) (hrx : 8 ∣ rx.bits.length) :
    ∃ y' pin' rx', Steps dccDecoder ⟨preambleCandidate, x, y, pin, rx, p.bits ++ line⟩
      ⟨preambleCandidate, PREAMBLE_BITS_WITH_END, y', pin', rx', line⟩ ∧
      rx'.bits = rx.bits ++ (frame p.bytes).flatMap byteBits := by
  obtain ⟨b, bs, hbytes⟩ := List.exists_cons_of_ne_nil p.bytes_ne
  obtain ⟨k, hk⟩ := Nat.exists_eq_add_of_le hx
  obtain ⟨x', hones⟩ := preamble_ones x y pin rx
    (List.replicate k true ++ false :: (byteBits b ++ (dataBits bs ++ line))) rfl
  have hstart := packet_start x' y false rx (byteBits b ++ (dataBits bs ++ line)) k
  have hset : Steps dccDecoder _
      ⟨readPacketByte, 7, y, true, rx, byteBits b ++ (dataBits bs ++ line)⟩ :=
    (hones.trans hstart).tail rfl
  obtain ⟨y₁, pin₁, rx₁, hread, hrx₁⟩ := read_packet 7 y true rx line b bs
  have hwhole : 8 ∣ rx₁.bits.length := dvd_length_bits hrx hrx₁
  obtain ⟨rx₂, hpad, hrx₂⟩ := pad_packet (padding (bs.length + 1)) y₁ pin₁ rx₁ line hwhole
  have hline : p.bits ++ line = List.replicate (x.toNat + 1) true ++
      (List.replicate k true ++ false :: (byteBits b ++ (dataBits bs ++ line))) := by
    rw [WirePacket.bits, hk, hbytes, List.replicate_add, List.append_assoc, List.append_assoc,
      dataBits_cons]
  rw [hline]
  refine ⟨_, pin₁, rx₂, (hset.trans hread).trans hpad, ?_⟩
  simp only [hrx₂, hrx₁, hbytes, frame, List.flatMap_append, List.append_assoc, List.length_cons]

/-- **A sequence of packets.**  The program shifts in their frames and waits for
more. -/
theorem receive_all (packets : List WirePacket) (hx : x.toNat ≤ 10) (hrx : 8 ∣ rx.bits.length) :
    ∃ s, Steps dccDecoder ⟨preambleCandidate, x, y, pin, rx, packets.flatMap WirePacket.bits⟩ s ∧
      step dccDecoder s = none ∧
      s.rx.bits = rx.bits ++ (packets.flatMap fun p => frame p.bytes).flatMap byteBits := by
  induction packets generalizing x y pin rx with
  | nil => exact ⟨_, Relation.ReflTransGen.refl, rfl, (List.append_nil _).symm⟩
  | cons p packets ih =>
    have hpreamble : x.toNat + 1 ≤ p.preamble := (Nat.succ_le_succ hx).trans p.preamble_ge
    obtain ⟨y', pin', rx', hp, hrx'⟩ := receive x y pin rx
      (packets.flatMap WirePacket.bits) p hpreamble hrx
    have hwhole : 8 ∣ rx'.bits.length := dvd_length_bits hrx hrx'
    obtain ⟨s, hrest, hhalt, hs⟩ := ih PREAMBLE_BITS_WITH_END y' pin' rx' (by decide)
      hwhole
    refine ⟨s, hp.trans hrest, hhalt, ?_⟩
    rw [hs, hrx', List.flatMap_cons, List.flatMap_append, List.append_assoc]

/-- **A run of the program.**  Started on a line of packets, the program ends up
waiting for more, with the frames of the packets shifted in. -/
theorem run_packets (packets : List WirePacket) :
    ∃ s, Steps dccDecoder (start (packets.flatMap WirePacket.bits)) s ∧
      step dccDecoder s = none ∧
      s.rx.bits = (packets.flatMap fun p => frame p.bytes).flatMap byteBits := by
  obtain ⟨s, hsteps, hhalt, hs⟩ :=
    receive_all PREAMBLE_BITS 0 true .empty packets le_rfl (dvd_zero 8)
  refine ⟨s, Relation.ReflTransGen.head rfl hsteps, hhalt, ?_⟩
  rw [hs, Rx.bits_empty, List.nil_append]

end Rp2040.Pio
