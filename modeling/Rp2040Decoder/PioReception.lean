/-
Packets through the PIO program, cycle by cycle.

Within a packet the program is back at a `wait` 33 cycles after a rising edge
and misses no bit.  Behind an end bit it may miss the first bits that follow; a
packet of three bytes or more costs it one at most, and a preamble of eleven
ones can spare that one.

* `clocks_bits`, `clocks_byte`, `clocks_packet` — the loops of the program;
* `Waits.receives` — one packet on the wire makes it shift in its frame;
* `lost_le_one` — how many bits go by behind it;
* `delivers_clocked` — a sequence of packets is delivered, whatever the lengths
  of the halves of its bits.
-/
import Rp2040Decoder.PioPreamble
import Rp2040Decoder.PioRead

namespace Rp2040.Pio

open Relation

/-- The cycles of the program. -/
abbrev Clocks : Clocked → Clocked → Prop := Cycles dccDecoder fun _ => True

def values (line : List TimedBit) : List Bool := line.map TimedBit.value

variable {n : ℕ} {t t' : Clocked} {x y : UInt32} {rx : Rx} {levels : List Bool}
  {line : List TimedBit}

theorem Hunts.clocks (h : Hunts t t') : Clocks t t' :=
  ReflTransGen.mono (fun _ _ hstep => ⟨trivial, hstep.2⟩) t t' h

/-- Another instruction. -/
theorem Clocks.exec {pc : ℕ} {i : Instr} {s : State} (h : Clocks t ⟨pc, x, y, rx, levels⟩)
    (hi : dccDecoder[pc]? = some i)
    (hexec : i.exec ⟨pc, x, y, levels.headD false, rx, []⟩ = some s) :
    Clocks t ⟨s.pc, s.x, s.y, s.rx, levels.drop 1⟩ :=
  h.trans (Cycles.exec (P := fun _ => True) hi trivial hexec)

/-- The rising edge of the bit before is `n` cycles back at most. -/
def Since (n : ℕ) (line : List TimedBit) (levels : List Bool) : Prop :=
  ∃ (b : TimedBit) (m : ℕ), m ≤ n ∧ levels = (List.replicate b.high true ++ wave line).drop m

theorem Since.next (h : Since n line levels) : Since (n + 1) line (levels.drop 1) := by
  obtain ⟨b, m, hm, rfl⟩ := h
  exact ⟨b, m + 1, Nat.succ_le_succ hm, List.drop_drop⟩

/-- Within forty cycles the program is in time for the next bit. -/
theorem Since.ready (h : Since n line levels) (hn : n < 40) : Ready line levels := by
  obtain ⟨b, m, hm, rfl⟩ := h
  have hhigh := b.high_ge
  exact ready_drop line (by omega)

/-! ### The loops of the program -/

/-- `read_packet_bit`: `y + 1` bits are shifted in, inverted. -/
theorem clocks_bits (x y : UInt32) (rx : Rx) {bs : List TimedBit} (hy : y.toNat + 1 = bs.length)
    (hready : Ready (bs ++ line) levels) :
    ∃ (y' : UInt32) (rx' : Rx) (levels' : List Bool),
      Clocks ⟨readPacketBit, x, y, rx, levels⟩ ⟨15, x, y', rx', levels'⟩ ∧
      Since 32 line levels' ∧ rx'.bits = rx.bits ++ (values bs).map (!·) := by
  induction bs generalizing y rx levels with
  | nil => cases hy
  | cons b bs ih =>
    have hbit : Clocks ⟨readPacketBit, x, y, rx, levels⟩
        ⟨13, x, y, rx, (List.replicate b.high true ++ wave (bs ++ line)).drop ZERO_DELAY⟩ :=
      Cycles.wait_bit (P := fun _ => True) rfl rfl trivial trivial hready
    have hexec : Instr.exec ⟨13, x, y, ((List.replicate b.high true ++ wave (bs ++ line)).drop
        ZERO_DELAY).headD false, rx, []⟩ (.shiftIn .pins 1) =
        some ⟨14, x, y, !b.value, rx.shift 1 (if !b.value then 1 else 0), []⟩ := by
      rw [pin_sampled]
      rfl
    have hin := hbit.exec rfl hexec
    have hbits := bits_shift_pin rx b.value
    have hsince : Since (ZERO_DELAY + 1 + 1) (bs ++ line) _ :=
      Since.next (Since.next ⟨b, ZERO_DELAY, le_rfl, rfl⟩)
    cases bs with
    | nil =>
      obtain rfl : y = 0 := UInt32.toNat_inj.mp (Nat.succ.inj hy)
      exact ⟨_, _, _, hin.exec rfl rfl, hsince, hbits⟩
    | cons b' bs =>
      have hy' : y.toNat = bs.length + 1 := Nat.succ.inj hy
      have hagain : Clocks _ ⟨readPacketBit, x, y - 1, rx.shift 1 (if !b.value then 1 else 0), _⟩ :=
        hin.exec rfl (Instr.exec_dec (by exact ne_zero_of_toNat hy'))
      obtain ⟨y', rx', levels', hrest, hnext, hrx'⟩ :=
        ih (y - 1) (rx.shift 1 (if !b.value then 1 else 0))
          (congrArg Nat.succ (toNat_sub_one hy')) (hsince.ready (by decide))
      refine ⟨y', rx', levels', hagain.trans hrest, hnext, ?_⟩
      rw [hrx', hbits, List.append_assoc]
      rfl

/-- `read_packet_byte`, up to the decrement of the padding register. -/
theorem clocks_byte (x y : UInt32) (rx : Rx) {b : UInt8} {bs : List TimedBit}
    (hbs : values bs = byteBits b) (hsince : Since 32 (bs ++ line) levels) :
    ∃ (y' : UInt32) (rx' : Rx) (levels' : List Bool),
      Clocks ⟨readPacketByte, x, y, rx, levels⟩ ⟨checkMoreData, x - 1, y', rx', levels'⟩ ∧
      Since 33 line levels' ∧ rx'.bits = rx.bits ++ byteBits (~~~b) := by
  have hlength : (7 : UInt32).toNat + 1 = bs.length := by
    have hlen := congrArg List.length hbs
    rw [values, List.length_map, length_byteBits] at hlen
    exact hlen.symm
  have hbyte : Clocks _ ⟨readPacketByte, x, y, rx, levels⟩ := ReflTransGen.refl
  have hset : Clocks _ ⟨readPacketBit, x, 7, rx, levels.drop 1⟩ := hbyte.exec rfl rfl
  obtain ⟨y', rx', levels', hread, hnext, hrx'⟩ :=
    clocks_bits x 7 rx hlength (hsince.next.ready (by decide))
  -- the jump goes to the next instruction, so it only decrements
  have hexec : Instr.exec ⟨15, x, y', levels'.headD false, rx', []⟩ (.jmp (.dec .x) checkMoreData) =
      some ⟨checkMoreData, x - 1, y', levels'.headD false, rx', []⟩ :=
    congrArg (fun pc => some (⟨pc, x - 1, y', levels'.headD false, rx', []⟩ : State)) (ite_self 16)
  have hall : Clocks _ ⟨15, x, y', rx', levels'⟩ := hset.trans hread
  refine ⟨y', rx', _, hall.exec rfl hexec, hnext.next, ?_⟩
  rw [hrx', hbs, byteBits_not]

/-- `check_more_data`: the bit behind a byte tells whether another one follows. -/
theorem clocks_check (x y : UInt32) (rx : Rx) {b : UInt8} {bs : List TimedBit} {c : TimedBit}
    (hbs : values bs = byteBits b) (hsince : Since 32 (bs ++ c :: line) levels) :
    ∃ (y' : UInt32) (rx' : Rx), Clocks ⟨readPacketByte, x, y, rx, levels⟩
      ⟨if c.value then 19 else readPacketByte, x - 1, y', rx',
        (List.replicate c.high true ++ wave line).drop (ZERO_DELAY + 1)⟩ ∧
      rx'.bits = rx.bits ++ byteBits (~~~b) := by
  obtain ⟨y', rx', levels', hread, hnext, hrx'⟩ :=
    clocks_byte x y rx hbs hsince
  exact ⟨y', rx', hread.trans (Cycles.jmp_bit (P := fun _ => True) rfl rfl rfl (fun _ _ => trivial)
    (hnext.ready (by decide))), hrx'⟩

theorem dataBits_eq (b : UInt8) (bs : List UInt8) :
    dataBits (b :: bs) = false :: (byteBits b ++ dataBits bs) := by
  have hcons := dataBits_cons b bs []
  rwa [List.append_nil, List.append_nil] at hcons

/-- The bytes of a packet up to its end bit, each of them taking one off the
padding register: here the hunt for the next preamble begins. -/
theorem clocks_packet (x y : UInt32) (rx : Rx) (b : UInt8) (bs : List UInt8) {data : List TimedBit}
    (hdata : values data = byteBits b ++ dataBits bs) (hsince : Since 32 (data ++ line) levels) :
    ∃ (y' : UInt32) (rx' : Rx) (e : TimedBit), e.value = true ∧
      Clocks ⟨readPacketByte, x, y, rx, levels⟩ ⟨19, x - UInt32.ofNat (bs.length + 1), y', rx',
        (List.replicate e.high true ++ wave line).drop (ZERO_DELAY + 1)⟩ ∧
      rx'.bits = rx.bits ++ ((b :: bs).map (~~~·)).flatMap byteBits := by
  induction bs generalizing b x y rx data levels with
  | nil =>
    obtain ⟨byte, rest, rfl, hbyte, hrest⟩ := List.map_eq_append_iff.mp hdata
    obtain ⟨e, l, rfl, he, hl⟩ := List.map_eq_cons_iff.mp hrest
    obtain rfl := List.map_eq_nil_iff.mp hl
    rw [List.append_assoc] at hsince
    obtain ⟨y', rx', hend, hrx'⟩ := clocks_check x y rx hbyte hsince
    rw [if_pos he] at hend
    refine ⟨y', rx', e, he, hend, ?_⟩
    rw [hrx', List.map_singleton, List.flatMap_singleton]
  | cons b' bs ih =>
    obtain ⟨byte, rest, rfl, hbyte, hrest⟩ := List.map_eq_append_iff.mp hdata
    rw [dataBits_eq] at hrest
    obtain ⟨c, data', rfl, hc, hdata'⟩ := List.map_eq_cons_iff.mp hrest
    rw [List.append_assoc] at hsince
    obtain ⟨y', rx', hmore, hrx'⟩ := clocks_check x y rx hbyte hsince
    rw [hc] at hmore
    obtain ⟨y'', rx'', e, he, hrest', hrx''⟩ := ih (x - 1) y' rx' b' hdata'
      ⟨c, ZERO_DELAY + 1, by decide, rfl⟩
    have hcount : x - 1 - UInt32.ofNat (bs.length + 1) = x - UInt32.ofNat (bs.length + 1 + 1) := by
      have hone : UInt32.ofNat (bs.length + 1 + 1) = UInt32.ofNat (bs.length + 1) + 1 :=
        UInt32.ofNat_add _ _
      grind
    rw [hcount] at hrest'
    refine ⟨y'', rx'', e, he, hmore.trans hrest', ?_⟩
    rw [hrx'', hrx', List.append_assoc, ← List.flatMap_cons, ← List.map_cons]

/-! ### Packets through the program -/

/-- Ones before a packet are counted. -/
theorem Waits.ones {pre : List TimedBit} (h : Waits n (pre ++ line) t)
    (hpre : ∀ b ∈ pre, b.value = true) :
    ∃ t', Hunts t t' ∧ Waits (n + pre.length) line t' ∧ t'.rx = t.rx := by
  induction pre generalizing n t with
  | nil => exact ⟨t, ReflTransGen.refl, h, rfl⟩
  | cons b pre ih =>
    obtain ⟨hb, hpre⟩ := List.forall_mem_cons.mp hpre
    obtain ⟨t₁, hhunts, hwaits, hrx⟩ := h.one hb
    obtain ⟨t', hhunts', hwaits', hrx'⟩ := ih hwaits hpre
    refine ⟨t', hhunts.trans hhunts', ?_, hrx'.trans hrx⟩
    rw [List.length_cons, Nat.add_comm pre.length 1, ← Nat.add_assoc]
    exact hwaits'

/-- **One packet.**  Behind eleven ones that it counts, the program shifts in the
packet's frame and waits for the first bit that has not gone by meanwhile. -/
theorem Waits.receives {bytes : List UInt8} {pre data : List TimedBit}
    (h : Waits n (pre ++ (data ++ line)) t) (hpre : ∀ b ∈ pre, b.value = true)
    (hn : 11 ≤ n + pre.length) (hbytes : bytes ≠ []) (hdata : values data = dataBits bytes) :
    ∃ (t' : Clocked) (e : TimedBit), Clocks t t' ∧
      Waits 1 (line.drop (lost (backAtWait (padding bytes.length) - e.high) line)) t' ∧
      (8 ∣ t.rx.bits.length → t'.rx.bits = t.rx.bits ++ (frame bytes).flatMap byteBits) := by
  obtain ⟨b, bs, rfl⟩ := List.exists_cons_of_ne_nil hbytes
  rw [dataBits_eq] at hdata
  obtain ⟨z, data', rfl, hz, hdata'⟩ := List.map_eq_cons_iff.mp hdata
  obtain ⟨t₁, hones, hwaits, hrx₁⟩ := h.ones hpre
  obtain ⟨x, y, hzero⟩ := hwaits.zero hz hn
  have hstart : Clocks t ⟨packet, x, y, t₁.rx, _⟩ := Hunts.clocks (hones.trans hzero)
  have hset : Clocks t ⟨readPacketByte, 7, y, t₁.rx, _⟩ := hstart.exec rfl rfl
  obtain ⟨y', rx', e, -, hread, hrx'⟩ := clocks_packet 7 y t₁.rx b bs hdata'
    (Since.next ⟨z, ZERO_DELAY + 1, le_rfl, rfl⟩)
  obtain ⟨t', hpad, hwaits', hbits'⟩ := hunts_endBit (padding (bs.length + 1)) y' rx' e line
  refine ⟨t', e, (hset.trans hread).trans hpad.clocks, hwaits', fun hrx => ?_⟩
  rw [hrx₁] at hrx'
  have hwhole : 8 ∣ rx'.bits.length := dvd_length_bits hrx hrx'
  simp only [hbits' hwhole, hrx', frame, List.flatMap_append, List.append_assoc, List.length_cons]

theorem lost_le_one {k : ℕ} (hk : k < 60) (line : List TimedBit) : lost k line ≤ 1 := by
  cases line with
  | nil => exact Nat.zero_le 1
  | cons b line =>
    have hlow := b.low_ge
    have hhigh := b.high_ge
    rw [lost]
    split
    · exact Nat.zero_le 1
    · rw [lost_of_lt (by omega)]

/-- Behind a packet of three to seven bytes one bit goes by at most. -/
theorem lost_behind_le {bytes : List UInt8} (hlen : 3 ≤ bytes.length ∧ bytes.length ≤ 7)
    (e : TimedBit) (line : List TimedBit) :
    lost (backAtWait (padding bytes.length) - e.high) line ≤ 1 := by
  have hpadding := toNat_padding bytes.length
  refine lost_le_one ?_ line
  rw [backAtWait]
  omega

/-- The preamble of a packet, its bytes and the packets that follow, when a bit
of the preamble has gone by. -/
theorem exists_parts {p : WirePacket} {packets : List WirePacket} {k : ℕ} (hk : k ≤ 1)
    (hline : values line = ((p :: packets).flatMap WirePacket.bits).drop k) :
    ∃ pre data rest, line = pre ++ (data ++ rest) ∧ (∀ b ∈ pre, b.value = true) ∧
      p.preamble = pre.length + k ∧ values data = dataBits p.bytes ∧
      values rest = packets.flatMap WirePacket.bits := by
  have hge := p.preamble_ge
  have hparts : ((p :: packets).flatMap WirePacket.bits).drop k =
      List.replicate (p.preamble - k) true ++
        (dataBits p.bytes ++ packets.flatMap WirePacket.bits) := by
    rw [List.flatMap_cons, WirePacket.bits, List.append_assoc,
      List.drop_append_of_le_length (by rw [List.length_replicate]; omega), List.drop_replicate]
  rw [hparts] at hline
  obtain ⟨pre, line', rfl, hpre, hline'⟩ := List.map_eq_append_iff.mp hline
  obtain ⟨data, rest, rfl, hdata, hrest⟩ := List.map_eq_append_iff.mp hline'
  have hlength := congrArg List.length hpre
  rw [List.length_map, List.length_replicate] at hlength
  refine ⟨pre, data, rest, rfl, fun b hb => ?_, by omega, hdata, hrest⟩
  have hmem : b.value ∈ pre.map TimedBit.value := List.mem_map_of_mem hb
  rw [hpre] at hmem
  exact List.eq_of_mem_replicate hmem

/-- The packets that follow, when a bit of the first preamble may have gone by. -/
theorem Waits.receives_all {packets : List WirePacket}
    (hlen : ∀ p ∈ packets, 3 ≤ p.bytes.length ∧ p.bytes.length ≤ 7) {k : ℕ} (h : Waits n line t)
    (hk : k ≤ 1) (hkn : k ≤ n) (hline : values line = (packets.flatMap WirePacket.bits).drop k) :
    ∃ (t' : Clocked) (n' : ℕ), Clocks t t' ∧ Waits n' [] t' ∧
      (8 ∣ t.rx.bits.length → t'.rx.bits =
        t.rx.bits ++ (packets.flatMap fun p => frame p.bytes).flatMap byteBits) := by
  induction packets generalizing n k line t with
  | nil =>
    rw [List.flatMap_nil, List.drop_nil] at hline
    obtain rfl := List.map_eq_nil_iff.mp hline
    exact ⟨t, n, ReflTransGen.refl, h, fun _ => (List.append_nil _).symm⟩
  | cons p packets ih =>
    obtain ⟨hp, hlen⟩ := List.forall_mem_cons.mp hlen
    obtain ⟨pre, data, rest, rfl, hpre, hpreamble, hdata, hrest⟩ := exists_parts hk hline
    have hge := p.preamble_ge
    obtain ⟨t₁, e, hclocks, hwaits, hbits⟩ :=
      h.receives hpre (by omega) p.bytes_ne hdata
    -- the end bit makes up for the bit that goes by behind it
    have hlost := lost_behind_le hp e rest
    have hnext : values (rest.drop (lost (backAtWait (padding p.bytes.length) - e.high) rest)) =
        (packets.flatMap WirePacket.bits).drop
          (lost (backAtWait (padding p.bytes.length) - e.high) rest) := by
      rw [← hrest, values, values, List.map_drop]
    obtain ⟨t', n', hclocks', hwaits', hbits'⟩ := ih hlen hwaits hlost hlost hnext
    refine ⟨t', n', hclocks.trans hclocks', hwaits', fun hrx => ?_⟩
    have hwhole : 8 ∣ t₁.rx.bits.length := dvd_length_bits hrx (hbits hrx)
    rw [hbits' hwhole, hbits hrx, List.flatMap_cons, List.flatMap_append, List.append_assoc]

/-- **Packets on the wire, cycle by cycle.**  Packets of three to seven bytes
are delivered, one read each, whatever the lengths of the halves of their bits;
behind the last the program waits for more. -/
theorem delivers_clocked {packets : List WirePacket}
    (hlen : ∀ p ∈ packets, 3 ≤ p.bytes.length ∧ p.bytes.length ≤ 7)
    (hline : values line = packets.flatMap WirePacket.bits) :
    ∃ (t : Clocked) (n : ℕ), Clocks (startClocked line) t ∧ Waits n [] t ∧
      reads t.rx.words = packets.map WirePacket.bytes := by
  obtain ⟨t₁, hhunts, hwaits, hrx₁⟩ := hunts_newPreamble 0 0 .empty 0 line
  obtain ⟨t, n, hclocks, hend, hbits⟩ :=
    hwaits.receives_all hlen (Nat.zero_le 1) le_rfl (hline.trans List.drop_zero.symm)
  refine ⟨t, n, hhunts.clocks.trans hclocks, hend, ?_⟩
  rw [hrx₁, Rx.bits_empty] at hbits
  have hshort : ∀ p ∈ packets, p.bytes.length ≤ 7 := fun p hp => (hlen p hp).2
  have hlength := length_frames_of_le hshort
  exact reads_frames hshort
    (words_of_bits (n := 2 * packets.length) (hbits (dvd_zero 8)) (by omega))

/-- Halves of 58 µs for a one and of 100 µs for a zero. -/
def timedBit (b : Bool) : TimedBit := if b then oneBit else zeroBit

theorem values_timedBit (bits : List Bool) : values (bits.map timedBit) = bits := by
  rw [values, List.map_map]
  refine (List.map_congr_left fun b _ => ?_).trans (List.map_id bits)
  cases b <;> rfl

end Rp2040.Pio
