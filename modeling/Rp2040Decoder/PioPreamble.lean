/-
The preamble that the PIO program asks for, cycle by cycle.

The counter of ones is tested before it is decremented, so a register that is
set to `n` asks for `n + 1` ones: eleven from `new_preamble`, and ten more
after an end bit.  Behind an end bit the padding comes first, and its rising
edge is 36 cycles back, and three more for each byte of padding, when the
program waits again.  Behind a packet of three bytes that makes 120 µs, and a
one whose halves last 58 µs has gone by.

* `hunt` — on which zero of the line the program starts a packet;
* `Waits.startsPacket_iff` — the program does what `hunt` says;
* `Entry.waits` — where it waits behind either entry, and what has gone by;
* `startsPacket_iff` — it starts on the first zero for which it counts eleven
  ones;
* `recognizes_iff` — so it starts on a zero with ten ones before it as it
  should, if and only if it counts eleven for the first of them.
-/
import Rp2040Decoder.PioCycles

namespace Rp2040.Pio

open Relation

/-! ### Hunting for a preamble -/

/-- At these addresses the program is not reading a packet. -/
def Hunting (pc : ℕ) : Prop := pc < packet ∨ 19 ≤ pc

/-- The states it goes through until it reads a packet. -/
abbrev Hunts : Clocked → Clocked → Prop := Cycles dccDecoder Hunting

/-- It starts to read a packet in the high half of a bit, with the bits `rest`
to come. -/
def StartsPacket (t : Clocked) (rest : List TimedBit) : Prop :=
  ∃ x y rx high, Hunts t ⟨packet, x, y, rx, List.replicate high true ++ wave rest⟩

/-- When the program waits again, in cycles from the rising edge of the end bit:
it reaches `mov y, x` after 31, and the padding takes `3 * x + 1`. -/
def backAtWait (x : UInt32) : ℕ := 36 + 3 * x.toNat

/-- Where the hunt begins on a line, how many ones count as received, and how
many bits go by before the first `wait`. -/
inductive Entry (line : List TimedBit) : ℕ → ℕ → Clocked → Prop
  | newPreamble {x y : UInt32} {rx : Rx} (high : ℕ) :
      Entry line 0 0 ⟨newPreamble, x, y, rx, List.replicate high true ++ wave line⟩
  /-- the bit was a one, and the padding follows -/
  | endBit {x y : UInt32} {rx : Rx} {b : TimedBit} : b.value = true →
      Entry line 1 (lost (backAtWait x - b.high) line)
        ⟨19, x, y, rx, (List.replicate b.high true ++ wave line).drop (ZERO_DELAY + 1)⟩

/-- Bit `i` is a zero. -/
def ZeroAt (bits : List TimedBit) (i : ℕ) : Prop := ∃ b, bits[i]? = some b ∧ b.value = false

/-- The ones at the end of the bits, after `n` ones. -/
def ones (n : ℕ) (bits : List TimedBit) : ℕ :=
  bits.foldl (fun n b => if b.value then n + 1 else 0) n

/-- The ones directly before bit `i` that the program counts when `k` bits have
gone by; it does not see a bit that has gone by itself. -/
def counted (n k : ℕ) (line : List TimedBit) (i : ℕ) : ℕ :=
  if k ≤ i then ones n ((line.take i).drop k) else 0

/-- The program starts a packet on a zero exactly if ten ones come before it,
as long as it has not started one. -/
def Recognizes (n : ℕ) (line : List TimedBit) (t : Clocked) : Prop :=
  ∀ i, ZeroAt line i →
    (∀ j < i, ZeroAt line j → ¬ StartsPacket t (line.drop (j + 1))) →
    (StartsPacket t (line.drop (i + 1)) ↔ 10 ≤ ones n (line.take i))

/-- Of the ones before the first zero with ten of them, more than ten are
counted where `k` bits go by. -/
def MoreThanTen (n k : ℕ) (line : List TimedBit) : Prop :=
  ∀ i, ZeroAt line i → (∀ j < i, ZeroAt line j → ones n (line.take j) < 10) →
    10 ≤ ones n (line.take i) → 10 < counted n k line i

/-! ### The hunt, bit by bit -/

/-- The zero on which the program starts a packet, after `n` ones. -/
def hunt : ℕ → List TimedBit → Option ℕ
  | _, [] => none
  | n, b :: line =>
    if b.value then (hunt (n + 1) line).map (· + 1)
    else if 11 ≤ n then some 0 else (hunt 0 line).map (· + 1)

/-- The zero is one of the line. -/
theorem lt_of_hunt {n i : ℕ} {line : List TimedBit} (h : hunt n line = some i) :
    i < line.length := by
  induction line generalizing n i with
  | nil => cases h
  | cons b line ih =>
    rw [List.length_cons]
    rw [hunt] at h
    split at h
    · obtain ⟨j, hj, rfl⟩ := Option.map_eq_some_iff.mp h
      exact Nat.succ_lt_succ (ih hj)
    · split at h
      · rw [← Option.some.inj h]
        exact Nat.succ_pos _
      · obtain ⟨j, hj, rfl⟩ := Option.map_eq_some_iff.mp h
        exact Nat.succ_lt_succ (ih hj)

/-- The program waits for the first bit of the line, with `n` ones before it. -/
inductive Waits (n : ℕ) (line : List TimedBit) : Clocked → Prop
  | candidate {x y : UInt32} {rx : Rx} {levels : List Bool} : x.toNat + n = 10 →
      Ready line levels → Waits n line ⟨preambleCandidate, x, y, rx, levels⟩
  | packetStart {x y : UInt32} {rx : Rx} {levels : List Bool} : 11 ≤ n →
      Ready line levels → Waits n line ⟨packetStart, x, y, rx, levels⟩

variable {n k i : ℕ} {t t' : Clocked} {b : TimedBit} {line rest : List TimedBit}

/-- Another instruction of the hunt. -/
theorem Hunts.exec {pc : ℕ} {x y : UInt32} {rx : Rx} {levels : List Bool} {instr : Instr}
    {s : State} (h : Hunts t ⟨pc, x, y, rx, levels⟩) (hi : dccDecoder[pc]? = some instr)
    (hexec : instr.exec ⟨pc, x, y, levels.headD false, rx, []⟩ = some s)
    (hpc : pc < packet ∨ 19 ≤ pc) :
    Hunts t ⟨s.pc, s.x, s.y, s.rx, levels.drop 1⟩ :=
  h.trans (Cycles.exec hi hpc hexec)

/-- The hunt tells a bit at either `wait` pair. -/
theorem hunts_bit (x y : UInt32) (rx : Rx) {pc target : ℕ} {levels : List Bool}
    (hpc : pc = preambleCandidate ∧ target = newPreamble ∨ pc = packetStart ∧ target = packet)
    (hready : Ready (b :: line) levels) :
    Hunts ⟨pc, x, y, rx, levels⟩ ⟨if b.value then pc + 3 else target, x, y, rx,
      (List.replicate b.high true ++ wave line).drop (ZERO_DELAY + 1)⟩ := by
  have hunting : ∀ i ≤ 2, Hunting (pc + i) := by
    rcases hpc with ⟨rfl, -⟩ | ⟨rfl, -⟩
    all_goals
      intro i hi
      exact Or.inl (Nat.lt_of_le_of_lt (Nat.add_le_add_left hi _) (by decide))
  rcases hpc with ⟨rfl, rfl⟩ | ⟨rfl, rfl⟩
  · exact Cycles.jmp_bit rfl rfl rfl hunting hready
  · exact Cycles.jmp_bit rfl rfl rfl hunting hready

/-- Two cycles after the delay the program is in time for the next bit. -/
theorem ready_next (b : TimedBit) (line : List TimedBit) : Ready line
    (((List.replicate b.high true ++ wave line).drop (ZERO_DELAY + 1)).drop 1) := by
  have hhigh := b.high_ge
  rw [List.drop_drop]
  exact ready_drop line (by simp only [ZERO_DELAY]; omega)

/-- A one: the counter is decremented, or found to be zero. -/
theorem Waits.one (h : Waits n (b :: line) t) (hb : b.value = true) :
    ∃ t', Hunts t t' ∧ Waits (n + 1) line t' ∧ t'.rx = t.rx := by
  cases h with
  | @candidate x y rx levels hx hready =>
    have hone := hunts_bit x y rx (Or.inl ⟨rfl, rfl⟩) hready
    rw [if_pos hb] at hone
    by_cases hx0 : x = 0
    · subst hx0
      have hn : n = 10 := by simpa using hx
      exact ⟨_, hone.exec rfl rfl (by decide), .packetStart (by omega) (ready_next b line), rfl⟩
    · have hpos : 0 < x.toNat := Nat.pos_of_ne_zero fun h0 => hx0 (UInt32.toNat_inj.mp h0)
      have hdec : (x - 1).toNat = x.toNat - 1 := toNat_sub_one (by omega)
      exact ⟨_, hone.exec rfl (Instr.exec_dec (by exact hx0)) (by decide),
        .candidate (show (x - 1).toNat + (n + 1) = 10 by omega) (ready_next b line), rfl⟩
  | @packetStart x y rx levels hn hready =>
    have hone := hunts_bit x y rx (Or.inr ⟨rfl, rfl⟩) hready
    rw [if_pos hb] at hone
    exact ⟨_, hone.exec rfl rfl (by decide), .packetStart (by omega) (ready_next b line), rfl⟩

/-- A zero too early: the hunt starts over. -/
theorem Waits.restart (h : Waits n (b :: line) t) (hb : b.value = false) (hn : n < 11) :
    ∃ t', Hunts t t' ∧ Waits 0 line t' := by
  cases h with
  | @candidate x y rx levels hx hready =>
    have hzero := hunts_bit x y rx (Or.inl ⟨rfl, rfl⟩) hready
    rw [hb] at hzero
    exact ⟨_, hzero.exec rfl rfl (by decide), .candidate rfl (ready_next b line)⟩
  | packetStart hn' => omega

/-- The zero that starts a packet. -/
theorem Waits.zero (h : Waits n (b :: line) t) (hb : b.value = false) (hn : 11 ≤ n) :
    ∃ x y, Hunts t ⟨packet, x, y, t.rx,
      (List.replicate b.high true ++ wave line).drop (ZERO_DELAY + 1)⟩ := by
  cases h with
  | candidate hx => omega
  | @packetStart x y rx levels hn' hready =>
    have hzero := hunts_bit x y rx (Or.inr ⟨rfl, rfl⟩) hready
    rw [hb] at hzero
    exact ⟨_, _, hzero⟩

theorem Waits.start (h : Waits n (b :: line) t) (hb : b.value = false) (hn : 11 ≤ n) :
    StartsPacket t line := by
  obtain ⟨x, y, hzero⟩ := h.zero hb hn
  have hhigh := TimedBit.high_ge_of_zero hb
  have hgone : ZERO_DELAY + 1 - b.high = 0 := by simp only [ZERO_DELAY]; omega
  rw [drop_high, hgone, List.drop_zero] at hzero
  exact ⟨_, _, _, _, hzero⟩

/-! ### The program against `hunt` -/

theorem hunts_unique : Relator.RightUnique fun t t' =>
    Hunting t.pc ∧ cycle dccDecoder t = some t' := by
  rintro t t₁ t₂ ⟨-, h₁⟩ ⟨-, h₂⟩
  exact Option.some.inj (h₁.symm.trans h₂)

/-- The hunt ends where the program starts a packet. -/
theorem eq_of_hunts {x y : UInt32} {rx : Rx} {levels : List Bool}
    (h : Hunts ⟨packet, x, y, rx, levels⟩ t) : t = ⟨packet, x, y, rx, levels⟩ := by
  rcases ReflTransGen.cases_head h with rfl | ⟨_, ⟨hpc | hpc, -⟩, -⟩
  · rfl
  · exact absurd hpc (Nat.lt_irrefl packet)
  · exact absurd hpc (show ¬ 19 ≤ packet by decide)

theorem startsPacket_iff_of_hunts (h : Hunts t t') :
    StartsPacket t rest ↔ StartsPacket t' rest := by
  constructor
  · rintro ⟨x, y, rx, high, hstart⟩
    rcases ReflTransGen.total_of_right_unique hunts_unique h hstart with ht' | ht'
    · exact ⟨x, y, rx, high, ht'⟩
    · rw [eq_of_hunts ht']
      exact ⟨x, y, rx, high, ReflTransGen.refl⟩
  · rintro ⟨x, y, rx, high, hstart⟩
    exact ⟨x, y, rx, high, h.trans hstart⟩

/-- Where the pin stays low, a `wait 1` is for ever. -/
theorem eq_of_hunts_wait {pc : ℕ} {x y : UInt32} {rx : Rx}
    (hi : dccDecoder[pc]? = some (.wait true)) (h : Hunts ⟨pc, x, y, rx, []⟩ t) :
    t = ⟨pc, x, y, rx, []⟩ := by
  induction h with
  | refl => rfl
  | tail _ hstep ih =>
    rw [ih, cycle, hi] at hstep
    exact (Option.some.inj hstep.2).symm

/-- At the end of the line there is no bit to come. -/
theorem not_startsPacket_of_nil {pc : ℕ} {x y : UInt32} {rx : Rx} {levels : List Bool}
    (hlow : dccDecoder[pc]? = some (.wait false)) (hhigh : dccDecoder[pc + 1]? = some (.wait true))
    (hpc : pc + 1 < packet) (hready : Ready [] levels) :
    ¬ StartsPacket ⟨pc, x, y, rx, levels⟩ rest := by
  obtain ⟨high, gone, rfl, -⟩ := hready
  rw [wave_nil, List.drop_nil]
  have hfall : Hunts ⟨pc, x, y, rx, List.replicate high true ++ []⟩ ⟨pc, x, y, rx, []⟩ :=
    Cycles.wait_other hlow (Or.inl (Nat.lt_of_succ_lt hpc)) high []
  have hlast : Hunts ⟨pc, x, y, rx, List.replicate high true ++ []⟩ ⟨pc + 1, x, y, rx, []⟩ :=
    hfall.trans (Cycles.wait_over hlow (Or.inl (Nat.lt_of_succ_lt hpc)) rfl)
  rw [startsPacket_iff_of_hunts hlast]
  rintro ⟨x', y', rx', high', hstart⟩
  have hpacket : packet = pc + 1 := congrArg Clocked.pc (eq_of_hunts_wait hhigh hstart)
  omega

theorem Waits.not_startsPacket (h : Waits n [] t) : ¬ StartsPacket t rest := by
  cases h with
  | candidate _ hready => exact not_startsPacket_of_nil rfl rfl (by decide) hready
  | packetStart _ hready => exact not_startsPacket_of_nil rfl rfl (by decide) hready

/-- The program does what `hunt` says. -/
theorem Waits.startsPacket_of_hunt (h : Waits n line t) (hi : hunt n line = some i) :
    StartsPacket t (line.drop (i + 1)) := by
  induction line generalizing n t i with
  | nil => cases hi
  | cons b line ih =>
    rw [hunt] at hi
    split at hi
    · rename_i hb
      obtain ⟨t', hhunts, hwaits, -⟩ := h.one hb
      obtain ⟨j, hj, rfl⟩ := Option.map_eq_some_iff.mp hi
      exact (startsPacket_iff_of_hunts hhunts).mpr (ih hwaits hj)
    · rename_i hb
      split at hi
      · rename_i hn
        obtain rfl := Option.some.inj hi
        exact h.start (Bool.eq_false_of_not_eq_true hb) hn
      · rename_i hn
        obtain ⟨t', hhunts, hwaits⟩ := h.restart (Bool.eq_false_of_not_eq_true hb) (by omega)
        obtain ⟨j, hj, rfl⟩ := Option.map_eq_some_iff.mp hi
        exact (startsPacket_iff_of_hunts hhunts).mpr (ih hwaits hj)

theorem Waits.not_startsPacket_of_hunt (h : Waits n line t) (hi : hunt n line = none) :
    ¬ StartsPacket t rest := by
  induction line generalizing n t with
  | nil => exact h.not_startsPacket
  | cons b line ih =>
    rw [hunt] at hi
    split at hi
    · rename_i hb
      obtain ⟨t', hhunts, hwaits, -⟩ := h.one hb
      rw [startsPacket_iff_of_hunts hhunts]
      exact ih hwaits (Option.map_eq_none_iff.mp hi)
    · rename_i hb
      split at hi
      · cases hi
      · rename_i hn
        obtain ⟨t', hhunts, hwaits⟩ := h.restart (Bool.eq_false_of_not_eq_true hb) (by omega)
        rw [startsPacket_iff_of_hunts hhunts]
        exact ih hwaits (Option.map_eq_none_iff.mp hi)

/-! ### Which bits are still to come -/

/-- The low cycles of the bits to come tell how many bits they are. -/
theorem count_wave_drop_lt {bits : List TimedBit} {i j : ℕ} (hij : i < j) (hj : j ≤ bits.length) :
    (wave (bits.drop j)).count false < (wave (bits.drop i)).count false := by
  have hdrop : bits.drop i = bits[i] :: bits.drop (i + 1) :=
    List.drop_eq_getElem_cons (Nat.lt_of_lt_of_le hij hj)
  have hsplit : bits.drop (i + 1) = (bits.drop (i + 1)).take (j - (i + 1)) ++ bits.drop j := by
    conv_lhs => rw [← List.take_append_drop (j - (i + 1)) (bits.drop (i + 1)), List.drop_drop,
      Nat.add_sub_cancel' hij]
  have hwave : wave (bits.drop (i + 1)) =
      wave ((bits.drop (i + 1)).take (j - (i + 1))) ++ wave (bits.drop j) := by
    conv_lhs => rw [hsplit, wave, List.flatMap_append, ← wave, ← wave]
  have hlow := bits[i].low_ge
  rw [hdrop, wave_cons, List.count_append, List.count_append, List.count_replicate_self, hwave,
    List.count_append]
  omega

theorem count_high (high : ℕ) (levels : List Bool) :
    (List.replicate high true ++ levels).count false = levels.count false := by
  rw [List.count_append, List.count_replicate, if_neg (by decide), Nat.zero_add]

/-- A program that started a packet has not started another one. -/
theorem StartsPacket.unique {i j : ℕ} (hi : i ≤ line.length) (hj : j ≤ line.length)
    (h : StartsPacket t (line.drop i)) (h' : StartsPacket t (line.drop j)) : i = j := by
  obtain ⟨x, y, rx, high, hstart⟩ := h
  obtain ⟨x', y', rx', high', hstart'⟩ := (startsPacket_iff_of_hunts hstart).mp h'
  have hlevels : List.replicate high' true ++ wave (line.drop j) =
      List.replicate high true ++ wave (line.drop i) :=
    congrArg Clocked.levels (eq_of_hunts hstart')
  have hcount := congrArg (List.count false) hlevels
  rw [count_high, count_high] at hcount
  rcases Nat.lt_trichotomy i j with hlt | heq | hgt
  · exact absurd hcount (count_wave_drop_lt hlt hj).ne
  · exact heq
  · exact absurd hcount (count_wave_drop_lt hgt hi).ne'

/-- Where the program waits for the bits behind the first `k`, it starts a
packet on the zero that `hunt` finds among them. -/
theorem Waits.startsPacket_iff (h : Waits n (line.drop k) t) (hi : i < line.length) :
    StartsPacket t (line.drop (i + 1)) ↔ ∃ j, hunt n (line.drop k) = some j ∧ i = k + j := by
  cases hhunt : hunt n (line.drop k) with
  | none =>
    refine iff_of_false (h.not_startsPacket_of_hunt hhunt) ?_
    rintro ⟨j, hj, -⟩
    cases hj
  | some j =>
    have hstart := h.startsPacket_of_hunt hhunt
    have hlt := lt_of_hunt hhunt
    rw [List.length_drop] at hlt
    rw [List.drop_drop] at hstart
    constructor
    · intro hs
      have heq := hs.unique hi (by omega) hstart
      exact ⟨j, rfl, by omega⟩
    · rintro ⟨j', hj', rfl⟩
      obtain rfl := Option.some.inj hj'
      exact hstart

/-! ### The ones before a zero -/

theorem zeroAt_cons_zero : ZeroAt (b :: line) 0 ↔ b.value = false :=
  ⟨fun ⟨_, hb, hv⟩ => Option.some.inj hb ▸ hv, fun hv => ⟨b, rfl, hv⟩⟩

theorem zeroAt_cons_succ : ZeroAt (b :: line) (i + 1) ↔ ZeroAt line i := Iff.rfl

theorem zeroAt_drop : ZeroAt (line.drop k) i ↔ ZeroAt line (k + i) := by
  rw [ZeroAt, ZeroAt, List.getElem?_drop]

theorem ZeroAt.lt (h : ZeroAt line i) : i < line.length := by
  obtain ⟨b, hb, -⟩ := h
  exact (List.getElem?_eq_some_iff.mp hb).1

theorem ones_cons (n : ℕ) (b : TimedBit) (line : List TimedBit) :
    ones n (b :: line) = ones (if b.value then n + 1 else 0) line := rfl

/-- Ones in front count for a run that reaches back to them, and for no other. -/
theorem ones_le (n m : ℕ) (bits : List TimedBit) : ones n bits ≤ ones m bits + (n - m) := by
  induction bits generalizing n m with
  | nil => exact Nat.sub_le_iff_le_add'.mp le_rfl
  | cons b bits ih =>
    rw [ones_cons, ones_cons]
    split
    · exact (ih (n + 1) (m + 1)).trans (by omega)
    · exact Nat.le_add_right _ _

/-- What the program counts are ones before the zero, the end bit perhaps too
many. -/
theorem counted_le (n k : ℕ) (line : List TimedBit) (i : ℕ) :
    counted n k line i ≤ ones n (line.take i) + n := by
  rw [counted]
  split
  · have hsplit : ones n (line.take i) = ones (ones n ((line.take i).take k))
        ((line.take i).drop k) := by
      rw [ones, ones, ones, ← List.foldl_append, List.take_append_drop]
    rw [hsplit]
    exact (ones_le n (ones n ((line.take i).take k)) _).trans (by omega)
  · exact Nat.zero_le _

theorem map_succ_eq_some {o : Option ℕ} : o.map (· + 1) = some (i + 1) ↔ o = some i := by
  rw [Option.map_eq_some_iff]
  constructor
  · rintro ⟨j, hj, hij⟩
    rw [hj, Nat.succ.inj hij]
  · intro hi
    exact ⟨i, hi, rfl⟩

theorem map_succ_ne_zero {o : Option ℕ} : o.map (· + 1) ≠ some 0 := by
  intro h
  obtain ⟨j, -, hj⟩ := Option.map_eq_some_iff.mp h
  exact Nat.succ_ne_zero j hj

/-- The hunt ends on the first zero with eleven ones before it. -/
theorem hunt_eq_some_iff : hunt n line = some i ↔
    ZeroAt line i ∧ 11 ≤ ones n (line.take i) ∧
      ∀ j < i, ZeroAt line j → ones n (line.take j) < 11 := by
  induction line generalizing n i with
  | nil =>
    refine iff_of_false (fun h => ?_) fun h => ?_
    · cases h
    · exact absurd h.1.lt (Nat.not_lt_zero i)
  | cons b line ih =>
    rw [hunt]
    cases i with
    | zero =>
      rw [zeroAt_cons_zero]
      cases hb : b.value with
      | true => exact iff_of_false map_succ_ne_zero fun h => Bool.noConfusion h.1
      | false =>
        rw [if_neg Bool.false_ne_true]
        split
        · rename_i hn
          exact iff_of_true rfl ⟨rfl, hn, fun j hj => absurd hj (Nat.not_lt_zero j)⟩
        · rename_i hn
          exact iff_of_false map_succ_ne_zero fun h => hn h.2.1
    | succ i =>
      rw [Nat.forall_lt_succ_left, zeroAt_cons_zero, zeroAt_cons_succ]
      simp only [zeroAt_cons_succ, List.take_succ_cons, ones_cons]
      cases hb : b.value with
      | true =>
        rw [if_pos rfl, if_pos rfl, map_succ_eq_some, ih]
        exact and_congr_right fun _ => and_congr_right fun _ =>
          ⟨fun h => ⟨fun h' => Bool.noConfusion h', h⟩, fun h => h.2⟩
      | false =>
        rw [if_neg Bool.false_ne_true, if_neg Bool.false_ne_true]
        split
        · rename_i hn
          refine iff_of_false (fun h => ?_) fun h => ?_
          · exact Nat.succ_ne_zero i (Option.some.inj h).symm
          · exact absurd hn (Nat.not_le.mpr (h.2.2.1 rfl))
        · rename_i hn
          rw [map_succ_eq_some, ih]
          exact and_congr_right fun _ => and_congr_right fun _ =>
            ⟨fun h => ⟨fun _ => Nat.not_le.mp hn, h⟩, fun h => h.2⟩

/-! ### The two entries -/

/-- Three instructions for each byte of padding, and the jump behind it. -/
theorem hunts_padding {m : ℕ} (x y : UInt32) (rx : Rx) (levels : List Bool) (hx : x.toNat = m) :
    ∃ x' rx', Hunts ⟨paddingLoop, x, y, rx, levels⟩
        ⟨paddingDone, x', y, rx', levels.drop (3 * m + 1)⟩ ∧
      (8 ∣ rx.bits.length → rx'.bits = rx.bits ++ (List.replicate m 0).flatMap byteBits) := by
  induction m generalizing x rx levels with
  | zero =>
    obtain rfl : x = 0 := UInt32.toNat_inj.mp hx
    have hloop : Hunts _ ⟨paddingLoop, 0, y, rx, levels⟩ := ReflTransGen.refl
    exact ⟨0, rx, hloop.exec rfl rfl (by decide), fun _ => (List.append_nil _).symm⟩
  | succ m ih =>
    have hx0 : x ≠ 0 := ne_zero_of_toNat hx
    have hjmp : Instr.exec ⟨paddingLoop, x, y, levels.headD false, rx, []⟩
        (.jmp (.zero .x) paddingDone) = some ⟨21, x, y, levels.headD false, rx, []⟩ :=
      congrArg (fun pc => some (⟨pc, x, y, levels.headD false, rx, []⟩ : State))
        (if_neg fun h => hx0 (beq_iff_eq.mp h))
    have hloop : Hunts ⟨paddingLoop, x, y, rx, levels⟩ ⟨21, x, y, rx, levels.drop 1⟩ :=
      Cycles.exec rfl (Or.inr (by decide)) hjmp
    have hpad : Hunts _ ⟨22, x, y, rx.shift 8 0, (levels.drop 1).drop 1⟩ :=
      hloop.exec rfl rfl (by decide)
    have hagain : Hunts _ ⟨paddingLoop, x - 1, y, rx.shift 8 0, ((levels.drop 1).drop 1).drop 1⟩ :=
      hpad.exec rfl (Instr.exec_dec (by exact hx0)) (by decide)
    obtain ⟨x', rx', hrest, hrx'⟩ := ih (x - 1) (rx.shift 8 0) _ (toNat_sub_one hx)
    have hall := hagain.trans hrest
    rw [List.drop_drop, List.drop_drop, List.drop_drop,
      show 1 + (1 + (1 + (3 * m + 1))) = 3 * (m + 1) + 1 by omega] at hall
    refine ⟨x', rx', hall, fun hrx => ?_⟩
    have hbits : (rx.shift 8 0).bits = rx.bits ++ byteBits 0 :=
      Rx.bits_shift (Rx.count_add_eight_le hrx) 0
    have hwhole : 8 ∣ (rx.shift 8 0).bits.length := by
      rw [hbits, List.length_append, length_byteBits]
      exact dvd_add hrx dvd_rfl
    rw [hrx' hwhole, hbits, List.replicate_succ, List.flatMap_cons, List.append_assoc]

/-- From the end bit to the next `wait`: the padding and its count. -/
theorem hunts_behind (x y : UInt32) (rx : Rx) (levels : List Bool) :
    ∃ rx', Hunts ⟨19, x, y, rx, levels⟩
        ⟨preambleCandidate, PREAMBLE_BITS_WITH_END, x, rx', levels.drop (3 * x.toNat + 5)⟩ ∧
      (8 ∣ rx.bits.length → rx'.bits =
        rx.bits ++ (List.replicate x.toNat 0 ++ [x.toUInt8]).flatMap byteBits) := by
  have hend : Hunts _ ⟨19, x, y, rx, levels⟩ := ReflTransGen.refl
  have hmov : Hunts _ ⟨paddingLoop, x, x, rx, _⟩ := hend.exec rfl rfl (by decide)
  obtain ⟨x', rx', hpad, hrx'⟩ := hunts_padding x x rx (levels.drop 1) rfl
  have hdone : Hunts _ ⟨paddingDone, x', x, rx', _⟩ := hmov.trans hpad
  have hcount : Hunts _ ⟨24, x', x, rx'.shift 8 x, _⟩ := hdone.exec rfl rfl (by decide)
  have hset : Hunts _ ⟨25, PREAMBLE_BITS_WITH_END, x, rx'.shift 8 x, _⟩ :=
    hcount.exec rfl rfl (by decide)
  have hjmp : Hunts _ ⟨preambleCandidate, PREAMBLE_BITS_WITH_END, x, rx'.shift 8 x, _⟩ :=
    hset.exec rfl rfl (by decide)
  rw [List.drop_drop, List.drop_drop, List.drop_drop, List.drop_drop,
    show 1 + (3 * x.toNat + 1 + (1 + (1 + 1))) = 3 * x.toNat + 5 by omega] at hjmp
  refine ⟨_, hjmp, fun hrx => ?_⟩
  have hwhole : 8 ∣ rx'.bits.length := dvd_length_bits hrx (hrx' hrx)
  rw [Rx.bits_shift (Rx.count_add_eight_le hwhole), hrx' hrx, List.flatMap_append,
    List.flatMap_singleton, byteBits_toUInt8, List.append_assoc]

/-- Where the program waits again behind an end bit `b`, and what it shifted in. -/
theorem hunts_endBit (x y : UInt32) (rx : Rx) (b : TimedBit) (line : List TimedBit) :
    ∃ t', Hunts ⟨19, x, y, rx,
        (List.replicate b.high true ++ wave line).drop (ZERO_DELAY + 1)⟩ t' ∧
      Waits 1 (line.drop (lost (backAtWait x - b.high) line)) t' ∧
      (8 ∣ rx.bits.length → t'.rx.bits =
        rx.bits ++ (List.replicate x.toNat 0 ++ [x.toUInt8]).flatMap byteBits) := by
  obtain ⟨rx', hhunts, hrx'⟩ := hunts_behind x y rx
    ((List.replicate b.high true ++ wave line).drop (ZERO_DELAY + 1))
  refine ⟨_, hhunts, .candidate rfl ?_, hrx'⟩
  rw [List.drop_drop, show ZERO_DELAY + 1 + (3 * x.toNat + 5) = backAtWait x by
    simp only [ZERO_DELAY, backAtWait]; omega, drop_high]
  exact (ready_drop_lost _ line).high _

theorem hunts_newPreamble (x y : UInt32) (rx : Rx) (high : ℕ) (line : List TimedBit) :
    ∃ t', Hunts ⟨newPreamble, x, y, rx, List.replicate high true ++ wave line⟩ t' ∧
      Waits 0 line t' ∧ t'.rx = rx := by
  have hstart : Hunts _ ⟨newPreamble, x, y, rx, List.replicate high true ++ wave line⟩ :=
    ReflTransGen.refl
  exact ⟨_, hstart.exec rfl rfl (by decide), .candidate rfl (ready_drop line (by omega)), rfl⟩

/-- Either entry leads to a `wait` with the counter set, when `k` bits have gone
by. -/
theorem Entry.waits (h : Entry line n k t) : ∃ t', Hunts t t' ∧ Waits n (line.drop k) t' := by
  cases h with
  | @newPreamble x y rx high =>
    obtain ⟨t', hhunts, hwaits, -⟩ := hunts_newPreamble x y rx high line
    exact ⟨t', hhunts, hwaits⟩
  | @endBit x y rx b hb =>
    obtain ⟨t', hhunts, hwaits, -⟩ := hunts_endBit x y rx b line
    exact ⟨t', hhunts, hwaits⟩

/-- **What the program recognizes.**  From either entry it starts a packet on
the first zero for which it counts eleven ones, the end bit included. -/
theorem startsPacket_iff (h : Entry line n k t) (hi : i < line.length) :
    StartsPacket t (line.drop (i + 1)) ↔ ZeroAt line i ∧ 11 ≤ counted n k line i ∧
      ∀ j < i, ZeroAt line j → counted n k line j < 11 := by
  obtain ⟨t', hhunts, hwaits⟩ := h.waits
  rw [startsPacket_iff_of_hunts hhunts, hwaits.startsPacket_iff hi]
  have hcounted : ∀ j, counted n k line (k + j) = ones n ((line.drop k).take j) := fun j => by
    rw [counted, if_pos (Nat.le_add_right k j), List.drop_take, Nat.add_sub_cancel_left]
  constructor
  · rintro ⟨j, hj, rfl⟩
    obtain ⟨hz, hten, hfirst⟩ := hunt_eq_some_iff.mp hj
    refine ⟨zeroAt_drop.mp hz, by rwa [hcounted], fun j' hlt hz' => ?_⟩
    by_cases hk : k ≤ j'
    · obtain ⟨l, rfl⟩ := Nat.exists_eq_add_of_le hk
      rw [hcounted]
      exact hfirst l (Nat.lt_of_add_lt_add_left hlt) (zeroAt_drop.mpr hz')
    · rw [counted, if_neg hk]
      decide
  · rintro ⟨hz, hten, hfirst⟩
    have hk : k ≤ i := by
      by_contra hk
      rw [counted, if_neg hk] at hten
      omega
    obtain ⟨j, rfl⟩ := Nat.exists_eq_add_of_le hk
    refine ⟨j, hunt_eq_some_iff.mpr ⟨zeroAt_drop.mpr hz, ?_, fun l hl hz' => ?_⟩, rfl⟩
    · rwa [← hcounted]
    · rw [← hcounted]
      exact hfirst (k + l) (Nat.add_lt_add_left hl k) (zeroAt_drop.mp hz')

theorem Entry.le_one (h : Entry line n k t) : n ≤ 1 := by
  cases h with
  | newPreamble => exact Nat.zero_le 1
  | endBit => exact le_rfl

/-- Eleven ones that the program counts are ten ones of the line. -/
theorem Entry.ten_le (h : Entry line n k t) (hcounted : 11 ≤ counted n k line i) :
    10 ≤ ones n (line.take i) := by
  have hle := counted_le n k line i
  have hn := h.le_one
  omega

/-- Where no packet has started, no zero has ten ones before it: for the first
one with ten, more are counted, and it had started a packet. -/
theorem ones_lt_of_moreThanTen (h : Entry line n k t) (hmore : MoreThanTen n k line)
    (hnone : ∀ j < i, ZeroAt line j → ¬ StartsPacket t (line.drop (j + 1))) :
    ∀ j < i, ZeroAt line j → ones n (line.take j) < 10 := by
  intro j
  induction j using Nat.strong_induction_on with
  | h j ih =>
    intro hj hz
    have hearlier : ∀ l < j, ZeroAt line l → ones n (line.take l) < 10 :=
      fun l hl => ih l hl (hl.trans hj)
    by_contra hten
    refine hnone j hj hz ((startsPacket_iff h hz.lt).mpr
      ⟨hz, hmore j hz hearlier (Nat.not_lt.mp hten), fun l hl hz' => ?_⟩)
    by_contra hl11
    exact absurd (h.ten_le (Nat.not_lt.mp hl11)) (Nat.not_le.mpr (hearlier l hl hz'))

/-- **Preambles.**  From either entry, the program recognizes a preamble of ten
ones on a line if and only if it counts more than ten for the first one. -/
theorem recognizes_iff (h : Entry line n k t) : Recognizes n line t ↔ MoreThanTen n k line := by
  constructor
  · intro hrec i hz hfirst hten
    have hstart : StartsPacket t (line.drop (i + 1)) := by
      refine (hrec i hz fun j hj hz' hs => ?_).mpr hten
      have h11 := ((startsPacket_iff h hz'.lt).mp hs).2.1
      exact absurd (h.ten_le h11) (Nat.not_le.mpr (hfirst j hj hz'))
    exact ((startsPacket_iff h hz.lt).mp hstart).2.1
  · intro hmore i hz hnone
    have hfirst := ones_lt_of_moreThanTen h hmore hnone
    rw [startsPacket_iff h hz.lt]
    constructor
    · intro hs
      exact h.ten_le hs.2.1
    · intro hten
      refine ⟨hz, hmore i hz hfirst hten, fun j hj hz' => ?_⟩
      by_contra h11
      exact absurd (h.ten_le (Nat.not_lt.mp h11)) (Nat.not_le.mpr (hfirst j hj hz'))

/-! ### Traces -/

theorem isHalf_one : IsHalf true 23 := ⟨by decide, by decide⟩

theorem isHalf_zero : IsHalf false 40 := show 36 ≤ 40 by decide

/-- A one whose halves last 58 µs. -/
def oneBit : TimedBit := ⟨true, 23, 23, isHalf_one, isHalf_one⟩

/-- A zero whose halves last 100 µs. -/
def zeroBit : TimedBit := ⟨false, 40, 40, isHalf_zero, isHalf_zero⟩

/-- A preamble of `n` ones, and the zero behind it. -/
def preamble (n : ℕ) : List TimedBit := List.replicate n oneBit ++ [zeroBit]

theorem zeroAt_preamble : ZeroAt (preamble n) i ↔ i = n := by
  constructor
  · rintro ⟨b, hb, hv⟩
    have hlt : i < (preamble n).length := (List.getElem?_eq_some_iff.mp hb).1
    rw [preamble, List.length_append, List.length_replicate, List.length_singleton] at hlt
    by_contra hne
    have hin : i < n := by omega
    rw [preamble, List.getElem?_append_left (by rwa [List.length_replicate]),
      List.getElem?_replicate_of_lt hin] at hb
    rw [← Option.some.inj hb] at hv
    cases hv
  · rintro rfl
    refine ⟨zeroBit, ?_, rfl⟩
    rw [preamble, List.getElem?_append_right (by rw [List.length_replicate]),
      List.length_replicate, Nat.sub_self]
    rfl

/-- The program behind the end bit of the idle packet FF 00 FF. -/
def behindIdle (line : List TimedBit) : Clocked :=
  ⟨19, padding 3, 0xFFFFFFFF, ((Rx.empty.shift 8 0).shift 8 0xFF).shift 8 0,
    (List.replicate oneBit.high true ++ wave line).drop (ZERO_DELAY + 1)⟩

/-- The first bit behind a packet of three bytes goes by. -/
theorem entry_behindIdle (n : ℕ) :
    Entry (preamble (n + 1)) 1 1 (behindIdle (preamble (n + 1))) := by
  have hlost : lost (backAtWait (padding 3) - oneBit.high) (preamble (n + 1)) = 1 := by
    change lost 25 (oneBit :: preamble n) = 1
    rw [lost, if_neg (by decide)]
    exact congrArg (· + 1) (lost_of_lt (by decide) (preamble n))
  have hentry : Entry (preamble (n + 1)) 1 _ (behindIdle (preamble (n + 1))) := .endBit rfl
  rwa [hlost] at hentry

/-- Eleven ones and a zero, from `new_preamble` and behind a packet of three
bytes. -/
theorem recognizes_eleven : Recognizes 0 (preamble 11) (startClocked (preamble 11)) ∧
    Recognizes 1 (preamble 11) (behindIdle (preamble 11)) := by
  refine ⟨(recognizes_iff (.newPreamble 0)).mpr fun i hz _ _ => ?_,
    (recognizes_iff (entry_behindIdle 10)).mpr fun i hz _ _ => ?_⟩
  all_goals
    rw [zeroAt_preamble.mp hz]
    decide

theorem not_recognizes_preamble {n m : ℕ} (h : Entry (preamble m) n k t)
    (hones : 10 ≤ ones n ((preamble m).take m)) (hcounted : counted n k (preamble m) m < 11) :
    ¬ Recognizes n (preamble m) t := by
  intro hrec
  have hstart : StartsPacket t ((preamble m).drop (m + 1)) := by
    refine (hrec m (zeroAt_preamble.mpr rfl) fun j hj hz => ?_).mpr hones
    exact absurd (zeroAt_preamble.mp hz) hj.ne
  have hlt : m < (preamble m).length := (zeroAt_preamble.mpr rfl : ZeroAt (preamble m) m).lt
  exact absurd ((startsPacket_iff h hlt).mp hstart).2.1 (Nat.not_le.mpr hcounted)

/-- Ten ones and a zero are a preamble of minimum length.  They are not
recognized from `new_preamble`, and behind a packet of three bytes not even
with the end bit in front. -/
theorem not_recognizes_ten : ¬ Recognizes 0 (preamble 10) (startClocked (preamble 10)) ∧
    ¬ Recognizes 1 (preamble 10) (behindIdle (preamble 10)) :=
  ⟨not_recognizes_preamble (.newPreamble 0) (by decide) (by decide),
    not_recognizes_preamble (entry_behindIdle 9) (by decide) (by decide)⟩

end Rp2040.Pio
