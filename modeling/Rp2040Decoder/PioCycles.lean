/-
The PIO state machine cycle by cycle.

A cycle of the state machine takes 2.5 µs, and the pin has one level in each of
them.  A bit of the line is a low half followed by a high half, and the lengths
of the halves tell a one from a zero.

* `TimedBit`, `wave` — a bit by the cycles of its halves, and the levels of the
  pin that a line of bits makes;
* `Clocked`, `cycle` — the machine and what it does in a cycle;
* `Cycles.wait_bit` — a `wait 0`, `wait 1` pair takes the next bit, as long as
  its rising edge has not gone by;
* `Cycles.jmp_bit` — and a `jmp pin` behind it is taken exactly if the bit is a
  zero;
* `ready_drop_lost` — which bits go by while the program is elsewhere.
-/
import Rp2040Decoder.PioDecoder

namespace Rp2040.Pio

open Relation

/-! ### The line -/

/-- Number of cycles to delay after which a bit is considered a zero. -/
abbrev ZERO_DELAY := 30

/-- How many cycles of 2.5 µs fall into half a bit: a duration between 52 and
64 µs is a one's, and one of at least 90 µs is a zero's. -/
def IsHalf (value : Bool) (cycles : ℕ) : Prop :=
  if value then 20 ≤ cycles ∧ cycles ≤ 26 else 36 ≤ cycles

/-- A bit on the line, by the number of cycles that its halves last. -/
structure TimedBit where
  value : Bool
  low : ℕ
  high : ℕ
  low_isHalf : IsHalf value low
  high_isHalf : IsHalf value high

namespace TimedBit

theorem le_of_isHalf {value : Bool} {cycles : ℕ} (h : IsHalf value cycles) : 20 ≤ cycles := by
  cases value with
  | true => exact h.1
  | false => exact le_trans (by decide) (show 36 ≤ cycles from h)

theorem low_ge (b : TimedBit) : 20 ≤ b.low := le_of_isHalf b.low_isHalf

theorem high_ge (b : TimedBit) : 20 ≤ b.high := le_of_isHalf b.high_isHalf

theorem high_le {b : TimedBit} (hb : b.value = true) : b.high ≤ 26 := by
  have hhalf := b.high_isHalf
  rw [hb] at hhalf
  exact hhalf.2

theorem high_ge_of_zero {b : TimedBit} (hb : b.value = false) : 36 ≤ b.high := by
  have hhalf := b.high_isHalf
  rw [hb] at hhalf
  exact hhalf

/-- The levels of the pin while the bit lasts. -/
def levels (b : TimedBit) : List Bool := List.replicate b.low false ++ List.replicate b.high true

end TimedBit

/-- The levels of the pin while the bits last. -/
def wave (line : List TimedBit) : List Bool := line.flatMap TimedBit.levels

@[simp]
theorem wave_nil : wave [] = [] := rfl

theorem wave_cons (b : TimedBit) (line : List TimedBit) : wave (b :: line) =
    List.replicate b.low false ++ (List.replicate b.high true ++ wave line) := by
  rw [wave, List.flatMap_cons, TimedBit.levels, List.append_assoc, ← wave]

/-! ### The machine -/

/-- The state of the machine at the start of a cycle. -/
structure Clocked where
  pc : ℕ
  x : UInt32
  y : UInt32
  rx : Rx
  /-- The levels of the pin from this cycle on; it stays low behind the last. -/
  levels : List Bool

namespace Clocked

/-- The level of the pin in this cycle. -/
def pin (t : Clocked) : Bool := t.levels.headD false

/-- What an instruction that does not wait sees. -/
def state (t : Clocked) : State := ⟨t.pc, t.x, t.y, t.pin, t.rx, []⟩

/-- An instruction has led to `s`, and `delay` cycles go by behind it. -/
def advance (t : Clocked) (delay : ℕ) (s : State) : Clocked :=
  ⟨s.pc, s.x, s.y, s.rx, t.levels.drop (delay + 1)⟩

end Clocked

/-- The cycles an instruction delays after it is done: `[ZERO_DELAY-1]` stands
behind every `wait 1` of the program. -/
def Instr.delay : Instr → ℕ
  | .wait true => ZERO_DELAY - 1
  | _ => 0

/-- What the program `p` does in a cycle, the delay behind an instruction
included.  A `wait` takes cycles until the pin has its level.  Every other
instruction takes one: `in` does not wait for room in the FIFO, which is read as
soon as there is a word in it. -/
def cycle (p : List Instr) (t : Clocked) : Option Clocked :=
  p[t.pc]?.bind fun i =>
    match i with
    | .wait polarity =>
      if t.pin = polarity then some (t.advance i.delay t.state.next)
      else some (t.advance 0 t.state)
    | i => (i.exec t.state).map (t.advance i.delay)

/-- The state machine as `PioDccDecoder::new` enables it. -/
def startClocked (line : List TimedBit) : Clocked := ⟨newPreamble, 0, 0, .empty, wave line⟩

/-- The states the program goes through, as long as its address is in `P`. -/
abbrev Cycles (p : List Instr) (P : ℕ → Prop) : Clocked → Clocked → Prop :=
  ReflTransGen fun t t' => P t.pc ∧ cycle p t = some t'

/-- The next bit to come has not gone by: the levels to come are the end of a
high half, if any, and those of the line from before its first rising edge. -/
def Ready (line : List TimedBit) (levels : List Bool) : Prop :=
  ∃ high gone, levels = List.replicate high true ++ (wave line).drop gone ∧
    ∀ b ∈ line.head?, gone < b.low

theorem Ready.high {line : List TimedBit} {levels : List Bool} (h : Ready line levels) (n : ℕ) :
    Ready line (List.replicate n true ++ levels) := by
  obtain ⟨high, gone, rfl, hgone⟩ := h
  refine ⟨n + high, gone, ?_, hgone⟩
  rw [List.replicate_add, List.append_assoc]

/-- The levels `n` cycles after a rising edge, for a high half of `high` cycles. -/
theorem drop_high (high : ℕ) (line : List TimedBit) (n : ℕ) :
    (List.replicate high true ++ wave line).drop n =
      List.replicate (high - n) true ++ (wave line).drop (n - high) := by
  rw [List.drop_append, List.drop_replicate, List.length_replicate]

/-- A low half lasts twenty cycles at least. -/
theorem ready_drop {high n : ℕ} (line : List TimedBit) (hn : n < high + 20) :
    Ready line ((List.replicate high true ++ wave line).drop n) := by
  refine ⟨high - n, n - high, drop_high high line n, fun b _ => ?_⟩
  have hlow := b.low_ge
  omega

/-- Where the delay of a `wait 1` is over, the pin is high exactly if the bit is
a zero. -/
theorem pin_sampled (b : TimedBit) (line : List TimedBit) :
    ((List.replicate b.high true ++ wave line).drop ZERO_DELAY).headD false = !b.value := by
  rw [drop_high]
  cases hb : b.value with
  | false =>
    have hhigh := TimedBit.high_ge_of_zero hb
    obtain ⟨n, hn⟩ : ∃ n, b.high - ZERO_DELAY = n + 1 :=
      ⟨b.high - ZERO_DELAY - 1, by simp only [ZERO_DELAY]; omega⟩
    rw [hn, List.replicate_succ]
    rfl
  | true =>
    have hle := TimedBit.high_le hb
    have hge := b.high_ge
    have hzero : b.high - ZERO_DELAY = 0 := by simp only [ZERO_DELAY]; omega
    rw [hzero, List.replicate_zero, List.nil_append]
    cases line with
    | nil =>
      rw [wave_nil, List.drop_nil]
      rfl
    | cons b' line =>
      have hlow := b'.low_ge
      obtain ⟨n, hn⟩ : ∃ n, b'.low - (ZERO_DELAY - b.high) = n + 1 :=
        ⟨b'.low - (ZERO_DELAY - b.high) - 1, by simp only [ZERO_DELAY]; omega⟩
      have hdrop : ZERO_DELAY - b.high ≤ (List.replicate b'.low false).length := by
        rw [List.length_replicate]
        simp only [ZERO_DELAY]
        omega
      rw [wave_cons, List.drop_append_of_le_length hdrop, List.drop_replicate, hn,
        List.replicate_succ]
      rfl

/-! ### Waiting -/

namespace Cycles

variable {p : List Instr} {P : ℕ → Prop} {pc : ℕ} {x y : UInt32} {rx : Rx}

/-- A `wait` goes on while the pin has the other level. -/
theorem wait_other {polarity : Bool} (hi : p[pc]? = some (.wait polarity)) (hP : P pc) (n : ℕ)
    (levels : List Bool) :
    Cycles p P ⟨pc, x, y, rx, List.replicate n (!polarity) ++ levels⟩ ⟨pc, x, y, rx, levels⟩ := by
  induction n with
  | zero => exact ReflTransGen.refl
  | succ n ih =>
    refine ReflTransGen.head ⟨hP, ?_⟩ ih
    have hpin : Clocked.pin ⟨pc, x, y, rx, List.replicate (n + 1) (!polarity) ++ levels⟩ ≠
        polarity := by
      cases polarity <;> exact Bool.noConfusion
    rw [cycle, hi, Option.bind_some]
    exact if_neg hpin

/-- It is over where the pin has its level, and the delay follows. -/
theorem wait_over {polarity : Bool} {levels : List Bool} (hi : p[pc]? = some (.wait polarity))
    (hP : P pc) (hpin : levels.headD false = polarity) :
    Cycles p P ⟨pc, x, y, rx, levels⟩
      ⟨pc + 1, x, y, rx, levels.drop ((Instr.wait polarity).delay + 1)⟩ := by
  refine ReflTransGen.single ⟨hP, ?_⟩
  rw [cycle, hi, Option.bind_some]
  exact if_pos hpin

/-- A `wait 0`, `wait 1` pair takes the next bit off the line and leaves the
program where the delay behind its rising edge is over. -/
theorem wait_bit {b : TimedBit} {line : List TimedBit} {levels : List Bool}
    (hlow : p[pc]? = some (.wait false)) (hhigh : p[pc + 1]? = some (.wait true))
    (hP : P pc) (hP' : P (pc + 1)) (hready : Ready (b :: line) levels) :
    Cycles p P ⟨pc, x, y, rx, levels⟩
      ⟨pc + 2, x, y, rx, (List.replicate b.high true ++ wave line).drop ZERO_DELAY⟩ := by
  obtain ⟨high, gone, rfl, hgone⟩ := hready
  have hlt : gone < b.low := hgone b rfl
  -- what is left of the low half of the bit
  obtain ⟨n, hn⟩ : ∃ n, b.low - gone = n + 1 := ⟨b.low - gone - 1, by omega⟩
  have hwave : (wave (b :: line)).drop gone =
      List.replicate (n + 1) false ++ (List.replicate b.high true ++ wave line) := by
    rw [wave_cons, List.drop_append_of_le_length (by rw [List.length_replicate]; omega),
      List.drop_replicate, hn]
  -- and of its high half
  obtain ⟨m, hm⟩ : ∃ m, b.high = m + 1 := ⟨b.high - 1, by have := b.high_ge; omega⟩
  rw [hwave]
  have hfall : Cycles p P _ ⟨pc, x, y, rx, List.replicate (n + 1) false ++
      (List.replicate b.high true ++ wave line)⟩ := wait_other hlow hP high _
  have hover : Cycles p P _ ⟨pc + 1, x, y, rx, List.replicate n false ++
      (List.replicate b.high true ++ wave line)⟩ := hfall.trans (wait_over hlow hP rfl)
  have hrise : Cycles p P _ ⟨pc + 1, x, y, rx, List.replicate b.high true ++ wave line⟩ :=
    hover.trans (wait_other hhigh hP' n _)
  refine hrise.trans (wait_over hhigh hP' ?_)
  rw [hm, List.replicate_succ]
  rfl

/-- An instruction that does not wait takes one cycle. -/
theorem exec {i : Instr} {levels : List Bool} {s : State} (hi : p[pc]? = some i) (hP : P pc)
    (hexec : i.exec ⟨pc, x, y, levels.headD false, rx, []⟩ = some s) :
    Cycles p P ⟨pc, x, y, rx, levels⟩ ⟨s.pc, s.x, s.y, s.rx, levels.drop 1⟩ := by
  refine ReflTransGen.single ⟨hP, ?_⟩
  rw [cycle, hi, Option.bind_some]
  have hmap : ∀ t : Clocked, (i.exec ⟨pc, x, y, levels.headD false, rx, []⟩).map (t.advance 0) =
      some (t.advance 0 s) := fun t => by rw [hexec, Option.map_some]
  cases i with
  | wait polarity => cases hexec
  | _ => exact hmap ⟨pc, x, y, rx, levels⟩

/-- Behind the pair a `jmp pin` tells the bits apart: it is taken on a zero. -/
theorem jmp_bit {b : TimedBit} {line : List TimedBit} {levels : List Bool} {target : ℕ}
    (hlow : p[pc]? = some (.wait false)) (hhigh : p[pc + 1]? = some (.wait true))
    (hjmp : p[pc + 2]? = some (.jmp .pin target)) (hP : ∀ i ≤ 2, P (pc + i))
    (hready : Ready (b :: line) levels) :
    Cycles p P ⟨pc, x, y, rx, levels⟩ ⟨if b.value then pc + 3 else target, x, y, rx,
      (List.replicate b.high true ++ wave line).drop (ZERO_DELAY + 1)⟩ := by
  have hbit : Cycles p P _ ⟨pc + 2, x, y, rx, _⟩ :=
    wait_bit hlow hhigh (hP 0 (by decide)) (hP 1 (by decide)) hready
  have hexec : Instr.exec ⟨pc + 2, x, y, ((List.replicate b.high true ++ wave line).drop
      ZERO_DELAY).headD false, rx, []⟩ (.jmp .pin target) =
      some ⟨if b.value then pc + 3 else target, x, y, !b.value, rx, []⟩ := by
    rw [pin_sampled]
    cases b.value <;> rfl
  have hstep := hbit.trans (exec hjmp (hP 2 le_rfl) hexec)
  rw [List.drop_drop] at hstep
  exact hstep

end Cycles

/-! ### Bits that go by -/

/-- How many bits of the line have had their rising edge within `n` cycles. -/
def lost : ℕ → List TimedBit → ℕ
  | _, [] => 0
  | n, b :: line => if n < b.low then 0 else lost (n - (b.low + b.high)) line + 1

/-- A low half lasts longer. -/
theorem lost_of_lt {n : ℕ} (hn : n < 20) (line : List TimedBit) : lost n line = 0 := by
  cases line with
  | nil => rfl
  | cons b line => exact if_pos (Nat.lt_of_lt_of_le hn b.low_ge)

/-- The next bit is the first one that has not gone by. -/
theorem ready_drop_lost (n : ℕ) (line : List TimedBit) :
    Ready (line.drop (lost n line)) ((wave line).drop n) := by
  induction line generalizing n with
  | nil =>
    refine ⟨0, 0, ?_, fun b hb => ?_⟩
    · rw [wave_nil, List.drop_nil]
      rfl
    · cases hb
  | cons b line ih =>
    rw [lost]
    split
    · rename_i hn
      refine ⟨0, n, rfl, fun b' hb' => ?_⟩
      obtain rfl : b = b' := Option.some.inj hb'
      exact hn
    · rename_i hn
      have hwave : (wave (b :: line)).drop n =
          List.replicate (b.low + b.high - n) true ++ (wave line).drop (n - (b.low + b.high)) := by
        rw [wave_cons, List.drop_append, List.drop_replicate, List.length_replicate,
          Nat.sub_eq_zero_of_le (Nat.le_of_not_lt hn), List.replicate_zero, List.nil_append,
          List.drop_append, List.drop_replicate, List.length_replicate,
          show b.high - (n - b.low) = b.low + b.high - n by omega,
          show n - b.low - b.high = n - (b.low + b.high) by omega]
      rw [List.drop_succ_cons, hwave]
      exact (ih _).high _

end Rp2040.Pio
