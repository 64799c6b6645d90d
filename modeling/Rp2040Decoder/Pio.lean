/-
A PIO state machine that listens to a DCC line.

* `Rx` — the input shift register and the words it pushed, shifted to the left
  and pushed at 32 bits;
* `Rx.bits_shift` — a shift appends its bits to everything shifted in so far;
* `Instr.exec`, `step`, `Steps` — the instructions the decoder program uses;
* `Steps.wait_bit` — a `wait 0`, `wait 1` pair takes one bit off the line and
  leaves its sample in the pin.

The machine is on the level of bits: that a pair of waits takes exactly one bit
off the line is an assumption here, and the cycles of the other instructions are
not modelled.  `PioCycles` runs the same instructions cycle by cycle.
-/
import Mathlib.Logic.Relation
import Rp2040Decoder.Bits

namespace Rp2040.Pio

open Bits

/-! ### The input shift register -/

/-- Input shift register and receive FIFO, with
`ShiftDirection::Left`, `auto_fill` and `threshold = 32`. -/
structure Rx where
  isr : UInt32
  /-- Bits shifted in since the last push. -/
  count : ℕ
  /-- The words pushed, oldest first. -/
  words : List UInt32
  /-- A full register has been pushed. -/
  count_lt : count < 32

namespace Rx

def empty : Rx := ⟨0, 0, [], by decide⟩

/-- Shifts the low `n` bits of `v` in, possibly triggering an autopush. -/
def shift (rx : Rx) (n : ℕ) (v : UInt32) : Rx :=
  let isr := UInt32.ofNat (rx.isr.toNat * 2 ^ n + v.toNat % 2 ^ n)
  if h : rx.count + n < 32 then ⟨isr, rx.count + n, rx.words, h⟩
  else ⟨0, 0, rx.words ++ [isr], by decide⟩

def wordBits (w : UInt32) : List Bool := Bits.bits 32 w.toNat

theorem length_wordBits (w : UInt32) : (wordBits w).length = 32 := Bits.length_bits 32 w.toNat

/-- Everything shifted in so far, oldest bit first. -/
def bits (rx : Rx) : List Bool :=
  rx.words.flatMap wordBits ++ Bits.bits rx.count rx.isr.toNat

@[simp]
theorem bits_empty : empty.bits = [] := by
  rw [bits, empty, List.flatMap_nil, Bits.bits, List.append_nil]

theorem length_bits (rx : Rx) : rx.bits.length = 32 * rx.words.length + rx.count := by
  rw [bits, List.length_append, Bits.length_bits, length_flatMap length_wordBits]

/-- **What a shift does.**  As long as the register does not overflow, a shift
appends its bits, whether it pushes or not. -/
theorem bits_shift {rx : Rx} {n : ℕ} (h : rx.count + n ≤ 32) (v : UInt32) :
    (rx.shift n v).bits = rx.bits ++ Bits.bits n v.toNat := by
  have hisr : ∀ k, rx.count + n = k →
      Bits.bits k (UInt32.ofNat (rx.isr.toNat * 2 ^ n + v.toNat % 2 ^ n)).toNat =
        Bits.bits rx.count rx.isr.toNat ++ Bits.bits n v.toNat := by
    intro k hk
    rw [UInt32.toNat_ofNat', bits_mod (by omega), ← hk, bits_append]
  by_cases hfull : rx.count + n < 32
  · have hshift : rx.shift n v = ⟨_, _, rx.words, hfull⟩ := dif_pos hfull
    rw [hshift, bits, bits, hisr _ rfl, List.append_assoc]
  · have hshift : rx.shift n v = ⟨0, 0, rx.words ++ [_], by decide⟩ := dif_neg hfull
    rw [hshift, bits, bits, List.flatMap_append, List.flatMap_singleton, wordBits,
      hisr 32 (by omega), Bits.bits, List.append_nil, List.append_assoc]

/-- A register that holds whole bytes has room for one more. -/
theorem count_add_eight_le {rx : Rx} (h : 8 ∣ rx.bits.length) : rx.count + 8 ≤ 32 := by
  rw [length_bits] at h
  have := rx.count_lt
  omega

end Rx

/-! ### The machine -/

inductive Reg
  | x
  | y
  deriving DecidableEq, Repr

/-- What an `in` instruction shifts in. -/
inductive Source
  | pins
  | null
  | reg (r : Reg)
  deriving DecidableEq, Repr

/-- When a `jmp` is taken. -/
inductive Condition
  | always
  | pin
  /-- `!r` -/
  | zero (r : Reg)
  /-- `r--` -/
  | dec (r : Reg)
  deriving DecidableEq, Repr

/-- An instruction; the target of a jump is its address. -/
inductive Instr
  | set (r : Reg) (v : UInt32)
  | mov (dst src : Reg)
  | wait (polarity : Bool)
  | jmp (c : Condition) (target : ℕ)
  | shiftIn (src : Source) (n : ℕ)
  deriving DecidableEq, Repr

/-- The state of the machine.  `line` holds the DCC bits still to come: each is
a low half followed by a high half, and the high half of a `0` is still high
when the delay of the `wait` is over. -/
structure State where
  pc : ℕ
  x : UInt32
  y : UInt32
  /-- The pin as the program samples it. -/
  pin : Bool
  rx : Rx
  line : List Bool

namespace State

def get (s : State) : Reg → UInt32
  | .x => s.x
  | .y => s.y

def set (s : State) (r : Reg) (v : UInt32) : State :=
  match r with
  | .x => { s with x := v }
  | .y => { s with y := v }

def value (s : State) : Source → UInt32
  | .pins => if s.pin then 1 else 0
  | .null => 0
  | .reg r => s.get r

def next (s : State) : State := { s with pc := s.pc + 1 }

/-- Whether the jump is taken. -/
def holds (s : State) : Condition → Bool
  | .always => true
  | .pin => s.pin
  | .zero r => s.get r == 0
  | .dec r => s.get r != 0

/-- `jmp r--` decrements whether or not it jumps. -/
def afterCondition (s : State) : Condition → State
  | .dec r => s.set r (s.get r - 1)
  | _ => s

end State

/-- Executes one instruction; `none` while it blocks. -/
def Instr.exec (s : State) : Instr → Option State
  | .set r v => some (s.set r v).next
  | .mov dst src => some (s.set dst (s.get src)).next
  | .wait polarity =>
    match s.line with
    | [] => none
    | b :: line =>
      if polarity then some { s with pin := !b, line := line }.next
      else some { s with pin := false }.next
  | .jmp c target =>
    some { s.afterCondition c with pc := if s.holds c then target else s.pc + 1 }
  | .shiftIn src n => some { s with rx := s.rx.shift n (s.value src) }.next

/-- `jmp r--` on a register that is not zero: decremented and taken. -/
theorem Instr.exec_dec {s : State} {r : Reg} {target : ℕ} (hr : s.get r ≠ 0) :
    Instr.exec s (.jmp (.dec r) target) = some { s.set r (s.get r - 1) with pc := target } := by
  have hholds : s.holds (.dec r) = true := bne_iff_ne.mpr hr
  rw [Instr.exec, hholds]
  rfl

/-- One step of the program `p`. -/
def step (p : List Instr) (s : State) : Option State :=
  p[s.pc]?.bind (Instr.exec s)

/-- The states a program goes through. -/
abbrev Steps (p : List Instr) : State → State → Prop :=
  Relation.ReflTransGen fun s s' => step p s = some s'

namespace Steps

variable {p : List Instr} {s : State} {r : Reg} {target : ℕ}

/-- A `wait 0`, `wait 1` pair takes one bit off the line. -/
theorem wait_bit {pc : ℕ} {x y : UInt32} {pin b : Bool} {rx : Rx} {line : List Bool}
    (hlow : p[pc]? = some (.wait false)) (hhigh : p[pc + 1]? = some (.wait true)) :
    Steps p ⟨pc, x, y, pin, rx, b :: line⟩ ⟨pc + 2, x, y, !b, rx, line⟩ := by
  have hfirst : step p ⟨pc, x, y, pin, rx, b :: line⟩ =
      some ⟨pc + 1, x, y, false, rx, b :: line⟩ := by
    rw [step, hlow]
    rfl
  have hsecond : step p ⟨pc + 1, x, y, false, rx, b :: line⟩ =
      some ⟨pc + 2, x, y, !b, rx, line⟩ := by
    rw [step, hhigh]
    rfl
  exact Relation.ReflTransGen.head hfirst (Relation.ReflTransGen.single hsecond)

theorem jmp_dec (hi : p[s.pc]? = some (.jmp (.dec r) target)) (hr : s.get r ≠ 0) :
    step p s = some { s.set r (s.get r - 1) with pc := target } := by
  rw [step, hi, Option.bind_some, Instr.exec_dec hr]

end Steps

end Rp2040.Pio
