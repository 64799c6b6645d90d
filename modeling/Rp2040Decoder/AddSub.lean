/-
Sums and differences of literals.

An expression is made of literals, `+` and `-`; parentheses and spacing belong
to the way it is written.  Its value counts every literal with a sign.  Going
by the operator in front of each literal gives another sign to a literal that
is *turned*: one behind a second operator, or inside parentheses behind a `-`.

* `sum_counted`, `sum_written` — the value, and the value with the signs in
  front of the literals, which differ by twice the turned literals;
* `abs_value_le`, `abs_le_of_mem_partials` — bounds by the number of literals;
* `Spells` — the grammar: what text an expression is written as;
* `Spells.length_literals_le` — a text has no more literals than characters.
-/
import Mathlib.Algebra.BigOperators.Group.List.Basic
import Mathlib.Algebra.Order.Ring.Abs
import Mathlib.Tactic.Ring

namespace AddSub

inductive Operator
  | plus
  | minus
  deriving DecidableEq, Repr

namespace Operator

def sign : Operator → ℤ
  | plus => 1
  | minus => -1

def char : Operator → Char
  | plus => '+'
  | minus => '-'

/-- One operator behind another. -/
def comp : Operator → Operator → Operator
  | plus, o => o
  | minus, plus => minus
  | minus, minus => plus

theorem sign_comp (o o' : Operator) : (o.comp o').sign = o.sign * o'.sign := by
  cases o <;> cases o' <;> rfl

theorem sign_of_ne {o o' : Operator} (h : o ≠ o') : o'.sign = -o.sign := by
  cases o <;> cases o' <;> first | rfl | exact absurd rfl h

theorem abs_sign (o : Operator) : |o.sign| = 1 := by
  cases o <;> rfl

end Operator

/-- An expression over literals of type `α`. -/
inductive Expr (α : Type)
  | literal (a : α)
  | unary (o : Operator) (e : Expr α)
  | binary (l : Expr α) (o : Operator) (r : Expr α)

/-- A literal in an expression: the sign it counts with, and the one of the
operator in front of it. -/
structure Occurrence (α : Type) where
  literal : α
  counted : Operator
  written : Operator

/-- The literal does not count as it is written. -/
def Occurrence.Turned {α : Type} (x : Occurrence α) : Prop := x.counted ≠ x.written

instance {α : Type} (x : Occurrence α) : Decidable x.Turned :=
  inferInstanceAs (Decidable (x.counted ≠ x.written))

namespace Expr

variable {α : Type} (val : α → ℤ)

def value : Expr α → ℤ
  | .literal a => val a
  | .unary o e => o.sign * e.value
  | .binary l o r => l.value + o.sign * r.value

def literals : Expr α → List α
  | .literal a => [a]
  | .unary _ e => e.literals
  | .binary l _ r => l.literals ++ r.literals

/-- The values of the expression and of all its parts. -/
def partials : Expr α → List ℤ
  | .literal a => [val a]
  | .unary o e => (Expr.unary o e).value val :: e.partials
  | .binary l o r => (Expr.binary l o r).value val :: (l.partials ++ r.partials)

/-- The literals from left to right, in an expression that counts with one sign
and has an operator in front. -/
def occurrences : Expr α → Operator → Operator → List (Occurrence α)
  | .literal a, counted, written => [⟨a, counted, written⟩]
  | .unary o e, counted, _ => e.occurrences (counted.comp o) o
  | .binary l o r, counted, written =>
    l.occurrences counted written ++ r.occurrences (counted.comp o) o

theorem map_literal_occurrences (e : Expr α) (counted written : Operator) :
    (e.occurrences counted written).map Occurrence.literal = e.literals := by
  induction e generalizing counted written with
  | literal a => rfl
  | unary o e ih => exact ih _ _
  | binary l o r ihl ihr => rw [occurrences, List.map_append, ihl, ihr, literals]

theorem literal_mem_of_mem {e : Expr α} {counted written : Operator} {x : Occurrence α}
    (h : x ∈ e.occurrences counted written) : x.literal ∈ e.literals := by
  rw [← map_literal_occurrences e counted written]
  exact List.mem_map_of_mem h

/-! ### The value as a sum -/

/-- The value is the sum of the literals with the signs they count with. -/
theorem sum_counted (e : Expr α) (counted written : Operator) :
    ((e.occurrences counted written).map fun x => x.counted.sign * val x.literal).sum =
      counted.sign * e.value val := by
  induction e generalizing counted written with
  | literal a => rw [occurrences, List.map_singleton, List.sum_singleton, value]
  | unary o e ih => rw [occurrences, ih, value, Operator.sign_comp, mul_assoc]
  | binary l o r ihl ihr =>
    rw [occurrences, List.map_append, List.sum_append, ihl, ihr, value, Operator.sign_comp,
      mul_add, mul_assoc]

/-- The sum of the turned literals, with the signs they count with. -/
def turnedSum (e : Expr α) : ℤ :=
  (((e.occurrences .plus .plus).filter fun x => x.Turned).map
    fun x => x.counted.sign * val x.literal).sum

/-- Every turned literal comes in with the wrong sign, which misses it twice. -/
theorem sum_written_eq (xs : List (Occurrence α)) :
    (xs.map fun x => x.written.sign * val x.literal).sum =
      (xs.map fun x => x.counted.sign * val x.literal).sum -
        2 * ((xs.filter fun x => x.Turned).map fun x => x.counted.sign * val x.literal).sum := by
  induction xs with
  | nil => rfl
  | cons x xs ih =>
    rw [List.map_cons, List.sum_cons, ih, List.map_cons, List.sum_cons, List.filter_cons]
    by_cases hx : x.Turned
    · rw [if_pos (decide_eq_true hx), List.map_cons, List.sum_cons, Operator.sign_of_ne hx]
      ring
    · rw [if_neg (by simpa using hx), ← not_not.mp hx]
      ring

/-- What the operators in front of the literals add up to. -/
theorem sum_written (e : Expr α) :
    ((e.occurrences .plus .plus).map fun x => x.written.sign * val x.literal).sum =
      e.value val - 2 * e.turnedSum val := by
  rw [sum_written_eq, sum_counted, turnedSum, Operator.sign, one_mul]

theorem turnedSum_of_not_turned {e : Expr α} (h : ∀ x ∈ e.occurrences .plus .plus, ¬ x.Turned) :
    e.turnedSum val = 0 := by
  rw [turnedSum, List.filter_eq_nil_iff.mpr fun x hx => by simpa using h x hx]
  rfl

/-! ### Bounds -/

section Bounds

variable {val} {b : ℤ}

theorem abs_value_le {e : Expr α} (h : ∀ a ∈ e.literals, |val a| ≤ b) :
    |e.value val| ≤ e.literals.length * b := by
  induction e with
  | literal a =>
    rw [value, literals, List.length_singleton, Nat.cast_one, one_mul]
    exact h a List.mem_cons_self
  | unary o e ih =>
    rw [value, abs_mul, Operator.abs_sign, one_mul]
    exact ih h
  | binary l o r ihl ihr =>
    have hl := ihl fun a ha => h a (List.mem_append_left _ ha)
    have hr := ihr fun a ha => h a (List.mem_append_right _ ha)
    calc |value val (binary l o r)| ≤ |l.value val| + |o.sign * r.value val| := abs_add_le _ _
      _ = |l.value val| + |r.value val| := by rw [abs_mul, Operator.abs_sign, one_mul]
      _ ≤ l.literals.length * b + r.literals.length * b := add_le_add hl hr
      _ = (binary l o r).literals.length * b := by
        rw [literals, List.length_append, Nat.cast_add, add_mul]

/-- Every part is bounded as the whole expression is. -/
theorem abs_le_of_mem_partials (hb : 0 ≤ b) {e : Expr α} (h : ∀ a ∈ e.literals, |val a| ≤ b)
    {x : ℤ} (hx : x ∈ e.partials val) : |x| ≤ e.literals.length * b := by
  induction e with
  | literal a =>
    rw [List.mem_singleton.mp hx]
    exact abs_value_le h
  | unary o e ih =>
    rcases List.mem_cons.mp hx with rfl | hx
    · exact abs_value_le h
    · exact ih h hx
  | binary l o r ihl ihr =>
    have hlen : ((binary l o r).literals.length : ℤ) = l.literals.length + r.literals.length := by
      rw [literals, List.length_append, Nat.cast_add]
    rcases List.mem_cons.mp hx with rfl | hx
    · exact abs_value_le h
    · rw [hlen, add_mul]
      rcases List.mem_append.mp hx with hx | hx
      · exact (ihl (fun a ha => h a (List.mem_append_left _ ha)) hx).trans
          (le_add_of_nonneg_right (mul_nonneg (Nat.cast_nonneg _) hb))
      · exact (ihr (fun a ha => h a (List.mem_append_right _ ha)) hx).trans
          (le_add_of_nonneg_left (mul_nonneg (Nat.cast_nonneg _) hb))

end Bounds

end Expr

/-! ### Text -/

/-- An operand ends before the next operator, a sum at a parenthesis or at the
end. -/
inductive Level
  | operand
  | sum

/-- `Spells lit blank k e s`: the text `s` is a way to write `e`, where `lit`
says how literals are written and `blank` which characters are spacing.  Chains
of operators go from left to right, and parentheses make a sum an operand. -/
inductive Spells {α : Type} (lit : α → List Char → Prop) (blank : Char → Prop) :
    Level → Expr α → List Char → Prop
  | literal {a : α} {s : List Char} : lit a s → Spells lit blank .operand (.literal a) s
  | paren {e : Expr α} {s : List Char} :
      Spells lit blank .sum e s → Spells lit blank .operand e ('(' :: s ++ [')'])
  | unary {o : Operator} {e : Expr α} {s : List Char} :
      Spells lit blank .operand e s → Spells lit blank .operand (.unary o e) (o.char :: s)
  | operand {e : Expr α} {s : List Char} :
      Spells lit blank .operand e s → Spells lit blank .sum e s
  | binary {l r : Expr α} {o : Operator} {s t : List Char} :
      Spells lit blank .sum l s → Spells lit blank .operand r t →
        Spells lit blank .sum (.binary l o r) (s ++ o.char :: t)
  | blankLeft {k : Level} {e : Expr α} {s : List Char} {c : Char} :
      blank c → Spells lit blank k e s → Spells lit blank k e (c :: s)
  | blankRight {k : Level} {e : Expr α} {s : List Char} {c : Char} :
      blank c → Spells lit blank k e s → Spells lit blank k e (s ++ [c])

variable {α : Type} {lit : α → List Char → Prop} {blank : Char → Prop}

/-- If literals are not empty, a text has no more of them than characters. -/
theorem Spells.length_literals_le (hlit : ∀ a s, lit a s → s ≠ []) {k : Level} {e : Expr α}
    {s : List Char} (h : Spells lit blank k e s) : e.literals.length ≤ s.length := by
  induction h with
  | literal h => exact List.length_pos_iff.mpr (hlit _ _ h)
  | paren _ ih => simp only [List.length_append, List.length_cons]; omega
  | unary _ ih => exact ih.trans (Nat.le_succ _)
  | operand _ ih => exact ih
  | binary _ _ ihl ihr =>
    simp only [Expr.literals, List.length_append, List.length_cons]
    omega
  | blankLeft _ _ ih => exact ih.trans (Nat.le_succ _)
  | blankRight _ _ ih => rw [List.length_append]; omega

end AddSub
