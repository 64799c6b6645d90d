/-
The build script's expressions (`parse_add_sub_expr` and `extract_flash_info`
in `application/build.rs`).

The constants that place the CV sector are read from the linker script.  The
evaluator goes through the characters once; it keeps the sign of the last
operator and the characters since, and drops parentheses.

* `map_acc_flushed` — it adds up the literals with the operators in front of
  them;
* `parseAddSubExpr_eq` — what it returns, for any expression;
* `meets_iff` — when this is the value of the expression;
* `extractFlashInfo_eq` — then the constants are those of the linker script.
-/
import Rp2040Decoder.AddSub
import Rp2040Decoder.SizeLiteral

namespace Rp2040.BuildScript

open AddSub

/-! ### The evaluator -/

/-- A `&str`: no allocation has more than `isize::MAX` bytes. -/
structure Str where
  chars : List Char
  length_lt : chars.length < 2 ^ 63

/-- The range of `i128`. -/
def FitsI128 (n : ℤ) : Prop := -2 ^ 127 ≤ n ∧ n < 2 ^ 127

instance (n : ℤ) : Decidable (FitsI128 n) :=
  inferInstanceAs (Decidable (_ ∧ _))

/-- `i128::checked_add` -/
def checkedAddI128 (a b : ℤ) : Option ℤ := if FitsI128 (a + b) then some (a + b) else none

/-- `i128::saturating_mul` -/
def saturatingMulI128 (a b : ℤ) : ℤ := max (-2 ^ 127) (min (a * b) (2 ^ 127 - 1))

/-- The variables of the loop. -/
structure ExprState where
  acc : ℤ
  cur : List Char
  sign : ℤ

/-- Adds the literal read so far, if there is one. -/
def flush (st : ExprState) : Option ExprState :=
  let t := trim st.cur
  if t = [] then some st
  else do
    let v ← parseSizeLiteral t
    let acc ← checkedAddI128 st.acc (saturatingMulI128 st.sign v.toNat)
    some { st with acc, cur := [] }

/-- The body of the loop. -/
def step (st : ExprState) (ch : Char) : Option ExprState :=
  match ch with
  | '+' => do
    let st ← flush st
    some { st with sign := 1 }
  | '-' => do
    let st ← flush st
    some { st with sign := -1 }
  | '(' | ')' => some st
  | _ => some { st with cur := st.cur ++ [ch] }

/-- Evaluate a simple expression with + and - of literals supporting
K/M/hex/dec.  The cast at the end keeps the lower 64 bits. -/
def parseAddSubExpr (s : Str) : Option UInt64 := do
  let st ← s.chars.foldlM step ⟨0, [], 1⟩
  let st ← flush st
  if st.acc < 0 then none else some (UInt64.ofNat st.acc.toNat)

/-- The text of `flash_consts.rs`. -/
def flashConsts (origin flashLen : ℕ) : String :=
  "pub const CV_FLASH_ORIGIN: usize = " ++ toString origin ++ ";\n" ++
    "pub const CV_FLASH_SIZE: usize = " ++ toString flashLen ++ ";\n"

/-- The constants from the linker script `mem`; nothing if the script panics.
`captures` is what the regular expression matches as the origin and the length
of the region. -/
def extractFlashInfo (captures : Str → Option (Str × Str)) (mem : Str) : Option String := do
  let region ← captures mem
  let origin ← parseAddSubExpr region.1
  let flashLen ← parseAddSubExpr region.2
  return flashConsts origin.toNat flashLen.toNat

/-! ### One character -/

theorem step_operator (st : ExprState) (o : Operator) :
    step st o.char = (flush st).map fun st => { st with sign := o.sign } := by
  cases o <;> cases h : flush st <;> simp only [step, Operator.char, h] <;> rfl

/-- The characters that belong to no literal. -/
def Special (c : Char) : Prop := c = '+' ∨ c = '-' ∨ c = '(' ∨ c = ')'

theorem step_of_not_special (st : ExprState) {c : Char} (h : ¬ Special c) :
    step st c = some { st with cur := st.cur ++ [c] } := by
  simp only [Special, not_or] at h
  rw [step.eq_def]
  split <;> simp_all

theorem not_special {c : Char} (h : isWhitespace c ∨ (48 ≤ c.toNat ∧ c.toNat ≤ 122)) :
    ¬ Special c := by
  rintro (rfl | rfl | rfl | rfl) <;> revert h <;> decide

/-- Characters of a literal are collected. -/
theorem foldlM_of_not_special {s : List Char} (hs : ∀ c ∈ s, ¬ Special c) (st : ExprState) :
    s.foldlM step st = some { st with cur := st.cur ++ s } := by
  induction s generalizing st with
  | nil => rw [List.foldlM_nil, List.append_nil]; rfl
  | cons c s ih =>
    rw [List.foldlM_cons, step_of_not_special st (hs c List.mem_cons_self), Option.bind_eq_bind,
      Option.bind_some, ih fun c hc => hs c (List.mem_cons_of_mem _ hc), List.append_assoc,
      List.singleton_append]

theorem flush_of_blank {st : ExprState} (h : Blank st.cur) : flush st = some st := by
  rw [flush]
  exact if_pos (trim_of_blank h)

/-- After a flush there is no literal left to add. -/
theorem blank_of_flush {st st' : ExprState} (h : flush st = some st') : Blank st'.cur := by
  by_cases ht : trim st.cur = []
  · rw [flush, if_pos ht, Option.some.injEq] at h
    exact h ▸ blank_of_trim ht
  · simp only [flush, if_neg ht, Option.bind_eq_bind, Option.bind_eq_some_iff,
      Option.some.injEq] at h
    obtain ⟨v, -, acc, -, rfl⟩ := h
    exact blank_nil

/-- Spacing behind a literal changes nothing. -/
theorem map_acc_flush_concat (st : ExprState) {c : Char} (hc : isWhitespace c) :
    (flush { st with cur := st.cur ++ [c] }).map ExprState.acc =
      (flush st).map ExprState.acc := by
  rw [flush, flush]
  simp only [trim_concat_blank st.cur hc]
  by_cases ht : trim st.cur = []
  · rw [if_pos ht, if_pos ht]
    rfl
  · rw [if_neg ht, if_neg ht]

/-- Adds a literal with the operator in front of it. -/
def addOccurrence (acc : ℤ) (x : Occurrence Literal) : Option ℤ := do
  let v ← u64 x.literal.value
  checkedAddI128 acc (saturatingMulI128 x.written.sign v.toNat)

theorem map_acc_flush_of_spells {a : Literal} {s : List Char} (h : a.Spells s) {st : ExprState}
    (hcur : Blank st.cur) {written : Operator} (hsign : st.sign = written.sign)
    (counted : Operator) :
    (flush { st with cur := st.cur ++ s }).map ExprState.acc =
      addOccurrence st.acc ⟨a, counted, written⟩ := by
  have htrim : trim (st.cur ++ s) = s := trim_blanks_left hcur h.tight
  rw [flush]
  simp only [htrim]
  rw [if_neg h.tight.ne_nil, parseSizeLiteral_of_spells h, hsign, addOccurrence]
  cases u64 a.value with
  | none => rfl
  | some v =>
    simp only [Option.bind_eq_bind, Option.bind_some]
    cases checkedAddI128 st.acc (saturatingMulI128 written.sign v.toNat) <;> rfl

/-! ### The loop -/

/-- The loop over a text, and the flush behind it. -/
def flushed (st : ExprState) (s : List Char) : Option ExprState := (s.foldlM step st).bind flush

theorem blank_of_flushed {st st' : ExprState} {s : List Char} (h : flushed st s = some st') :
    Blank st'.cur := by
  obtain ⟨_, -, h⟩ := Option.bind_eq_some_iff.mp h
  exact blank_of_flush h

theorem flushed_append (st : ExprState) (s t : List Char) :
    flushed st (s ++ t) = (s.foldlM step st).bind fun st => flushed st t := by
  rw [flushed, List.foldlM_append, Option.bind_eq_bind, Option.bind_assoc]
  rfl

theorem flushed_cons (st : ExprState) (c : Char) (s : List Char) :
    flushed st (c :: s) = (step st c).bind fun st => flushed st s := by
  rw [flushed, List.foldlM_cons, Option.bind_eq_bind, Option.bind_assoc]
  rfl

theorem flushed_concat (st : ExprState) (s : List Char) (c : Char) :
    flushed st (s ++ [c]) =
      (s.foldlM step st).bind fun st => (step st c).bind flush := by
  rw [flushed_append]
  exact Option.bind_congr fun st _ => flushed_cons st c []

/-- An operator starts what is behind it with its sign, and what the flush
leaves. -/
theorem flushed_operator (st : ExprState) (o : Operator) (s : List Char) :
    flushed st (o.char :: s) =
      (flush st).bind fun st => flushed { st with sign := o.sign } s := by
  rw [flushed_cons, step_operator, Option.bind_map]
  rfl

/-- **The loop adds up the literals** of an expression, each with the operator
in front of it. -/
theorem map_acc_flushed {k : Level} {e : Expr Literal} {s : List Char}
    (h : Spells Literal.Spells (fun c => isWhitespace c) k e s) :
    ∀ (st : ExprState) (counted written : Operator), Blank st.cur → st.sign = written.sign →
      (flushed st s).map ExprState.acc =
        (e.occurrences counted written).foldlM addOccurrence st.acc := by
  induction h with
  | @literal a s h =>
    intro st counted written hcur hsign
    have hs : ∀ c ∈ s, ¬ Special c := fun c hc => not_special (h.mem c hc)
    rw [flushed, foldlM_of_not_special hs, Option.bind_some,
      map_acc_flush_of_spells h hcur hsign counted]
    exact (bind_pure _).symm
  | @paren e s h ih =>
    intro st counted written hcur hsign
    rw [List.cons_append, flushed_cons]
    show (flushed st (s ++ [')'])).map _ = _
    rw [flushed_concat]
    exact ih st counted written hcur hsign
  | @unary o e s h ih =>
    intro st counted written hcur hsign
    rw [flushed_operator, flush_of_blank hcur, Option.bind_some]
    exact ih _ (counted.comp o) o hcur rfl
  | operand h ih => exact ih
  | @binary l r o s t hl hr ihl ihr =>
    intro st counted written hcur hsign
    have hsplit : flushed st (s ++ o.char :: t) =
        (flushed st s).bind fun st => flushed { st with sign := o.sign } t := by
      rw [flushed_append, flushed, Option.bind_assoc]
      exact Option.bind_congr fun st _ => flushed_operator st o t
    have hleft := ihl st counted written hcur hsign
    rw [hsplit, Expr.occurrences, List.foldlM_append, ← hleft]
    cases hst : flushed st s with
    | none => rfl
    | some st' =>
      have hcur' : Blank st'.cur := blank_of_flushed hst
      exact ihr _ (counted.comp o) o hcur' rfl
  | @blankLeft k e s c hc h ih =>
    intro st counted written hcur hsign
    rw [flushed_cons, step_of_not_special st (not_special (Or.inl hc)), Option.bind_some]
    refine ih _ counted written (fun d hd => ?_) hsign
    rcases List.mem_append.mp hd with hd | hd
    · exact hcur d hd
    · exact List.mem_singleton.mp hd ▸ hc
  | @blankRight k e s c hc h ih =>
    intro st counted written hcur hsign
    rw [flushed_concat, ← ih st counted written hcur hsign, flushed, Option.map_bind,
      Option.map_bind]
    refine Option.bind_congr fun st _ => ?_
    rw [Function.comp_apply, step_of_not_special st (not_special (Or.inl hc)), Option.bind_some]
    exact map_acc_flush_concat st hc

/-! ### The sum -/

/-- Literals as numbers. -/
def literalValue (a : Literal) : ℤ := a.value

theorem saturatingMulI128_sign (o : Operator) {v : ℕ} (hv : v < 2 ^ 64) :
    saturatingMulI128 o.sign v = o.sign * v := by
  rw [saturatingMulI128]
  cases o <;> simp only [Operator.sign] <;> omega

/-- A literal that is a `u64`, added to a sum with some room left. -/
theorem addOccurrence_eq {acc : ℤ} {x : Occurrence Literal} (hx : x.literal.value < 2 ^ 64)
    (hacc : acc.natAbs + (2 ^ 64 - 1) < 2 ^ 127) :
    addOccurrence acc x = some (acc + x.written.sign * literalValue x.literal) := by
  have hfits : FitsI128 (acc + x.written.sign * literalValue x.literal) := by
    rw [FitsI128, literalValue]
    cases x.written <;> simp only [Operator.sign] <;> omega
  rw [addOccurrence, u64, if_pos hx, Option.bind_eq_bind, Option.bind_some,
    UInt64.toNat_ofNat_of_lt' hx, saturatingMulI128_sign _ hx, checkedAddI128, ← literalValue,
    if_pos hfits]

/-- Literals that are a `u64`, and few enough of them: the sum is exact. -/
theorem foldlM_addOccurrence {xs : List (Occurrence Literal)}
    (hxs : ∀ x ∈ xs, x.literal.value < 2 ^ 64) {acc : ℤ}
    (hacc : acc.natAbs + xs.length * (2 ^ 64 - 1) < 2 ^ 127) :
    xs.foldlM addOccurrence acc =
      some (acc + (xs.map fun x => x.written.sign * literalValue x.literal).sum) := by
  induction xs generalizing acc with
  | nil => rw [List.foldlM_nil, List.map_nil, List.sum_nil, add_zero]; rfl
  | cons x xs ih =>
    have hx := hxs x List.mem_cons_self
    rw [List.length_cons] at hacc
    have hroom : (acc + x.written.sign * literalValue x.literal).natAbs +
        xs.length * (2 ^ 64 - 1) < 2 ^ 127 := by
      rw [literalValue]
      cases x.written <;> simp only [Operator.sign] <;> omega
    rw [List.foldlM_cons, addOccurrence_eq hx (by omega), Option.bind_eq_bind, Option.bind_some,
      ih (fun y hy => hxs y (List.mem_cons_of_mem _ hy)) hroom, List.map_cons, List.sum_cons,
      add_assoc]

/-- A literal that is no `u64` ends the loop. -/
theorem foldlM_addOccurrence_eq_none {xs : List (Occurrence Literal)}
    (hxs : ∃ x ∈ xs, 2 ^ 64 ≤ x.literal.value) (acc : ℤ) :
    xs.foldlM addOccurrence acc = none := by
  obtain ⟨x, hx, hlarge⟩ := hxs
  obtain ⟨l, r, rfl⟩ := List.append_of_mem hx
  have hnone : ∀ acc, addOccurrence acc x = none := by
    intro acc
    rw [addOccurrence, u64, if_neg (by omega)]
    rfl
  rw [List.foldlM_append]
  cases l.foldlM addOccurrence acc with
  | none => rfl
  | some acc => rw [Option.bind_eq_bind, Option.bind_some, List.foldlM_cons, hnone]; rfl

/-! ### The value -/

/-- Some literal is no `u64`. -/
def TooLarge (e : Expr Literal) : Prop := ∃ a ∈ e.literals, 2 ^ 64 ≤ a.value

instance (e : Expr Literal) : Decidable (TooLarge e) :=
  decidable_of_iff (e.literals.any fun a => decide (2 ^ 64 ≤ a.value)) (by simp [TooLarge])

/-- No literal and no partial sum leaves its integer type. -/
def Fits (e : Expr Literal) : Prop :=
  (∀ a ∈ e.literals, a.value < 2 ^ 64) ∧ ∀ n ∈ e.partials literalValue, FitsI128 n

instance (e : Expr Literal) : Decidable (Fits e) :=
  decidable_of_iff ((e.literals.all fun a => decide (a.value < 2 ^ 64)) ∧
    (e.partials literalValue).all fun n => decide (FitsI128 n)) (by simp [Fits])

/-- The text `s` is a way to write the expression `e`, with any spacing. -/
def Writes (e : Expr Literal) (s : Str) : Prop :=
  Spells Literal.Spells (fun c => isWhitespace c) .sum e s.chars

/-- The evaluator returns the value of `e`, if it is not negative and nothing
leaves its type. -/
def Meets (e : Expr Literal) (s : Str) : Prop :=
  (parseAddSubExpr s).map (fun v => (v.toNat : ℤ)) =
    if Fits e ∧ 0 ≤ e.value literalValue then some (e.value literalValue) else none

instance (e : Expr Literal) (s : Str) : Decidable (Meets e s) :=
  inferInstanceAs (Decidable (_ = _))

theorem abs_literalValue_le {e : Expr Literal} (hlarge : ¬ TooLarge e) :
    ∀ a ∈ e.literals, |literalValue a| ≤ 2 ^ 64 - 1 := by
  intro a ha
  have hlt : a.value < 2 ^ 64 := Nat.lt_of_not_le fun h => hlarge ⟨a, ha, h⟩
  rw [literalValue, Nat.abs_cast]
  omega

theorem length_literals_lt {e : Expr Literal} {s : Str} (h : Writes e s) :
    e.literals.length < 2 ^ 63 :=
  (h.length_literals_le fun _ _ hs => hs.tight.ne_nil).trans_lt s.length_lt

/-- A text is too short for a partial sum to leave its type. -/
theorem fits_of_not_tooLarge {e : Expr Literal} {s : Str} (h : Writes e s)
    (hlarge : ¬ TooLarge e) : Fits e := by
  refine ⟨fun a ha => Nat.lt_of_not_le fun hle => hlarge ⟨a, ha, hle⟩, fun n hn => ?_⟩
  have hbound : |n| ≤ e.literals.length * (2 ^ 64 - 1) :=
    Expr.abs_le_of_mem_partials (by decide) (abs_literalValue_le hlarge) hn
  have hlength := length_literals_lt h
  obtain ⟨h₁, h₂⟩ := abs_le.mp hbound
  constructor <;> omega

/-- What the evaluator returns: the sum of the literals with the operators in
front of them, in 64 bits. -/
theorem parseAddSubExpr_eq {e : Expr Literal} {s : Str} (h : Writes e s) :
    parseAddSubExpr s =
      if TooLarge e ∨ e.value literalValue < 2 * e.turnedSum literalValue then none
      else some (UInt64.ofNat (e.value literalValue - 2 * e.turnedSum literalValue).toNat) := by
  have hloop : parseAddSubExpr s = ((flushed ⟨0, [], 1⟩ s.chars).map ExprState.acc).bind
      fun acc => if acc < 0 then none else some (UInt64.ofNat acc.toNat) := by
    rw [Option.bind_map, flushed, Option.bind_assoc]
    rfl
  rw [hloop, map_acc_flushed h _ .plus .plus blank_nil rfl]
  have hmem := Expr.map_literal_occurrences e .plus .plus
  by_cases hlarge : TooLarge e
  · obtain ⟨a, ha, hle⟩ := hlarge
    obtain ⟨x, hx, rfl⟩ := List.mem_map.mp (hmem ▸ ha)
    rw [foldlM_addOccurrence_eq_none ⟨x, hx, hle⟩, if_pos (Or.inl ⟨x.literal, ha, hle⟩)]
    rfl
  · have hlength : (e.occurrences .plus .plus).length < 2 ^ 63 := by
      rw [← List.length_map Occurrence.literal, hmem]
      exact length_literals_lt h
    have hfit : ∀ x ∈ e.occurrences .plus .plus, x.literal.value < 2 ^ 64 := fun x hx =>
      Nat.lt_of_not_le fun hle => hlarge ⟨x.literal, Expr.literal_mem_of_mem hx, hle⟩
    have hroom : (0 : ℤ).natAbs + (e.occurrences .plus .plus).length * (2 ^ 64 - 1) < 2 ^ 127 := by
      rw [Int.natAbs_zero]
      omega
    rw [foldlM_addOccurrence hfit hroom, zero_add, Expr.sum_written, Option.bind_some]
    by_cases hneg : e.value literalValue < 2 * e.turnedSum literalValue
    · rw [if_pos (by omega), if_pos (Or.inr hneg)]
    · rw [if_neg (by omega), if_neg (not_or.mpr ⟨hlarge, hneg⟩)]

/-! ### Exactness -/

/-- The lower 64 bits of a number that is off by twice another one. -/
theorem toNat_lower_eq_iff {v t : ℤ} (h : 2 * t ≤ v) :
    ((UInt64.ofNat (v - 2 * t).toNat).toNat : ℤ) = v ↔ 0 ≤ v ∧ v < 2 ^ 64 ∧ 2 ^ 63 ∣ t := by
  rw [UInt64.toNat_ofNat']
  omega

/-- An expression with a literal that is too large is refused, as it should
be. -/
theorem meets_of_tooLarge {e : Expr Literal} {s : Str} (h : Writes e s) (hlarge : TooLarge e) :
    Meets e s := by
  obtain ⟨a, ha, hle⟩ := id hlarge
  rw [Meets, parseAddSubExpr_eq h, if_pos (Or.inl hlarge),
    if_neg fun hfits => absurd (hfits.1.1 a ha) (Nat.not_lt_of_le hle)]
  rfl

/-- Of the other expressions, those that are evaluated rightly. -/
theorem meets_iff_of_not_tooLarge {e : Expr Literal} {s : Str} (h : Writes e s)
    (hlarge : ¬ TooLarge e) :
    Meets e s ↔
      (0 ≤ e.value literalValue ∧ e.value literalValue < 2 ^ 64 ∧
        2 * e.turnedSum literalValue ≤ e.value literalValue ∧
        2 ^ 63 ∣ e.turnedSum literalValue) ∨
      (e.value literalValue < 0 ∧ e.value literalValue < 2 * e.turnedSum literalValue) := by
  have hfits := fits_of_not_tooLarge h hlarge
  rw [Meets, parseAddSubExpr_eq h]
  by_cases hneg : e.value literalValue < 2 * e.turnedSum literalValue
  · rw [if_pos (Or.inr hneg), Option.map_none]
    by_cases hpos : 0 ≤ e.value literalValue
    · rw [if_pos ⟨hfits, hpos⟩]
      exact iff_of_false nofun (by omega)
    · rw [if_neg fun hf => hpos hf.2]
      exact iff_of_true rfl (by omega)
  · rw [if_neg (not_or.mpr ⟨hlarge, hneg⟩), Option.map_some]
    by_cases hpos : 0 ≤ e.value literalValue
    · rw [if_pos ⟨hfits, hpos⟩, Option.some.injEq, toNat_lower_eq_iff (by omega)]
      omega
    · rw [if_neg fun hf => hpos hf.2]
      exact iff_of_false nofun (by omega)

/-- **The evaluator is exact** on the expressions with a literal that is too
large, which it refuses, and on those whose turned literals cannot be seen in
the lower 64 bits of a value that is a `u64`, or in the sign of a negative
one.  Without turned literals that is every value up to `u64::MAX`. -/
theorem meets_iff {e : Expr Literal} {s : Str} (h : Writes e s) :
    (Meets e s ↔
      TooLarge e ∨
      (0 ≤ e.value literalValue ∧ e.value literalValue < 2 ^ 64 ∧
        2 * e.turnedSum literalValue ≤ e.value literalValue ∧
        2 ^ 63 ∣ e.turnedSum literalValue) ∨
      (e.value literalValue < 0 ∧ e.value literalValue < 2 * e.turnedSum literalValue)) ∧
    ((∀ x ∈ e.occurrences .plus .plus, ¬ x.Turned) →
      (Meets e s ↔ TooLarge e ∨ e.value literalValue < 2 ^ 64)) := by
  by_cases hlarge : TooLarge e
  · have hmeets := meets_of_tooLarge h hlarge
    exact ⟨iff_of_true hmeets (Or.inl hlarge), fun _ => iff_of_true hmeets (Or.inl hlarge)⟩
  · rw [meets_iff_of_not_tooLarge h hlarge, or_iff_right hlarge, or_iff_right hlarge]
    refine ⟨Iff.rfl, fun hturned => ?_⟩
    rw [Expr.turnedSum_of_not_turned literalValue hturned]
    constructor
    · omega
    · intro hlt
      by_cases hpos : 0 ≤ e.value literalValue
      · exact Or.inl ⟨hpos, hlt, by omega, Int.dvd_zero _⟩
      · exact Or.inr (by omega)

/-- `0x10000000` -/
def flashStart : Literal := ⟨.lowerHex, "10000000".toList, .none, by decide, by decide⟩

/-- `2048K` -/
def flashLength : Literal := ⟨.decimal, "2048".toList, .kilo, by decide, by decide⟩

/-- `128K` -/
def cvLength : Literal := ⟨.decimal, "128".toList, .kilo, by decide, by decide⟩

/-- `64K` -/
def halfLength : Literal := ⟨.decimal, "64".toList, .kilo, by decide, by decide⟩

/-- The origin of `CV_FLASH` in `memory.x`. -/
def memoryOrigin : Expr Literal :=
  .binary (.binary (.literal flashStart) .plus (.literal flashLength)) .minus (.literal cvLength)

def memoryOriginText : Str := ⟨"0x10000000 + 2048K - 128K".toList, by decide⟩

theorem spells_numberChars (a : Literal) :
    Spells Literal.Spells (fun c => isWhitespace c) .operand (.literal a)
      (a.numberChars ++ a.suffix.chars) :=
  .literal ⟨[], blank_nil, fun _ => rfl, rfl⟩

/-- An operator with a blank on either side. -/
theorem spells_binary {l r : Expr Literal} {s t : List Char} (o : Operator)
    (hl : Spells Literal.Spells (fun c => isWhitespace c) .sum l s)
    (hr : Spells Literal.Spells (fun c => isWhitespace c) .operand r t) :
    Spells Literal.Spells (fun c => isWhitespace c) .sum (.binary l o r)
      (s ++ [' '] ++ o.char :: ' ' :: t) :=
  .binary (.blankRight rfl hl) (.blankLeft rfl hr)

theorem writes_memoryOrigin : Writes memoryOrigin memoryOriginText :=
  spells_binary .minus
    (spells_binary .plus (.operand (spells_numberChars flashStart))
      (spells_numberChars flashLength))
    (spells_numberChars cvLength)

/-- The origin of the CV sector is evaluated rightly. -/
theorem meets_memoryOrigin : Meets memoryOrigin memoryOriginText :=
  ((meets_iff writes_memoryOrigin).2
    (by simp [memoryOrigin, Expr.occurrences, Occurrence.Turned, Operator.comp])).mpr
    (Or.inr (by decide))

/-- The same origin, with the length of the sector as a sum in parentheses. -/
def splitOrigin : Expr Literal :=
  .binary (.binary (.literal flashStart) .plus (.literal flashLength)) .minus
    (.binary (.literal halfLength) .plus (.literal halfLength))

def splitOriginText : Str := ⟨"0x10000000 + 2048K - (64K + 64K)".toList, by decide⟩

theorem writes_splitOrigin : Writes splitOrigin splitOriginText :=
  spells_binary .minus
    (spells_binary .plus (.operand (spells_numberChars flashStart))
      (spells_numberChars flashLength))
    (.paren (spells_binary .plus (.operand (spells_numberChars halfLength))
      (spells_numberChars halfLength)))

/-- Parentheses behind a `-`: the second term in them is added and not
subtracted, which places the sector behind the flash. -/
theorem not_meets_splitOrigin :
    ¬ (∀ (e : Expr Literal) (s : Str), Writes e s → Meets e s) ∧
      splitOrigin.value literalValue = 0x101E0000 ∧
      parseAddSubExpr splitOriginText = some 0x10200000 :=
  ⟨fun h => absurd (h _ _ writes_splitOrigin) (by decide), by decide, by decide⟩

/-- A value above `u64::MAX` is cut off. -/
example : parseAddSubExpr ⟨"0xFFFFFFFFFFFFFFFF + 1".toList, by decide⟩ = some 0 := by decide

/-! ### The linker script -/

theorem parseAddSubExpr_of_not_turned {e : Expr Literal} {s : Str} (h : Writes e s)
    (hlarge : ¬ TooLarge e) (hturned : ∀ x ∈ e.occurrences .plus .plus, ¬ x.Turned)
    (hpos : 0 ≤ e.value literalValue) :
    parseAddSubExpr s = some (UInt64.ofNat (e.value literalValue).toNat) := by
  rw [parseAddSubExpr_eq h, Expr.turnedSum_of_not_turned literalValue hturned, mul_zero, sub_zero,
    if_neg (not_or.mpr ⟨hlarge, Int.not_lt.mpr hpos⟩)]

/-- The constants are the origin and the length in the linker script, if these
are a `u64` and written without turned literals. -/
theorem extractFlashInfo_eq {captures : Str → Option (Str × Str)} {mem origin length : Str}
    (hregion : captures mem = some (origin, length)) {e₁ e₂ : Expr Literal}
    (h₁ : Writes e₁ origin) (h₂ : Writes e₂ length)
    (he : ∀ e ∈ [e₁, e₂], ¬ TooLarge e ∧ (∀ x ∈ e.occurrences .plus .plus, ¬ x.Turned) ∧
      0 ≤ e.value literalValue ∧ e.value literalValue < 2 ^ 64) :
    extractFlashInfo captures mem =
      some (flashConsts (e₁.value literalValue).toNat (e₂.value literalValue).toNat) := by
  obtain ⟨hlarge₁, hturned₁, hpos₁, hlt₁⟩ := he e₁ List.mem_cons_self
  obtain ⟨hlarge₂, hturned₂, hpos₂, hlt₂⟩ := he e₂ (List.mem_cons_of_mem _ List.mem_cons_self)
  have hfit₁ : (e₁.value literalValue).toNat < 2 ^ 64 := by omega
  have hfit₂ : (e₂.value literalValue).toNat < 2 ^ 64 := by omega
  rw [extractFlashInfo, hregion, Option.bind_eq_bind, Option.bind_some,
    parseAddSubExpr_of_not_turned h₁ hlarge₁ hturned₁ hpos₁, Option.bind_eq_bind, Option.bind_some,
    parseAddSubExpr_of_not_turned h₂ hlarge₂ hturned₂ hpos₂, Option.bind_some,
    UInt64.toNat_ofNat_of_lt' hfit₁, UInt64.toNat_ofNat_of_lt' hfit₂]
  rfl

end Rp2040.BuildScript
