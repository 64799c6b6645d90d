/-
The number literals of the build script (`parse_size_literal` and
`parse_number` in `application/build.rs`).

A literal is decimal or, behind `0x`, hexadecimal, and may count in units of
1024 or 1024 · 1024 with a suffix `K` or `M`.  Every operation is checked.

* `foldlM_pushDigit` — digits are read as the number they spell, if it is a `u64`;
* `trim_blanks` — spacing around a text without outer spacing is trimmed;
* `Literal` — a literal, and `Literal.Spells`, how it is written;
* `parseSizeLiteral_of_spells` — a literal is read as its value, if that is a
  `u64`.
-/
import Mathlib.Algebra.Group.Nat.Defs
import Mathlib.Data.List.DropRight

namespace Rp2040.BuildScript

/-! ### The parser -/

/-- The Unicode property `White_Space`. -/
def isWhitespace (c : Char) : Bool :=
  let n := c.toNat
  (0x9 ≤ n && n ≤ 0xD) || n = 0x20 || n = 0x85 || n = 0xA0 || n = 0x1680 ||
    (0x2000 ≤ n && n ≤ 0x200A) || n = 0x2028 || n = 0x2029 || n = 0x202F || n = 0x205F ||
    n = 0x3000

/-- `str::trim` -/
def trim (s : List Char) : List Char := (s.dropWhile isWhitespace).rdropWhile isWhitespace

/-- A number as a `u64`, if it is one. -/
def u64 (n : ℕ) : Option UInt64 := if n < 2 ^ 64 then some (UInt64.ofNat n) else none

def checkedAdd (a b : UInt64) : Option UInt64 := u64 (a.toNat + b.toNat)

def checkedMul (a b : UInt64) : Option UInt64 := u64 (a.toNat * b.toNat)

/-- `char::to_digit` -/
def toDigit (radix : ℕ) (c : Char) : Option ℕ :=
  let digit :=
    if c.isDigit then some (c.toNat - 48)
    else if c.isLower then some (c.toNat - 87)
    else if c.isUpper then some (c.toNat - 55)
    else none
  digit.filter (· < radix)

/-- One more digit in the loop of `u64::from_str_radix`. -/
def pushDigit (radix : ℕ) (result : UInt64) (c : Char) : Option UInt64 := do
  let result ← checkedMul result (UInt64.ofNat radix)
  let x ← toDigit radix c
  checkedAdd result (UInt64.ofNat x)

/-- `u64::from_str_radix`, which allows a leading `+`. -/
def fromStrRadix (src : List Char) (radix : ℕ) : Option UInt64 :=
  let digits := (['+'].isPrefixOf? src).getD src
  if digits = [] then none else digits.foldlM (pushDigit radix) 0

def parseNumber (s : List Char) : Option UInt64 :=
  let s := trim s
  match (['0', 'x'].isPrefixOf? s).or (['0', 'X'].isPrefixOf? s) with
  | some hex => fromStrRadix hex 16
  | none => fromStrRadix s 10

def parseSizeLiteral (s : List Char) : Option UInt64 :=
  let t := trim s
  match ['K'].isSuffixOf? t with
  | some num => do
    let v ← parseNumber (trim num)
    checkedMul v 1024
  | none =>
    match ['M'].isSuffixOf? t with
    | some num => do
      let v ← parseNumber (trim num)
      checkedMul v (1024 * 1024)
    | none => parseNumber t

/-! ### Spacing -/

/-- Nothing but spacing. -/
def Blank (s : List Char) : Prop := ∀ c ∈ s, isWhitespace c

theorem blank_nil : Blank [] := fun _ hc => absurd hc List.not_mem_nil

/-- A text without spacing at its ends. -/
structure Tight (s : List Char) : Prop where
  ne_nil : s ≠ []
  head : ∀ c ∈ s.head?, isWhitespace c = false
  last : ∀ c ∈ s.getLast?, isWhitespace c = false

theorem tight_of_forall {s : List Char} (hne : s ≠ []) (h : ∀ c ∈ s, isWhitespace c = false) :
    Tight s :=
  ⟨hne, fun c hc => h c (List.mem_of_mem_head? hc), fun c hc => h c (List.mem_of_getLast? hc)⟩

theorem trim_of_blank {s : List Char} (h : Blank s) : trim s = [] := by
  rw [trim, List.dropWhile_eq_nil_iff.mpr h, List.rdropWhile_nil]

theorem blank_of_trim {s : List Char} (h : trim s = []) : Blank s := by
  intro c hc
  rw [← List.takeWhile_append_dropWhile (p := isWhitespace) (l := s)] at hc
  rcases List.mem_append.mp hc with hc | hc
  · exact List.mem_takeWhile_imp hc
  · exact List.rdropWhile_eq_nil_iff.mp h c hc

theorem dropWhile_blanks {l s : List Char} (hl : Blank l)
    (hs : ∀ c ∈ s.head?, isWhitespace c = false) : (l ++ s).dropWhile isWhitespace = s := by
  rw [List.dropWhile_append_of_pos hl]
  cases s with
  | nil => rfl
  | cons c s => rw [List.dropWhile_cons, if_neg (by simpa using hs c rfl)]

/-- Spacing around a text is trimmed. -/
theorem trim_blanks {l s r : List Char} (hl : Blank l) (hs : Tight s) (hr : Blank r) :
    trim (l ++ (s ++ r)) = s := by
  have hhead : (s ++ r).head? = s.head? := List.head?_append_of_ne_nil s hs.ne_nil
  rw [trim, dropWhile_blanks hl (hhead ▸ hs.head), List.rdropWhile, List.reverse_append,
    dropWhile_blanks (fun c hc => hr c (List.mem_reverse.mp hc))
      (List.head?_reverse ▸ hs.last), List.reverse_reverse]

theorem trim_blanks_left {l s : List Char} (hl : Blank l) (hs : Tight s) : trim (l ++ s) = s := by
  have h := trim_blanks hl hs blank_nil
  rwa [List.append_nil] at h

theorem trim_blanks_right {s r : List Char} (hs : Tight s) (hr : Blank r) : trim (s ++ r) = s :=
  trim_blanks blank_nil hs hr

theorem trim_of_tight {s : List Char} (hs : Tight s) : trim s = s := trim_blanks_left blank_nil hs

theorem trim_concat_blank (s : List Char) {c : Char} (hc : isWhitespace c) :
    trim (s ++ [c]) = trim s := by
  rw [trim, trim, List.dropWhile_append]
  by_cases h : (s.dropWhile isWhitespace).isEmpty
  · rw [if_pos h, List.isEmpty_iff.mp h, List.dropWhile_cons, if_pos hc, List.dropWhile_nil]
  · rw [if_neg h, List.rdropWhile_concat_pos _ _ _ hc]

/-! ### Digits -/

theorem isDigit_iff {c : Char} : c.isDigit ↔ 48 ≤ c.toNat ∧ c.toNat ≤ 57 := by
  show (decide ('0'.val ≤ c.val) && decide (c.val ≤ '9'.val)) = true ↔ _
  rw [Bool.and_eq_true, decide_eq_true_eq, decide_eq_true_eq]
  exact Iff.rfl

theorem isLower_iff {c : Char} : c.isLower ↔ 97 ≤ c.toNat ∧ c.toNat ≤ 122 := by
  show (decide ('a'.val ≤ c.val) && decide (c.val ≤ 'z'.val)) = true ↔ _
  rw [Bool.and_eq_true, decide_eq_true_eq, decide_eq_true_eq]
  exact Iff.rfl

theorem isUpper_iff {c : Char} : c.isUpper ↔ 65 ≤ c.toNat ∧ c.toNat ≤ 90 := by
  show decide ('A'.val ≤ c.val ∧ c.val ≤ 'Z'.val) = true ↔ _
  rw [decide_eq_true_eq]
  exact Iff.rfl

/-- A digit is a decimal digit or a letter, one of the first few. -/
theorem toNat_of_toDigit {radix x : ℕ} {c : Char} (h : toDigit radix c = some x) :
    x < radix ∧ (c.toNat = x + 48 ∨ c.toNat = x + 87 ∨ c.toNat = x + 55) ∧
      48 ≤ c.toNat ∧ c.toNat ≤ 122 := by
  obtain ⟨h, hlt⟩ := Option.filter_eq_some_iff.mp h
  rw [decide_eq_true_eq] at hlt
  refine ⟨hlt, ?_⟩
  by_cases hd : c.isDigit
  · rw [if_pos hd, Option.some.injEq] at h
    rw [isDigit_iff] at hd
    omega
  by_cases hl : c.isLower
  · rw [if_neg hd, if_pos hl, Option.some.injEq] at h
    rw [isLower_iff] at hl
    omega
  by_cases hu : c.isUpper
  · rw [if_neg hd, if_neg hl, if_pos hu, Option.some.injEq] at h
    rw [isUpper_iff] at hu
    omega
  · rw [if_neg hd, if_neg hl, if_neg hu] at h
    cases h

/-- There is no spacing among the digits and letters. -/
theorem isWhitespace_of_toNat {c : Char} (h : 48 ≤ c.toNat ∧ c.toNat ≤ 122) :
    isWhitespace c = false := by
  simp only [isWhitespace, Bool.or_eq_false_iff, Bool.and_eq_false_iff, decide_eq_false_iff_not]
  omega

/-- The number that digits spell behind those that are read already. -/
def digitsValue (radix n : ℕ) (digits : List Char) : ℕ :=
  digits.foldl (fun n c => n * radix + (toDigit radix c).getD 0) n

theorem le_digitsValue {radix : ℕ} (hradix : 1 ≤ radix) (digits : List Char) (n : ℕ) :
    n ≤ digitsValue radix n digits := by
  induction digits generalizing n with
  | nil => exact Nat.le_refl n
  | cons c digits ih =>
    calc n ≤ n * radix + (toDigit radix c).getD 0 :=
        (Nat.le_mul_of_pos_right n hradix).trans (Nat.le_add_right _ _)
      _ ≤ digitsValue radix n (c :: digits) := ih _

theorem u64_of_le {n m : ℕ} (h : n ≤ m) (hn : u64 n = none) : u64 m = none := by
  rw [u64, if_neg]
  intro hm
  rw [u64, if_pos (h.trans_lt hm)] at hn
  cases hn

theorem toNat_of_u64 {n : ℕ} {v : UInt64} (h : u64 n = some v) : v.toNat = n ∧ n < 2 ^ 64 := by
  by_cases hn : n < 2 ^ 64
  · rw [u64, if_pos hn, Option.some.injEq] at h
    exact ⟨by rw [← h]; exact UInt64.toNat_ofNat_of_lt' hn, hn⟩
  · rw [u64, if_neg hn] at h
    cases h

theorem pushDigit_eq {radix x : ℕ} (hradix : radix < 2 ^ 64) (result : UInt64) {c : Char}
    (hx : toDigit radix c = some x) :
    pushDigit radix result c = u64 (result.toNat * radix + x) := by
  have hlt := (toNat_of_toDigit hx).1
  rw [pushDigit, checkedMul, UInt64.toNat_ofNat_of_lt' hradix]
  cases hmul : u64 (result.toNat * radix) with
  | none =>
    rw [u64_of_le (Nat.le_add_right _ _) hmul]
    rfl
  | some r =>
    rw [Option.bind_eq_bind, Option.bind_some, hx]
    show u64 (r.toNat + (UInt64.ofNat x).toNat) = _
    rw [(toNat_of_u64 hmul).1, UInt64.toNat_ofNat_of_lt' (hlt.trans hradix)]

/-- Digits are read as the number they spell, if it is a `u64`. -/
theorem foldlM_pushDigit {radix : ℕ} (hpos : 1 ≤ radix) (hradix : radix < 2 ^ 64)
    {digits : List Char} (hdigits : ∀ c ∈ digits, (toDigit radix c).isSome) (result : UInt64) :
    digits.foldlM (pushDigit radix) result = u64 (digitsValue radix result.toNat digits) := by
  induction digits generalizing result with
  | nil =>
    rw [digitsValue, List.foldl_nil, u64, if_pos result.toNat_lt, UInt64.ofNat_toNat]
    rfl
  | cons c digits ih =>
    obtain ⟨x, hx⟩ := Option.isSome_iff_exists.mp (hdigits c List.mem_cons_self)
    have hvalue : digitsValue radix result.toNat (c :: digits) =
        digitsValue radix (result.toNat * radix + x) digits := by
      rw [digitsValue, List.foldl_cons, hx, Option.getD_some, ← digitsValue]
    rw [List.foldlM_cons, pushDigit_eq hradix result hx, hvalue]
    cases hstep : u64 (result.toNat * radix + x) with
    | none =>
      rw [u64_of_le (le_digitsValue hpos digits _) hstep]
      rfl
    | some r =>
      rw [Option.bind_eq_bind, Option.bind_some,
        ih (fun c hc => hdigits c (List.mem_cons_of_mem _ hc)), (toNat_of_u64 hstep).1]

/-! ### Literals -/

inductive Radix
  | decimal
  | lowerHex
  | upperHex
  deriving DecidableEq, Repr

namespace Radix

def base : Radix → ℕ
  | decimal => 10
  | lowerHex => 16
  | upperHex => 16

/-- What stands in front of the digits. -/
def sigil : Radix → List Char
  | decimal => []
  | lowerHex => ['0', 'x']
  | upperHex => ['0', 'X']

theorem base_mem (r : Radix) : 10 ≤ r.base ∧ r.base ≤ 16 := by
  cases r <;> decide

end Radix

inductive Suffix
  | none
  | kilo
  | mega
  deriving DecidableEq, Repr

namespace Suffix

def factor : Suffix → ℕ
  | none => 1
  | kilo => 1024
  | mega => 1024 * 1024

def chars : Suffix → List Char
  | none => []
  | kilo => ['K']
  | mega => ['M']

end Suffix

/-- A decimal or hexadecimal literal, optionally with a suffix. -/
structure Literal where
  radix : Radix
  digits : List Char
  suffix : Suffix
  digits_ne_nil : digits ≠ []
  all_digits : digits.all fun c => (toDigit radix.base c).isSome

namespace Literal

theorem isSome_toDigit (a : Literal) : ∀ c ∈ a.digits, (toDigit a.radix.base c).isSome :=
  List.all_eq_true.mp a.all_digits

def number (a : Literal) : ℕ := digitsValue a.radix.base 0 a.digits

def value (a : Literal) : ℕ := a.number * a.suffix.factor

/-- The digits of a literal with what stands in front of them. -/
def numberChars (a : Literal) : List Char := a.radix.sigil ++ a.digits

/-- The text `s` is a way to write `a`: there may be spacing in front of a
suffix. -/
def Spells (a : Literal) (s : List Char) : Prop :=
  ∃ blanks, Blank blanks ∧ (a.suffix = .none → blanks = []) ∧
    s = a.numberChars ++ (blanks ++ a.suffix.chars)

theorem toNat_of_mem_digits {a : Literal} {c : Char} (hc : c ∈ a.digits) :
    48 ≤ c.toNat ∧ c.toNat ≤ 122 := by
  obtain ⟨x, hx⟩ := Option.isSome_iff_exists.mp (a.isSome_toDigit c hc)
  exact (toNat_of_toDigit hx).2.2

theorem toNat_of_mem_numberChars {a : Literal} {c : Char} (hc : c ∈ a.numberChars) :
    48 ≤ c.toNat ∧ c.toNat ≤ 122 := by
  rcases List.mem_append.mp hc with hc | hc
  · have hall : ∀ r : Radix, ∀ c ∈ r.sigil, 48 ≤ c.toNat ∧ c.toNat ≤ 122 := by
      intro r
      cases r <;> simp [Radix.sigil]
    exact hall _ c hc
  · exact toNat_of_mem_digits hc

theorem tight_numberChars (a : Literal) : Tight a.numberChars :=
  tight_of_forall (List.append_ne_nil_of_right_ne_nil _ a.digits_ne_nil)
    fun _ hc => isWhitespace_of_toNat (toNat_of_mem_numberChars hc)

/-- A character that is no hexadecimal digit is not among the digits. -/
theorem not_mem_digits (a : Literal) {c : Char} (h : toDigit 16 c = none) : c ∉ a.digits := by
  intro hc
  obtain ⟨x, hx⟩ := Option.isSome_iff_exists.mp (a.isSome_toDigit c hc)
  have hlt : x < 16 := (toNat_of_toDigit hx).1.trans_le a.radix.base_mem.2
  have hsome : toDigit 16 c = some x :=
    Option.filter_eq_some_iff.mpr ⟨(Option.filter_eq_some_iff.mp hx).1, decide_eq_true hlt⟩
  rw [h] at hsome
  cases hsome

/-- What a literal is written with. -/
theorem Spells.mem {a : Literal} {s : List Char} (h : a.Spells s) :
    ∀ c ∈ s, isWhitespace c ∨ (48 ≤ c.toNat ∧ c.toNat ≤ 122) := by
  obtain ⟨blanks, hblanks, -, rfl⟩ := h
  intro c hc
  rcases List.mem_append.mp hc with hc | hc
  · exact Or.inr (toNat_of_mem_numberChars hc)
  rcases List.mem_append.mp hc with hc | hc
  · exact Or.inl (hblanks c hc)
  · have hall : ∀ x : Suffix, ∀ c ∈ x.chars, 48 ≤ c.toNat ∧ c.toNat ≤ 122 := by
      intro x
      cases x <;> simp [Suffix.chars]
    exact Or.inr (hall _ c hc)

theorem Spells.tight {a : Literal} {s : List Char} (h : a.Spells s) : Tight s := by
  obtain ⟨blanks, hblanks, hnone, rfl⟩ := h
  have htight := a.tight_numberChars
  refine ⟨List.append_ne_nil_of_left_ne_nil htight.ne_nil _, ?_, ?_⟩
  · rw [List.head?_append_of_ne_nil _ htight.ne_nil]
    exact htight.head
  · cases hsuffix : a.suffix with
    | none =>
      rw [hnone hsuffix, List.nil_append, Suffix.chars, List.append_nil]
      exact htight.last
    | kilo =>
      rw [Suffix.chars, ← List.append_assoc, List.getLast?_concat]
      rintro _ ⟨⟩
      rfl
    | mega =>
      rw [Suffix.chars, ← List.append_assoc, List.getLast?_concat]
      rintro _ ⟨⟩
      rfl

end Literal

/-! ### Reading a literal -/

theorem isPrefixOf?_eq_none {l s : List Char} {c : Char} (hl : c ∈ l) (hs : c ∉ s) :
    l.isPrefixOf? s = none := by
  rw [Option.eq_none_iff_forall_ne_some]
  intro t ht
  rw [List.isPrefixOf?_eq_some_iff_append_eq] at ht
  exact hs (ht ▸ List.mem_append_left _ hl)

theorem isSuffixOf?_singleton (l : List Char) (c : Char) : [c].isSuffixOf? (l ++ [c]) = some l :=
  List.isSuffixOf?_eq_some_iff_append_eq.mpr rfl

theorem isSuffixOf?_singleton_of_ne {s : List Char} {c d : Char} (hs : s.getLast? = some d)
    (hne : d ≠ c) : [c].isSuffixOf? s = none := by
  rw [Option.eq_none_iff_forall_ne_some]
  intro t ht
  rw [List.isSuffixOf?_eq_some_iff_append_eq] at ht
  rw [← ht, List.getLast?_concat, Option.some.injEq] at hs
  exact hne hs.symm

theorem fromStrRadix_digits (a : Literal) : fromStrRadix a.digits a.radix.base = u64 a.number := by
  obtain ⟨h₁, h₂⟩ := a.radix.base_mem
  rw [fromStrRadix, isPrefixOf?_eq_none (c := '+') List.mem_cons_self
      (a.not_mem_digits (by decide)), Option.getD_none, if_neg a.digits_ne_nil,
    foldlM_pushDigit (by omega) (by omega) a.isSome_toDigit]
  rfl

theorem parseNumber_numberChars (a : Literal) : parseNumber a.numberChars = u64 a.number := by
  rw [← fromStrRadix_digits, parseNumber, trim_of_tight a.tight_numberChars, Literal.numberChars]
  cases hradix : a.radix with
  | decimal =>
    rw [Radix.sigil, List.nil_append,
      isPrefixOf?_eq_none (c := 'x') (by decide) (a.not_mem_digits (by decide)),
      isPrefixOf?_eq_none (c := 'X') (by decide) (a.not_mem_digits (by decide))]
    rfl
  | lowerHex => rfl
  | upperHex => rfl

theorem u64_bind_checkedMul (n : ℕ) {f : UInt64} (hf : 1 ≤ f.toNat) :
    ((u64 n).bind fun v => checkedMul v f) = u64 (n * f.toNat) := by
  cases hn : u64 n with
  | none => exact (u64_of_le (Nat.le_mul_of_pos_right n hf) hn).symm
  | some v =>
    rw [Option.bind_some, checkedMul, (toNat_of_u64 hn).1]

theorem getLast?_numberChars (a : Literal) : ∃ c ∈ a.digits, a.numberChars.getLast? = some c := by
  refine ⟨a.digits.getLast a.digits_ne_nil, List.getLast_mem _, ?_⟩
  rw [Literal.numberChars, List.getLast?_append_of_ne_nil _ a.digits_ne_nil,
    List.getLast?_eq_some_getLast a.digits_ne_nil]

/-- The number in front of a suffix, and the spacing before it. -/
theorem parseNumber_trim (a : Literal) {blanks : List Char} (hblanks : Blank blanks) :
    parseNumber (trim (a.numberChars ++ blanks)) = u64 a.number := by
  rw [trim_blanks_right a.tight_numberChars hblanks, parseNumber_numberChars]

/-- **A literal is read as its value**, if that is a `u64`. -/
theorem parseSizeLiteral_of_spells {a : Literal} {s : List Char} (h : a.Spells s) :
    parseSizeLiteral s = u64 a.value := by
  have htrim : trim s = s := trim_of_tight h.tight
  obtain ⟨blanks, hblanks, hnone, rfl⟩ := h
  rw [parseSizeLiteral, htrim, Literal.value]
  cases hsuffix : a.suffix with
  | none =>
    obtain ⟨c, hc, hlast⟩ := getLast?_numberChars a
    have hne : ∀ d, toDigit 16 d = none → c ≠ d := by
      rintro d hd rfl
      exact a.not_mem_digits hd hc
    rw [hnone hsuffix, List.nil_append, Suffix.chars, List.append_nil,
      isSuffixOf?_singleton_of_ne hlast (hne 'K' (by decide)),
      isSuffixOf?_singleton_of_ne hlast (hne 'M' (by decide)), Suffix.factor, Nat.mul_one]
    exact parseNumber_numberChars a
  | kilo =>
    rw [Suffix.chars, ← List.append_assoc, isSuffixOf?_singleton]
    simp only
    rw [parseNumber_trim a hblanks]
    exact u64_bind_checkedMul a.number (by decide)
  | mega =>
    rw [Suffix.chars, ← List.append_assoc,
      isSuffixOf?_singleton_of_ne (List.getLast?_concat) (by decide), isSuffixOf?_singleton]
    simp only
    rw [parseNumber_trim a hblanks]
    exact u64_bind_checkedMul a.number (by decide)

end Rp2040.BuildScript
