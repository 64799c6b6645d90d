/-
Machine arithmetic under the two build profiles of a Rust crate.

With overflow checks an operation that leaves its type panics; without them
it wraps.  `none` is the panic, so one definition of a function covers both
builds, and "no operation overflows" is "the checked build does not panic".
-/
import Mathlib.Algebra.Group.Nat.Defs

/-- Whether the build panics when integer arithmetic overflows. -/
inductive Profile
  | dev
  | release
  deriving DecidableEq, Repr

namespace Profile

/-- `a + b` on `u8`. -/
def addU8 (p : Profile) (a b : UInt8) : Option UInt8 :=
  match p with
  | .dev => if a.toNat + b.toNat < 256 then some (a + b) else none
  | .release => some (a + b)

/-- `a - b` on `u8`. -/
def subU8 (p : Profile) (a b : UInt8) : Option UInt8 :=
  match p with
  | .dev => if b ≤ a then some (a - b) else none
  | .release => some (a - b)

/-- `a + b` on `u16`. -/
def addU16 (p : Profile) (a b : UInt16) : Option UInt16 :=
  match p with
  | .dev => if a.toNat + b.toNat < 65536 then some (a + b) else none
  | .release => some (a + b)

/-- `a << b` on `u8`. -/
def shlU8 (p : Profile) (a b : UInt8) : Option UInt8 :=
  match p with
  | .dev => if b < 8 then some (a <<< b) else none
  | .release => some (a <<< b)

/-- `a >> b` on `u8`. -/
def shrU8 (p : Profile) (a b : UInt8) : Option UInt8 :=
  match p with
  | .dev => if b < 8 then some (a >>> b) else none
  | .release => some (a >>> b)

/-- `a + b` on a 32-bit `usize`. -/
def addUsize (p : Profile) (a b : ℕ) : Option ℕ :=
  if a + b < 2 ^ 32 then some (a + b)
  else
    match p with
    | .dev => none
    | .release => some ((a + b) % 2 ^ 32)

/-- `a - b` on a 32-bit `usize`. -/
def subUsize (p : Profile) (a b : ℕ) : Option ℕ :=
  if b ≤ a then some (a - b)
  else
    match p with
    | .dev => none
    | .release => some (a + 2 ^ 32 - b)

/-- Without an overflow the profiles agree. -/
theorem addU8_of_lt (p : Profile) {a b : UInt8} (h : a.toNat + b.toNat < 256) :
    p.addU8 a b = some (a + b) := by
  cases p with
  | dev => rw [addU8, if_pos h]
  | release => rfl

theorem subU8_of_le (p : Profile) {a b : UInt8} (h : b ≤ a) :
    p.subU8 a b = some (a - b) := by
  cases p with
  | dev => rw [subU8, if_pos h]
  | release => rfl

theorem addU16_of_lt (p : Profile) {a b : UInt16} (h : a.toNat + b.toNat < 65536) :
    p.addU16 a b = some (a + b) := by
  cases p with
  | dev => rw [addU16, if_pos h]
  | release => rfl

/-- The sum wraps, or there was no need to. -/
theorem eq_add_of_addU16 (p : Profile) {a b c : UInt16} (h : p.addU16 a b = some c) :
    c = a + b := by
  cases p with
  | dev =>
    rw [addU16] at h
    split at h
    · exact (Option.some.inj h).symm
    · cases h
  | release => exact (Option.some.inj h).symm

theorem shlU8_of_lt (p : Profile) (a : UInt8) {b : UInt8} (h : b < 8) :
    p.shlU8 a b = some (a <<< b) := by
  cases p with
  | dev => rw [shlU8, if_pos h]
  | release => rfl

theorem shrU8_of_lt (p : Profile) (a : UInt8) {b : UInt8} (h : b < 8) :
    p.shrU8 a b = some (a >>> b) := by
  cases p with
  | dev => rw [shrU8, if_pos h]
  | release => rfl

theorem addUsize_of_lt (p : Profile) {a b : ℕ} (h : a + b < 2 ^ 32) :
    p.addUsize a b = some (a + b) :=
  if_pos h

theorem subUsize_of_le (p : Profile) {a b : ℕ} (h : b ≤ a) :
    p.subUsize a b = some (a - b) :=
  if_pos h

end Profile
