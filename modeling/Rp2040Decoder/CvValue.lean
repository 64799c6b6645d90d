/-
Values of one, two or four CVs (`CvValue` in `dcc/src/cv/store.rs`).

A value is stored with its most significant byte first, and read with a single
access to the store.

* `toNat_u32` — the bytes of a word, shifted and joined, are its digits;
* `mapM_of_eq_ite` — reading byte by byte stops at the first byte that is missing.
-/
import Mathlib.Algebra.Group.Nat.Defs
import Rp2040Decoder.Cv

namespace Rp2040

/-- The number that bytes spell, the most significant first. -/
def beValue (bytes : List UInt8) : ℕ := bytes.foldl (fun n b => 256 * n + b.toNat) 0

namespace Store

variable {S : Type} [Store S]

/-- `read_cv` for `u16`: two bytes, the most significant first. -/
def readCvU16 (self : S) (address : ℕ) : Except (Fault StoreError) UInt16 := do
  match ← readBytes self address 2 with
  | [msb, lsb] => return msb.toUInt16 <<< 8 ||| lsb.toUInt16
  | _ => .error (.error .io)

/-- `read_cv` for `u32`: four bytes, the most significant first. -/
def readCvU32 (self : S) (address : ℕ) : Except (Fault StoreError) UInt32 := do
  match ← readBytes self address 4 with
  | [b₀, b₁, b₂, b₃] =>
    return b₀.toUInt32 <<< 24 ||| b₁.toUInt32 <<< 16 ||| b₂.toUInt32 <<< 8 ||| b₃.toUInt32
  | _ => .error (.error .io)

end Store

/-! ### The bytes of a value -/

theorem toNat_u16 (msb lsb : UInt8) :
    (msb.toUInt16 <<< 8 ||| lsb.toUInt16).toNat = beValue [msb, lsb] := by
  have hshift : (msb.toUInt16 <<< 8).toNat = msb.toNat * 2 ^ 8 :=
    toNat_shiftLeft_eight (by rw [UInt8.toNat_toUInt16]; exact msb.toNat_lt)
  rw [UInt16.toNat_or, hshift, UInt8.toNat_toUInt16, Nat.mul_comm,
    ← Nat.two_pow_add_eq_or_of_lt lsb.toNat_lt]
  simp [beValue]

/-- A byte moved to its place in a word. -/
theorem toNat_shiftLeft_u32 (b : UInt8) {k : UInt32} (hk : k.toNat ≤ 24) :
    (b.toUInt32 <<< k).toNat = b.toNat * 2 ^ k.toNat := by
  have hb := b.toNat_lt
  have hpow : 2 ^ k.toNat ≤ 2 ^ 24 := Nat.pow_le_pow_right (by decide) hk
  have hfit : b.toNat * 2 ^ k.toNat < 2 ^ 32 :=
    calc b.toNat * 2 ^ k.toNat ≤ 255 * 2 ^ 24 := Nat.mul_le_mul (by omega) hpow
      _ < 2 ^ 32 := by decide
  rw [UInt32.toNat_shiftLeft, UInt8.toNat_toUInt32, Nat.mod_eq_of_lt (by omega : k.toNat < 32),
    Nat.shiftLeft_eq, Nat.mod_eq_of_lt hfit]

theorem toNat_u32 (b₀ b₁ b₂ b₃ : UInt8) :
    (b₀.toUInt32 <<< 24 ||| b₁.toUInt32 <<< 16 ||| b₂.toUInt32 <<< 8 ||| b₃.toUInt32).toNat =
      beValue [b₀, b₁, b₂, b₃] := by
  have h₁ := b₁.toNat_lt
  have h₂ := b₂.toNat_lt
  have h₃ := b₃.toNat_lt
  rw [UInt32.toNat_or, UInt32.toNat_or, UInt32.toNat_or, toNat_shiftLeft_u32 b₀ (by decide),
    toNat_shiftLeft_u32 b₁ (by decide), toNat_shiftLeft_u32 b₂ (by decide), UInt8.toNat_toUInt32]
  show ((b₀.toNat * 2 ^ 24 ||| b₁.toNat * 2 ^ 16) ||| b₂.toNat * 2 ^ 8) ||| b₃.toNat = _
  -- every byte fits below the bits that are joined so far
  rw [Nat.mul_comm b₀.toNat, ← Nat.two_pow_add_eq_or_of_lt (i := 24) (by omega),
    show 2 ^ 24 * b₀.toNat + b₁.toNat * 2 ^ 16 = 2 ^ 16 * (2 ^ 8 * b₀.toNat + b₁.toNat) by omega,
    ← Nat.two_pow_add_eq_or_of_lt (i := 16) (by omega),
    show 2 ^ 16 * (2 ^ 8 * b₀.toNat + b₁.toNat) + b₂.toNat * 2 ^ 8 =
      2 ^ 8 * (2 ^ 8 * (2 ^ 8 * b₀.toNat + b₁.toNat) + b₂.toNat) by omega,
    ← Nat.two_pow_add_eq_or_of_lt (i := 8) (by omega)]
  simp only [beValue, List.foldl_cons, List.foldl_nil]
  omega

/-! ### Reading byte by byte -/

/-- A list of reads that fail in one way: the values if none fails. -/
theorem mapM_of_eq_ite {α β ε : Type} {f : α → Except ε β} {P : α → Prop} [DecidablePred P]
    {g : α → β} {e : ε} (hf : ∀ x, f x = if P x then .ok (g x) else .error e) (l : List α) :
    l.mapM f = if ∀ x ∈ l, P x then .ok (l.map g) else .error e := by
  induction l with
  | nil =>
    rw [if_pos fun x hx => absurd hx List.not_mem_nil]
    rfl
  | cons x l ih =>
    rw [List.mapM_cons, hf, ih]
    by_cases hx : P x
    · rw [if_pos hx]
      by_cases hl : ∀ y ∈ l, P y
      · rw [if_pos hl, if_pos (List.forall_mem_cons.mpr ⟨hx, hl⟩)]
        rfl
      · rw [if_neg hl, if_neg fun h => hl (List.forall_mem_cons.mp h).2]
        rfl
    · rw [if_neg hx, if_neg fun h => hx (List.forall_mem_cons.mp h).1]
      rfl

end Rp2040
