/-
Rounding to single precision: 24 bits of significand, exponents from -149, ties
to the even significand.

Numbers too large for the format are not told apart, so a user bounds the
results; numbers too small lose precision gradually, as they do in the format.

* `round_mono`, `round_neg` — the rounding is monotone and odd;
* `representable_round`, `round_of_representable` — it is onto the numbers of
  the format;
* `round_le_mul` — the relative error of half a unit;
* `Representable.gap` — two numbers of the format are at least so far apart.
-/
import Mathlib.Data.Int.Log
import Mathlib.Data.Rat.Floor
import Mathlib.Tactic.Linarith
import Mathlib.Tactic.Positivity
import Mathlib.Tactic.Ring
import Rp2040Decoder.Rounding

namespace Binary32

variable {x y : ℚ} {e e' : ℤ}

/-! ### Integers -/

/-- To the nearest integer, ties to even. -/
def roundEven (x : ℚ) : ℤ :=
  if Int.fract x < 1 / 2 then ⌊x⌋
  else if 1 / 2 < Int.fract x then ⌊x⌋ + 1
  else if ⌊x⌋ % 2 = 0 then ⌊x⌋
  else ⌊x⌋ + 1

theorem roundEven_intCast (z : ℤ) : roundEven z = z := by
  rw [roundEven, Int.fract_intCast, if_pos (by norm_num), Int.floor_intCast]

theorem roundEven_error (x : ℚ) : x - 1 / 2 ≤ roundEven x ∧ (roundEven x : ℚ) ≤ x + 1 / 2 := by
  have hfloor := Int.floor_add_fract x
  have hnonneg := Int.fract_nonneg x
  have hlt := Int.fract_lt_one x
  rw [roundEven]
  split_ifs with hlow hhigh
  · constructor <;> linarith
  · push_cast
    constructor <;> linarith
  · constructor <;> linarith
  · push_cast
    constructor <;> linarith

/-- The errors leave room for one exception, and there is none. -/
theorem roundEven_mono (h : x ≤ y) : roundEven x ≤ roundEven y := by
  by_contra hlt
  have hsucc : (roundEven y : ℚ) + 1 ≤ roundEven x := by exact_mod_cast not_le.mp hlt
  have hx := (roundEven_error x).2
  have hy := (roundEven_error y).1
  obtain rfl : x = y := by linarith
  exact hlt le_rfl

theorem le_roundEven {z : ℤ} (h : (z : ℚ) ≤ x) : z ≤ roundEven x := by
  rw [← roundEven_intCast z]
  exact roundEven_mono h

theorem roundEven_le {z : ℤ} (h : x ≤ (z : ℚ)) : roundEven x ≤ z := by
  rw [← roundEven_intCast z]
  exact roundEven_mono h

/-! ### Powers of two -/

theorem zpow_pos' (e : ℤ) : (0 : ℚ) < 2 ^ e := zpow_pos (by norm_num) e

theorem zpow_mono (h : e ≤ e') : (2 : ℚ) ^ e ≤ 2 ^ e' := zpow_le_zpow_right₀ (by norm_num) h

theorem zpow_add' (e e' : ℤ) : (2 : ℚ) ^ (e + e') = 2 ^ e * 2 ^ e' :=
  zpow_add₀ (by norm_num) e e'

/-- A power of two is a multiple of a smaller one. -/
theorem exists_zpow_eq (h : e ≤ e') : ∃ k : ℤ, (2 : ℚ) ^ e' = k * 2 ^ e := by
  obtain ⟨n, rfl⟩ := Int.le.dest h
  exact ⟨2 ^ n, by rw [add_comm, zpow_add', zpow_natCast]; push_cast; rfl⟩

/-! ### Rounding -/

/-- The exponent of the unit in the last place of a positive number. -/
def exponent (x : ℚ) : ℤ := max (Int.log 2 x - 23) (-149)

/-- The unit in the last place. -/
def ulp (x : ℚ) : ℚ := 2 ^ exponent x

/-- The rounding of a number that is not negative. -/
def roundMag (x : ℚ) : ℚ := roundEven (x / ulp x) * ulp x

def round (x : ℚ) : ℚ := if 0 ≤ x then roundMag x else -roundMag (-x)

/-- The finite numbers of the format, were its exponents not bounded above. -/
def Representable (x : ℚ) : Prop := ∃ m e : ℤ, |m| ≤ 2 ^ 24 ∧ -149 ≤ e ∧ x = m * 2 ^ e

theorem ulp_pos (x : ℚ) : 0 < ulp x := zpow_pos' _

theorem le_exponent (x : ℚ) : -149 ≤ exponent x := le_max_right _ _

theorem exponent_mono (hx : 0 < x) (h : x ≤ y) : exponent x ≤ exponent y :=
  max_le_max (Int.sub_le_sub_right (Int.log_mono_right hx h) 23) le_rfl

/-- 24 bits suffice. -/
theorem lt_mul_ulp (x : ℚ) : x < 2 ^ 24 * ulp x := by
  have hlog : x < 2 ^ (Int.log 2 x + 1) := by
    have hlt := Int.lt_zpow_succ_log_self (b := 2) (by norm_num) x
    rwa [Nat.cast_ofNat] at hlt
  have hexp : Int.log 2 x + 1 ≤ 24 + exponent x := by
    have hle : Int.log 2 x - 23 ≤ exponent x := le_max_left _ _
    omega
  calc x < 2 ^ (Int.log 2 x + 1) := hlog
    _ ≤ 2 ^ (24 + exponent x) := zpow_mono hexp
    _ = 2 ^ 24 * ulp x := by rw [zpow_add']; rfl

/-- Above the smallest exponent all 24 bits are used. -/
theorem mul_ulp_le (hx : 0 < x) (he : -149 < exponent x) : 2 ^ 23 * ulp x ≤ x := by
  have hexp : exponent x = Int.log 2 x - 23 := by
    rw [exponent] at he ⊢
    omega
  have hlog : (2 : ℚ) ^ Int.log 2 x ≤ x := by
    have hle := Int.zpow_log_le_self (b := 2) (by norm_num) hx
    rwa [Nat.cast_ofNat] at hle
  calc (2 : ℚ) ^ 23 * ulp x = 2 ^ (23 + exponent x) := by rw [zpow_add']; rfl
    _ = 2 ^ Int.log 2 x := by rw [hexp, add_sub_cancel]
    _ ≤ x := hlog

theorem roundMag_of_multiple (m : ℤ) (h : x = m * ulp x) : roundMag x = x := by
  have hdiv : x / ulp x = m := (div_eq_iff (ulp_pos x).ne').mpr h
  rw [roundMag, hdiv, roundEven_intCast, ← h]

theorem roundMag_zero : roundMag 0 = 0 := roundMag_of_multiple 0 (by rw [Int.cast_zero, zero_mul])

theorem roundMag_nonneg (h : 0 ≤ x) : 0 ≤ roundMag x := by
  have hdiv : ((0 : ℤ) : ℚ) ≤ x / ulp x := by
    rw [Int.cast_zero]
    exact div_nonneg h (ulp_pos x).le
  exact mul_nonneg (Int.cast_nonneg (le_roundEven hdiv)) (ulp_pos x).le

theorem roundMag_le (x : ℚ) : roundMag x ≤ 2 ^ 24 * ulp x := by
  have hdiv : x / ulp x ≤ ((2 ^ 24 : ℤ) : ℚ) := by
    push_cast
    exact ((div_lt_iff₀ (ulp_pos x)).mpr (lt_mul_ulp x)).le
  have hround : (roundEven (x / ulp x) : ℚ) ≤ 2 ^ 24 := by exact_mod_cast roundEven_le hdiv
  exact mul_le_mul_of_nonneg_right hround (ulp_pos x).le

theorem le_roundMag (hx : 0 < x) (he : -149 < exponent x) : 2 ^ 23 * ulp x ≤ roundMag x := by
  have hdiv : ((2 ^ 23 : ℤ) : ℚ) ≤ x / ulp x := by
    push_cast
    exact (le_div_iff₀ (ulp_pos x)).mpr (mul_ulp_le hx he)
  have hround : (2 : ℚ) ^ 23 ≤ roundEven (x / ulp x) := by exact_mod_cast le_roundEven hdiv
  exact mul_le_mul_of_nonneg_right hround (ulp_pos x).le

/-- Numbers with one unit are rounded to its multiples, others to either side of
a power of two. -/
theorem roundMag_mono (hx : 0 ≤ x) (h : x ≤ y) : roundMag x ≤ roundMag y := by
  rcases hx.eq_or_lt with rfl | hpos
  · rw [roundMag_zero]
    exact roundMag_nonneg h
  · rcases (exponent_mono hpos h).eq_or_lt with heq | hlt
    · have hulp : ulp x = ulp y := by rw [ulp, ulp, heq]
      have hround := roundEven_mono (div_le_div_of_nonneg_right h (ulp_pos y).le)
      rw [roundMag, roundMag, hulp]
      exact mul_le_mul_of_nonneg_right (Int.cast_le.mpr hround) (ulp_pos y).le
    · calc roundMag x ≤ 2 ^ 24 * ulp x := roundMag_le x
        _ = 2 ^ (24 + exponent x) := by rw [zpow_add']; rfl
        _ ≤ 2 ^ (23 + exponent y) := zpow_mono (by omega)
        _ = 2 ^ 23 * ulp y := by rw [zpow_add']; rfl
        _ ≤ roundMag y := le_roundMag (hpos.trans_le h) ((le_exponent x).trans_lt hlt)

theorem round_of_nonneg (h : 0 ≤ x) : round x = roundMag x := if_pos h

theorem round_zero : round 0 = 0 := by rw [round_of_nonneg le_rfl, roundMag_zero]

theorem round_nonneg (h : 0 ≤ x) : 0 ≤ round x := by
  rw [round_of_nonneg h]
  exact roundMag_nonneg h

theorem round_neg (x : ℚ) : round (-x) = -round x := by
  rcases lt_trichotomy x 0 with h | rfl | h
  · have hneg : 0 ≤ -x := by linarith
    rw [round_of_nonneg hneg, round, if_neg (not_le.mpr h), neg_neg]
  · rw [neg_zero, round_zero, neg_zero]
  · have hneg : ¬ 0 ≤ -x := by linarith
    rw [round_of_nonneg h.le, round, if_neg hneg, neg_neg]

theorem round_mono (h : x ≤ y) : round x ≤ round y := by
  rcases le_or_gt 0 x with hx | hx
  · rw [round_of_nonneg hx, round_of_nonneg (hx.trans h)]
    exact roundMag_mono hx h
  · have hneg : round x = -round (-x) := by rw [round_neg, neg_neg]
    rcases le_or_gt 0 y with hy | hy
    · have hx' := round_nonneg (neg_nonneg.mpr hx.le)
      have hy' := round_nonneg hy
      linarith
    · have hneg' : round y = -round (-y) := by rw [round_neg, neg_neg]
      rw [hneg, hneg', round_of_nonneg (neg_nonneg.mpr hx.le),
        round_of_nonneg (neg_nonneg.mpr hy.le)]
      exact neg_le_neg (roundMag_mono (neg_nonneg.mpr hy.le) (neg_le_neg h))

theorem round_nonpos (h : x ≤ 0) : round x ≤ 0 := (round_mono h).trans_eq round_zero

/-! ### The numbers of the format -/

theorem Representable.neg (h : Representable x) : Representable (-x) := by
  obtain ⟨m, e, hm, he, rfl⟩ := h
  exact ⟨-m, e, by rwa [abs_neg], he, by push_cast; ring⟩

theorem representable_natCast {n : ℕ} (h : n ≤ 2 ^ 24) : Representable n := by
  refine ⟨n, 0, ?_, by norm_num, by rw [zpow_zero, mul_one, Int.cast_natCast]⟩
  rw [abs_of_nonneg (Int.natCast_nonneg n)]
  exact_mod_cast h

theorem representable_one : Representable 1 := by
  exact_mod_cast representable_natCast (n := 1) (by norm_num)

theorem representable_ofNat (n : ℕ) [n.AtLeastTwo] (h : n ≤ 2 ^ 24) :
    Representable (OfNat.ofNat n : ℚ) := by
  exact_mod_cast representable_natCast h

theorem representable_zpow (h : -149 ≤ e) : Representable (2 ^ e) :=
  ⟨1, e, by norm_num, h, by rw [Int.cast_one, one_mul]⟩

theorem representable_two_pow (n : ℕ) : Representable (2 ^ n) := by
  rw [← zpow_natCast]
  exact representable_zpow (by omega)

theorem representable_roundMag (h : 0 ≤ x) : Representable (roundMag x) := by
  have hnonneg : 0 ≤ roundEven (x / ulp x) :=
    le_roundEven (by rw [Int.cast_zero]; exact div_nonneg h (ulp_pos x).le)
  have hdiv : x / ulp x ≤ ((2 ^ 24 : ℤ) : ℚ) := by
    push_cast
    exact ((div_lt_iff₀ (ulp_pos x)).mpr (lt_mul_ulp x)).le
  refine ⟨roundEven (x / ulp x), exponent x, ?_, le_exponent x, rfl⟩
  rw [abs_of_nonneg hnonneg]
  exact roundEven_le hdiv

theorem representable_round (x : ℚ) : Representable (round x) := by
  rw [round]
  split_ifs with h
  · exact representable_roundMag h
  · exact (representable_roundMag (by linarith)).neg

/-- A number of the format is a multiple of its unit in the last place. -/
theorem Representable.multiple (h : Representable x) (hx : 0 < x) : ∃ m : ℤ, x = m * ulp x := by
  obtain ⟨m, e, hm, he, hxm⟩ := h
  have hm₀ : 0 < m := by
    by_contra hle
    have hcast : (m : ℚ) ≤ 0 := by exact_mod_cast not_lt.mp hle
    exact absurd hx (not_lt.mpr (hxm ▸ mul_nonpos_of_nonpos_of_nonneg hcast (zpow_pos' e).le))
  rw [abs_of_pos hm₀] at hm
  rcases hm.lt_or_eq with hlt | heq
  · -- the unit is no larger than the one given
    have hx24 : x < 2 ^ (24 + e) := by
      rw [hxm, zpow_add']
      exact mul_lt_mul_of_pos_right (by exact_mod_cast hlt) (zpow_pos' e)
    have hlog := (Int.lt_zpow_iff_log_lt (b := 2) (by norm_num) hx).mp (by exact_mod_cast hx24)
    have hexp : exponent x ≤ e := by
      rw [exponent]
      omega
    obtain ⟨k, hk⟩ := exists_zpow_eq hexp
    exact ⟨m * k, by rw [Int.cast_mul, mul_assoc, ulp, ← hk, hxm]⟩
  · -- a power of two has the next unit
    have hx24 : x = 2 ^ (24 + e) := by
      rw [hxm, heq, zpow_add']
      push_cast
      rfl
    have hlog : Int.log 2 x = 24 + e := by
      rw [hx24]
      exact_mod_cast Int.log_zpow (R := ℚ) (b := 2) (by norm_num) (24 + e)
    have hexp : exponent x = e + 1 := by
      rw [exponent, hlog]
      omega
    refine ⟨2 ^ 23, ?_⟩
    rw [ulp, hexp, hx24, zpow_add', zpow_add']
    push_cast
    ring

theorem round_of_representable (h : Representable x) : round x = x := by
  have hpos : ∀ {y : ℚ}, Representable y → 0 < y → round y = y := by
    intro y hy hy₀
    obtain ⟨m, hm⟩ := hy.multiple hy₀
    rw [round_of_nonneg hy₀.le, roundMag_of_multiple m hm]
  rcases lt_trichotomy x 0 with hx | rfl | hx
  · have hneg := hpos h.neg (by linarith)
    rwa [round_neg, neg_inj] at hneg
  · exact round_zero
  · exact hpos h hx

theorem round_le (hy : Representable y) (h : x ≤ y) : round x ≤ y := by
  rw [← round_of_representable hy]
  exact round_mono h

theorem le_round (hx : Representable x) (h : x ≤ y) : x ≤ round y := by
  rw [← round_of_representable hx]
  exact round_mono h

theorem abs_round_le (hy : Representable y) (h : |x| ≤ y) : |round x| ≤ y := by
  obtain ⟨hlow, hhigh⟩ := abs_le.mp h
  exact abs_le.mpr ⟨le_round hy.neg hlow, round_le hy hhigh⟩

/-! ### Errors and gaps -/

theorem round_error (h : 0 ≤ x) : x - ulp x / 2 ≤ round x ∧ round x ≤ x + ulp x / 2 := by
  have hulp := ulp_pos x
  have hx : x / ulp x * ulp x = x := div_mul_cancel₀ x hulp.ne'
  obtain ⟨hlow, hhigh⟩ := roundEven_error (x / ulp x)
  rw [round_of_nonneg h, roundMag]
  constructor
  · calc x - ulp x / 2 = (x / ulp x - 1 / 2) * ulp x := by rw [sub_mul, hx]; ring
      _ ≤ roundEven (x / ulp x) * ulp x := mul_le_mul_of_nonneg_right hlow hulp.le
  · calc roundEven (x / ulp x) * ulp x ≤ (x / ulp x + 1 / 2) * ulp x :=
          mul_le_mul_of_nonneg_right hhigh hulp.le
      _ = x + ulp x / 2 := by rw [add_mul, hx]; ring

/-- The number of the format next to a normal number. -/
theorem round_eq_of_near (m : ℤ) (he : -149 ≤ e) (hlow : 2 ^ (23 + e) ≤ x)
    (hhigh : x < 2 ^ (24 + e)) (hnear : |x - m * 2 ^ e| < 2 ^ e / 2) : round x = m * 2 ^ e := by
  have hx : 0 < x := (zpow_pos' _).trans_le hlow
  have hlog₀ := (Int.zpow_le_iff_le_log (b := 2) (by norm_num) hx).mp (by exact_mod_cast hlow)
  have hlog₁ := (Int.lt_zpow_iff_log_lt (b := 2) (by norm_num) hx).mp (by exact_mod_cast hhigh)
  have hexp : exponent x = e := by
    rw [exponent]
    omega
  have hulp : ulp x = 2 ^ e := by rw [ulp, hexp]
  have hround := round_error hx.le
  rw [round_of_nonneg hx.le, roundMag, hulp] at hround ⊢
  obtain ⟨hlow', hhigh'⟩ := abs_lt.mp hnear
  -- two multiples of the unit that are closer than one
  have hpos := zpow_pos' e
  have hlt : roundEven (x / 2 ^ e) < m + 1 := by
    have hmul : (roundEven (x / 2 ^ e) : ℚ) * 2 ^ e < (m + 1) * 2 ^ e := by linarith
    exact_mod_cast lt_of_mul_lt_mul_right hmul hpos.le
  have hgt : m < roundEven (x / 2 ^ e) + 1 := by
    have hmul : (m : ℚ) * 2 ^ e < (roundEven (x / 2 ^ e) + 1) * 2 ^ e := by linarith
    exact_mod_cast lt_of_mul_lt_mul_right hmul hpos.le
  obtain rfl : roundEven (x / 2 ^ e) = m := by omega
  rfl

/-- From the smallest normal number on, a unit is at most so much of a number. -/
theorem ulp_le_mul (h : 2 ^ (-126 : ℤ) ≤ x) : 2 ^ 23 * ulp x ≤ x := by
  have hx : 0 < x := (zpow_pos' _).trans_le h
  rcases (le_exponent x).eq_or_lt with heq | hlt
  · calc (2 : ℚ) ^ 23 * ulp x = 2 ^ (23 + exponent x) := by rw [zpow_add']; rfl
      _ = 2 ^ (-126 : ℤ) := by rw [← heq]; norm_num
      _ ≤ x := h
  · exact mul_ulp_le hx hlt

theorem round_le_mul (h : 2 ^ (-126 : ℤ) ≤ x) : round x ≤ x * (1 + 1 / 2 ^ 24) := by
  have hulp := ulp_le_mul h
  have herror := (round_error ((zpow_pos' _).le.trans h)).2
  linarith

theorem mul_le_round (h : 2 ^ (-126 : ℤ) ≤ x) : x * (1 - 1 / 2 ^ 24) ≤ round x := by
  have hulp := ulp_le_mul h
  have herror := (round_error ((zpow_pos' _).le.trans h)).1
  linarith

/-- Numbers of the format are apart by half a unit of the larger. -/
theorem Representable.gap (hx : Representable x) (hy : Representable y) (h₀ : 0 ≤ x)
    (h : x < y) : x ≤ y * (1 - 1 / 2 ^ 24) := by
  rcases h₀.eq_or_lt with rfl | hpos
  · exact mul_nonneg h.le (by norm_num)
  · have hulp := ulp_pos x
    obtain ⟨m, hm⟩ := hx.multiple hpos
    obtain ⟨n, hn⟩ := hy.multiple (hpos.trans h)
    obtain ⟨k, hk⟩ := exists_zpow_eq (exponent_mono hpos h.le)
    -- both are multiples of the unit of the smaller
    have hn' : y = (n * k : ℤ) * ulp x := by rw [Int.cast_mul, mul_assoc, ulp, ← hk]; exact hn
    rcases le_or_gt y (2 ^ 24 * ulp x) with hle | hgt
    · have hlt : m < n * k := by
        have hmul : (m : ℚ) * ulp x < (n * k : ℤ) * ulp x := by rwa [← hm, ← hn']
        exact_mod_cast lt_of_mul_lt_mul_right hmul hulp.le
      have hstep : (m : ℚ) + 1 ≤ (n * k : ℤ) := by exact_mod_cast hlt
      have hmul := mul_le_mul_of_nonneg_right hstep hulp.le
      rw [← hn', add_mul, ← hm] at hmul
      linarith
    · have hlt : m < 2 ^ 24 := by
        have hmul : (m : ℚ) * ulp x < 2 ^ 24 * ulp x := by
          rw [← hm]
          exact lt_mul_ulp x
        exact_mod_cast lt_of_mul_lt_mul_right hmul hulp.le
      have hstep : (m : ℚ) + 1 ≤ 2 ^ 24 := by exact_mod_cast hlt
      have hmul := mul_le_mul_of_nonneg_right hstep hulp.le
      rw [add_mul, ← hm] at hmul
      linarith

/-- A difference of numbers of the format does not vanish. -/
theorem Representable.round_sub_pos (hx : Representable x) (hy : Representable y) (h : x < y) :
    0 < round (y - x) := by
  obtain ⟨m, e, -, he, rfl⟩ := hx
  obtain ⟨n, e', -, he', rfl⟩ := hy
  obtain ⟨k, hk⟩ := exists_zpow_eq he
  obtain ⟨k', hk'⟩ := exists_zpow_eq he'
  have hmin := zpow_pos' (-149)
  have hdiff : (n : ℚ) * 2 ^ e' - m * 2 ^ e = (n * k' - m * k : ℤ) * 2 ^ (-149 : ℤ) := by
    rw [hk, hk']
    push_cast
    ring
  have hone : 1 ≤ n * k' - m * k := by
    have hpos : (0 : ℚ) < (n * k' - m * k : ℤ) * 2 ^ (-149 : ℤ) := by
      rw [← hdiff]
      exact sub_pos.mpr h
    exact_mod_cast pos_of_mul_pos_left hpos hmin.le
  have hle : (2 : ℚ) ^ (-149 : ℤ) ≤ n * 2 ^ e' - m * 2 ^ e := by
    rw [hdiff]
    exact le_mul_of_one_le_left hmin.le (by exact_mod_cast hone)
  exact hmin.trans_le (le_round (representable_zpow le_rfl) hle)

end Binary32

/-- Single precision. -/
def Rounding.FloatRounding.binary32 : Rounding.FloatRounding :=
  ⟨Binary32.round, fun _ _ => Binary32.round_mono, fun _ h =>
    Binary32.round_of_representable (Binary32.representable_natCast h)⟩
