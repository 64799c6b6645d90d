/-
The gain schedule in single precision.

A range that falls is a start less a product, so its rounding errors can take
the gain below 0.  Before the end of the range they do not: the setpoint is a
number of the format, and the gap to the end is as large as the error of the
slope.  At the end they may, but only if the gain there is to be 0.

* `getKp_eq`, `getKp_nonneg_iff` — the gain of a range, and when it is not
  negative;
* `round_div_mul_le`, `descend_le` — before the end of a range it is not;
* `descend_end_le` — nor at the end if that is far enough from 0;
* `isGain_kpForSetpoint_iff` — whether the gain of every setpoint is accepted.
-/
import Rp2040Decoder.Binary32
import Rp2040Decoder.GainSchedule

namespace Rp2040

open Binary32 Rounding FloatRounding

/-- A finite number of the format that is not negative. -/
def IsGain (x : ℚ) : Prop := 0 ≤ x ∧ x < 2 ^ 128

theorem isGain_one : IsGain 1 := ⟨zero_le_one, one_lt_pow₀ (by norm_num) (by norm_num)⟩

variable {x y y' Δ d t sp start stop : ℚ}

theorem F32_EPSILON_pos : 0 < F32_EPSILON := by
  rw [F32_EPSILON]
  norm_num

@[simp] theorem round_binary32 (x : ℚ) : binary32.round x = Binary32.round x := rfl

/-! ### A product that falls -/

/-- With one rounding error to spare, a product with a quotient does not exceed
a number of the format. -/
theorem round_div_mul_le (hy : Representable y) (h₀ : 0 ≤ y) (hd : 0 < d) (ht : 0 ≤ t)
    (hnormal : 0 < Δ → 2 ^ (-126 : ℤ) ≤ Δ / d)
    (hle : 0 < Δ → Δ * ((1 + 1 / 2 ^ 24) * t) ≤ y * d) :
    Binary32.round (Binary32.round (Δ / d) * t) ≤ y := by
  refine Binary32.round_le hy ?_
  rcases le_or_gt Δ 0 with hneg | hpos
  · have hquot : Binary32.round (Δ / d) ≤ 0 :=
      round_nonpos (div_nonpos_of_nonpos_of_nonneg hneg hd.le)
    exact (mul_nonpos_of_nonpos_of_nonneg hquot ht).trans h₀
  · calc Binary32.round (Δ / d) * t ≤ Δ / d * (1 + 1 / 2 ^ 24) * t :=
          mul_le_mul_of_nonneg_right (Binary32.round_le_mul (hnormal hpos)) ht
      _ = Δ * ((1 + 1 / 2 ^ 24) * t) / d := by ring
      _ ≤ y := (div_le_iff₀ hd).mpr (hle hpos)

/-- Before the end of a range, the fall does not exceed what it starts from: the
gap to the end makes up for the error. -/
theorem descend_le (hy : Representable y) (h₀ : 0 ≤ y) (hΔ : Δ ≤ y) (ht : Representable t)
    (hd : Representable d) (ht₀ : 0 ≤ t) (htd : t < d) (hnormal : 0 < Δ → 2 ^ (-126 : ℤ) ≤ Δ / d) :
    Binary32.round (Binary32.round (Δ / d) * t) ≤ y := by
  have hd₀ : 0 < d := ht₀.trans_lt htd
  have hgap : (1 + 1 / 2 ^ 24) * t ≤ d := by
    have hle := ht.gap hd ht₀ htd
    calc (1 + 1 / 2 ^ 24) * t ≤ (1 + 1 / 2 ^ 24) * (d * (1 - 1 / 2 ^ 24)) :=
          mul_le_mul_of_nonneg_left hle (by norm_num)
      _ = d * ((1 + 1 / 2 ^ 24) * (1 - 1 / 2 ^ 24)) := by ring
      _ ≤ d * 1 := mul_le_mul_of_nonneg_left (by norm_num) hd₀.le
      _ = d := mul_one d
  exact round_div_mul_le hy h₀ hd₀ ht₀ hnormal fun hpos =>
    (mul_le_mul_of_nonneg_left hgap hpos.le).trans (mul_le_mul_of_nonneg_right hΔ hd₀.le)

/-- Nor does it at the end if that leaves room for the error. -/
theorem descend_end_le (hy : Representable y) (h₀ : 0 ≤ y) (hΔ : Δ * (1 + 1 / 2 ^ 24) ≤ y)
    (hd : 0 < d) (hnormal : 0 < Δ → 2 ^ (-126 : ℤ) ≤ Δ / d) :
    Binary32.round (Binary32.round (Δ / d) * d) ≤ y := by
  refine round_div_mul_le hy h₀ hd hd.le hnormal fun _ => ?_
  rw [← mul_assoc]
  exact mul_le_mul_of_nonneg_right hΔ hd.le

/-! ### One range -/

/-- The fall of a range after the setpoint advanced by `t`. -/
def descent (start stop kpStart kpEnd t : ℚ) : ℚ :=
  let slope := Binary32.round
    (Binary32.round (kpStart - kpEnd) / Binary32.round (stop - start))
  Binary32.round (slope * t)

theorem getKp_eq (h : ¬ GainRange.IsEmpty binary32 start stop) :
    (GainRange.new binary32 start stop y y').getKp binary32 sp =
      Binary32.round (y - descent start stop y y' (Binary32.round (sp - start))) := by
  have hslope : (GainRange.new binary32 start stop y y').slope =
      -Binary32.round (Binary32.round (y - y') / Binary32.round (stop - start)) := by
    have hneg : y' - y = -(y - y') := (neg_sub _ _).symm
    rw [← Binary32.round_neg, ← neg_div, ← Binary32.round_neg, ← hneg]
    exact if_neg h
  rw [GainRange.getKp, hslope, neg_mul, descent]
  simp only [round_binary32, Binary32.round_neg]
  rw [neg_add_eq_sub]
  rfl

theorem getKp_nonneg_of_isEmpty (h : GainRange.IsEmpty binary32 start stop) (hy : 0 ≤ y)
    (hsp : start ≤ sp) : 0 ≤ (GainRange.new binary32 start stop y y').getKp binary32 sp := by
  have hslope : (GainRange.new binary32 start stop y y').slope = 1 := if_pos h
  rw [GainRange.getKp, hslope, one_mul]
  have hadvance : 0 ≤ Binary32.round (sp - start) := round_nonneg (sub_nonneg.mpr hsp)
  exact round_nonneg (add_nonneg (round_nonneg hadvance) hy)

theorem getKp_nonneg_iff (h : ¬ GainRange.IsEmpty binary32 start stop) (hy : Representable y) :
    0 ≤ (GainRange.new binary32 start stop y y').getKp binary32 sp ↔
      descent start stop y y' (Binary32.round (sp - start)) ≤ y := by
  rw [getKp_eq h]
  constructor
  · intro hnonneg
    by_contra hlt
    have hpos := hy.round_sub_pos (representable_round _) (not_le.mp hlt)
    rw [← neg_sub, Binary32.round_neg] at hnonneg
    exact absurd hpos (not_lt.mpr (neg_nonneg.mp hnonneg))
  · intro hle
    exact round_nonneg (sub_nonneg.mpr hle)

/-- No operation of a range leaves the format, and nor does the gain. -/
theorem abs_getKp_le (stop : ℚ) (hy : |y| ≤ 2 ^ 10) (hyy' : |y' - y| ≤ 2 ^ 10)
    (hadvance : |sp - start| ≤ 2 ^ 16) :
    |(GainRange.new binary32 start stop y y').slope| ≤ 2 ^ 33 ∧
      |(GainRange.new binary32 start stop y y').getKp binary32 sp| ≤ 2 ^ 50 := by
  have hslope : |(GainRange.new binary32 start stop y y').slope| ≤ 2 ^ 33 := by
    rw [GainRange.new]
    split_ifs with hempty
    · norm_num
    · have hlength : F32_EPSILON ≤ |binary32.round (stop - start)| :=
        not_lt.mp fun hlt => hempty (Or.inr hlt)
      have hpos : 0 < |binary32.round (stop - start)| := F32_EPSILON_pos.trans_le hlength
      have hrise : |binary32.round (y' - y)| ≤ 2 ^ 10 := abs_round_le (representable_two_pow 10) hyy'
      refine abs_round_le (representable_two_pow 33) ?_
      rw [abs_div, div_le_iff₀ hpos]
      calc |binary32.round (y' - y)| ≤ 2 ^ 33 * F32_EPSILON := by
            rw [F32_EPSILON]
            exact hrise.trans (by norm_num)
        _ ≤ 2 ^ 33 * |binary32.round (stop - start)| :=
            mul_le_mul_of_nonneg_left hlength (by norm_num)
  refine ⟨hslope, abs_round_le (representable_two_pow 50) ?_⟩
  have hadvance' := abs_round_le (representable_two_pow 16) hadvance
  have hproduct : |(GainRange.new binary32 start stop y y').slope *
      Binary32.round (sp - start)| ≤ 2 ^ 49 := by
    rw [abs_mul]
    exact (mul_le_mul hslope hadvance' (abs_nonneg _) (by norm_num)).trans (by norm_num)
  have hround := abs_round_le (representable_two_pow 49) hproduct
  exact (abs_add_le _ _).trans ((add_le_add hround hy).trans (by norm_num))

/-! ### The gains of the CVs -/

/-- A gain in hundredths. -/
def hundredths (n : ℕ) : ℚ := Binary32.round (n / 100)

theorem representable_hundredths (n : ℕ) : Representable (hundredths n) := representable_round _

theorem hundredths_nonneg (n : ℕ) : 0 ≤ hundredths n :=
  round_nonneg (div_nonneg (Nat.cast_nonneg n) (by norm_num))

theorem hundredths_mono {m n : ℕ} (h : m ≤ n) : hundredths m ≤ hundredths n :=
  Binary32.round_mono (div_le_div_of_nonneg_right (Nat.cast_le.mpr h) (by norm_num))

theorem hundredths_zero : hundredths 0 = 0 := by
  rw [hundredths, Nat.cast_zero, zero_div, Binary32.round_zero]

theorem hundredths_le {n : ℕ} (h : n ≤ 65535) : hundredths n ≤ 656 := by
  refine Binary32.round_le (representable_ofNat 656 (by norm_num)) ?_
  rw [div_le_iff₀ (by norm_num)]
  have hcast : (n : ℚ) ≤ 65535 := by exact_mod_cast h
  linarith

/-- Rounding keeps different gains apart. -/
theorem hundredths_add_le {m n : ℕ} (h : m < n) (hn : n ≤ 65535) :
    hundredths m + 1 / 128 ≤ hundredths n := by
  have hnormal : ∀ k : ℕ, 1 ≤ k → (2 : ℚ) ^ (-126 : ℤ) ≤ k / 100 := by
    intro k hk
    have hcast : (1 : ℚ) ≤ k := by exact_mod_cast hk
    have hpow : (2 : ℚ) ^ (-126 : ℤ) ≤ 1 / 100 := by norm_num
    exact hpow.trans (div_le_div_of_nonneg_right hcast (by norm_num))
  have hm : hundredths m ≤ m / 100 * (1 + 1 / 2 ^ 24) := by
    rcases Nat.eq_zero_or_pos m with rfl | hpos
    · rw [hundredths_zero, Nat.cast_zero, zero_div, zero_mul]
    · exact Binary32.round_le_mul (hnormal m hpos)
  have hn' : n / 100 * (1 - 1 / 2 ^ 24) ≤ hundredths n := mul_le_round (hnormal n (by omega))
  have hsucc : (m : ℚ) + 1 ≤ n := by exact_mod_cast h
  have hmax : (n : ℚ) ≤ 65535 := by exact_mod_cast hn
  linarith

theorem hundredths_eq_zero_iff {n : ℕ} (hn : n ≤ 65535) : hundredths n = 0 ↔ n = 0 := by
  constructor
  · intro hzero
    by_contra hne
    have hadd := hundredths_add_le (Nat.pos_of_ne_zero hne) hn
    rw [hundredths_zero, hzero] at hadd
    norm_num at hadd
  · rintro rfl
    exact hundredths_zero

/-- A fall between two gains, if there is one, is no small number. -/
theorem hundredths_sub {m n : ℕ} (hm : m ≤ 65535)
    (h : 0 < Binary32.round (hundredths m - hundredths n)) :
    1 / 128 ≤ hundredths m - hundredths n := by
  rcases Nat.lt_or_ge n m with hlt | hle
  · have hadd := hundredths_add_le hlt hm
    linarith
  · have hneg := round_nonpos (sub_nonpos.mpr (hundredths_mono hle))
    exact absurd h (not_lt.mpr hneg)

theorem normal_quotient {m n : ℕ} (hm : m ≤ 65535) (hd : 0 < d) (hd' : d ≤ 2 ^ 16)
    (h : 0 < Binary32.round (hundredths m - hundredths n)) :
    2 ^ (-126 : ℤ) ≤ Binary32.round (hundredths m - hundredths n) / d := by
  have hpow : Representable (1 / 128) := by
    have hrep := representable_zpow (e := -7) (by norm_num)
    norm_num at hrep ⊢
    exact hrep
  have hround := Binary32.le_round hpow (hundredths_sub hm h)
  rw [le_div_iff₀ hd]
  calc (2 : ℚ) ^ (-126 : ℤ) * d ≤ 2 ^ (-126 : ℤ) * 2 ^ 16 :=
        mul_le_mul_of_nonneg_left hd' (zpow_pos' _).le
    _ ≤ 1 / 128 := by norm_num
    _ ≤ Binary32.round (hundredths m - hundredths n) := hround

/-- A gain that is not 0 leaves room for an error. -/
theorem fall_le {m n : ℕ} (hm : m ≤ 65535) (hn : n ≤ 65535) (hpos : 0 < n) :
    Binary32.round (hundredths m - hundredths n) * (1 + 1 / 2 ^ 24) ≤ hundredths m := by
  rcases le_or_gt (Binary32.round (hundredths m - hundredths n)) 0 with hle | hgt
  · exact (mul_nonpos_of_nonpos_of_nonneg hle (by norm_num)).trans (hundredths_nonneg m)
  · have hsub := hundredths_sub hm hgt
    have hnormal : (2 : ℚ) ^ (-126 : ℤ) ≤ hundredths m - hundredths n :=
      (by norm_num : (2 : ℚ) ^ (-126 : ℤ) ≤ 1 / 128).trans hsub
    have hround := Binary32.round_le_mul hnormal
    have hstop := hundredths_add_le hpos hn
    have hstart := hundredths_le hm
    rw [hundredths_zero] at hstop
    linarith

/-! ### The schedule -/

/-- The gain schedule of the CVs: gains in hundredths and a fraction of 255. -/
def gainConfig (k n₀ n₁ n₂ max : ℕ) : GainConfig :=
  ⟨Binary32.round (k / 255), hundredths n₀, hundredths n₁, hundredths n₂, max⟩

/-- The gain at the highest setpoint is to be 0, and the fall over the second
range rounds to more than the gain it starts from. -/
def GainConfig.MissesZero (cfg : GainConfig) : Prop :=
  let x₁ := cfg.kpX1 binary32
  let length := Binary32.round (cfg.maxSetpoint - x₁)
  cfg.kpY2 = 0 ∧ ¬ GainRange.IsEmpty binary32 x₁ cfg.maxSetpoint ∧
    cfg.kpY1 < Binary32.round (Binary32.round (cfg.kpY1 / length) * length)

section Schedule

variable {k n₀ n₁ n₂ max : ℕ}

theorem representable_max (h : max ≤ 65535) : Representable (max : ℚ) :=
  representable_natCast (h.trans (by norm_num))

theorem kpX1_mem (n₀ n₁ n₂ : ℕ) (hk : k ≤ 255) (hmax : max ≤ 65535) :
    0 ≤ (gainConfig k n₀ n₁ n₂ max).kpX1 binary32 ∧
      (gainConfig k n₀ n₁ n₂ max).kpX1 binary32 ≤ max := by
  have hcast : (k : ℚ) ≤ 255 := by exact_mod_cast hk
  have hfraction₀ : 0 ≤ Binary32.round ((k : ℚ) / 255) :=
    round_nonneg (div_nonneg (Nat.cast_nonneg k) (by norm_num))
  have hfraction₁ : Binary32.round ((k : ℚ) / 255) ≤ 1 :=
    Binary32.round_le representable_one ((div_le_one (by norm_num)).mpr hcast)
  exact ⟨round_nonneg (mul_nonneg (Nat.cast_nonneg max) hfraction₀),
    Binary32.round_le (representable_max hmax)
      (mul_le_of_le_one_right (Nat.cast_nonneg max) hfraction₁)⟩

/-- The length of a range that is not empty. -/
theorem length_mem (h : ¬ GainRange.IsEmpty binary32 start stop)
    (hlength : stop - start ≤ 2 ^ 16) :
    0 < Binary32.round (stop - start) ∧ Binary32.round (stop - start) ≤ 2 ^ 16 := by
  have hlt : start < stop := by
    by_contra hle
    exact h (Or.inl hle)
  have hnonneg := round_nonneg (sub_nonneg.mpr hlt.le)
  have habs : F32_EPSILON ≤ |Binary32.round (stop - start)| := not_lt.mp fun hlt => h (Or.inr hlt)
  rw [abs_of_nonneg hnonneg] at habs
  exact ⟨F32_EPSILON_pos.trans_le habs, Binary32.round_le (representable_two_pow 16) hlength⟩

/-- The end of a range is all that matters. -/
theorem getKp_nonneg {m n : ℕ} (hm : m ≤ 65535) (hlength : stop - start ≤ 2 ^ 16)
    (h₀ : start ≤ sp) (h₁ : sp ≤ stop)
    (hend : Binary32.round (sp - start) = Binary32.round (stop - start) →
      ¬ GainRange.IsEmpty binary32 start stop →
      descent start stop (hundredths m) (hundredths n) (Binary32.round (stop - start)) ≤
        hundredths m) :
    0 ≤ (GainRange.new binary32 start stop (hundredths m) (hundredths n)).getKp binary32 sp := by
  by_cases hempty : GainRange.IsEmpty binary32 start stop
  · exact getKp_nonneg_of_isEmpty hempty (hundredths_nonneg m) h₀
  · rw [getKp_nonneg_iff hempty (representable_hundredths m)]
    have hle := Binary32.round_mono (sub_le_sub_right h₁ start)
    rcases hle.lt_or_eq with hlt | heq
    · obtain ⟨hpos, hd⟩ := length_mem hempty hlength
      have hfall : Binary32.round (hundredths m - hundredths n) ≤ hundredths m :=
        Binary32.round_le (representable_hundredths m) (sub_le_self _ (hundredths_nonneg n))
      exact descend_le (representable_hundredths m) (hundredths_nonneg m) hfall
        (representable_round _) (representable_round _) (round_nonneg (sub_nonneg.mpr h₀)) hlt
        (normal_quotient hm hpos hd)
    · rw [heq]
      exact hend heq hempty

theorem isGain_getKp {m n : ℕ} (hm : m ≤ 65535) (hn : n ≤ 65535) (h₀ : start ≤ sp)
    (hadvance : sp - start ≤ 2 ^ 16)
    (hnonneg : 0 ≤ (GainRange.new binary32 start stop (hundredths m) (hundredths n)).getKp
      binary32 sp) :
    IsGain ((GainRange.new binary32 start stop (hundredths m) (hundredths n)).getKp
      binary32 sp) := by
  have hm₀ := hundredths_nonneg m
  have hm₁ := hundredths_le hm
  have hn₀ := hundredths_nonneg n
  have hn₁ := hundredths_le hn
  have hgain : |hundredths m| ≤ 2 ^ 10 := abs_le.mpr ⟨by linarith, by linarith⟩
  have hrise : |hundredths n - hundredths m| ≤ 2 ^ 10 := abs_le.mpr ⟨by linarith, by linarith⟩
  have hadvance' : |sp - start| ≤ 2 ^ 16 := by rwa [abs_of_nonneg (sub_nonneg.mpr h₀)]
  have hbound := (abs_getKp_le stop hgain hrise hadvance').2
  have hfinite : (2 : ℚ) ^ 50 < 2 ^ 128 := by norm_num
  exact ⟨hnonneg, ((le_abs_self _).trans hbound).trans_lt hfinite⟩

/-- Every setpoint has a gain that is accepted, unless the schedule misses 0. -/
theorem isGain_kpForSetpoint_iff (hk : k ≤ 255) (h₀ : n₀ ≤ 65535) (h₁ : n₁ ≤ 65535)
    (h₂ : n₂ ≤ 65535) (hmax : max ≤ 65535) :
    (∀ sp, Representable sp → IsGain ((GainSchedule.new binary32
      (gainConfig k n₀ n₁ n₂ max)).kpForSetpoint binary32 (clamp sp 0 max))) ↔
      ¬ (gainConfig k n₀ n₁ n₂ max).MissesZero := by
  set cfg := gainConfig k n₀ n₁ n₂ max with hcfg
  obtain ⟨hx₀, hx₁⟩ := kpX1_mem n₀ n₁ n₂ hk hmax
  rw [← hcfg] at hx₀ hx₁
  have hmax₀ : (0 : ℚ) ≤ max := Nat.cast_nonneg max
  have hmax₁ : (max : ℚ) ≤ 2 ^ 16 := by
    have hcast : (max : ℚ) ≤ 65535 := by exact_mod_cast hmax
    exact hcast.trans (by norm_num)
  have hlength : cfg.maxSetpoint - cfg.kpX1 binary32 ≤ 2 ^ 16 :=
    (sub_le_self _ hx₀).trans hmax₁
  constructor
  · rintro hgain ⟨hzero, hempty, hlt⟩
    have hat := hgain max (representable_max hmax)
    rw [clamp_of_mem hmax₀ le_rfl] at hat
    have hhigh : (GainSchedule.new binary32 cfg).kpForSetpoint binary32 max =
        (GainSchedule.new binary32 cfg).gainRangeHigh.getKp binary32 max :=
      GainSchedule.kpForSetpoint_of_le hmax₀ le_rfl hx₁
    rw [hhigh] at hat
    have hle := (getKp_nonneg_iff hempty (representable_hundredths n₁)).mp hat.1
    rw [descent, hzero, sub_zero,
      round_of_representable (representable_hundredths n₁)] at hle
    exact absurd hlt (not_lt.mpr hle)
  · intro hmiss sp hsp
    obtain ⟨hc₀, hc₁, hc⟩ : 0 ≤ clamp sp 0 max ∧ clamp sp 0 max ≤ max ∧
        Representable (clamp sp 0 max) := by
      rw [clamp]
      split_ifs with hneg hbig
      · exact ⟨le_rfl, hmax₀, by exact_mod_cast representable_natCast (n := 0) (by norm_num)⟩
      · exact ⟨hmax₀, le_rfl, representable_max hmax⟩
      · exact ⟨not_lt.mp hneg, not_lt.mp hbig, hsp⟩
    set c := clamp sp 0 max
    rcases lt_or_ge c (cfg.kpX1 binary32) with hlow | hhigh
    · have hkp : (GainSchedule.new binary32 cfg).kpForSetpoint binary32 c = _ :=
        GainSchedule.kpForSetpoint_of_lt hc₀ hc₁ hlow
      rw [hkp]
      have hadvance : c - 0 ≤ 2 ^ 16 := by linarith
      refine isGain_getKp h₀ h₁ hc₀ hadvance
        (getKp_nonneg h₀ (by linarith) hc₀ hlow.le fun heq => ?_)
      -- before the end of the first range
      rw [sub_zero, sub_zero, round_of_representable hc,
        round_of_representable (show Representable (cfg.kpX1 binary32) from
          representable_round _)] at heq
      exact absurd heq hlow.ne
    · have hkp : (GainSchedule.new binary32 cfg).kpForSetpoint binary32 c = _ :=
        GainSchedule.kpForSetpoint_of_le hc₀ hc₁ hhigh
      rw [hkp]
      refine isGain_getKp h₁ h₂ hhigh (by linarith)
        (getKp_nonneg h₁ hlength hhigh hc₁ fun _ hempty => ?_)
      rcases Nat.eq_zero_or_pos n₂ with rfl | hpos
      · have hle := not_lt.mp fun hlt => hmiss ⟨hundredths_zero, hempty, hlt⟩
        rw [descent, hundredths_zero, sub_zero,
          round_of_representable (representable_hundredths n₁)]
        exact hle
      · obtain ⟨hd, hd'⟩ := length_mem hempty hlength
        exact descend_end_le (representable_hundredths n₁) (hundredths_nonneg n₁)
          (fall_le h₁ h₂ hpos) hd (normal_quotient h₁ hd hd')

end Schedule

end Rp2040
