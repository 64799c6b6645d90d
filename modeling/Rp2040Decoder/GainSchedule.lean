/-
The gain schedule of the PID controller: `GainRange` and `kp_for_setpoint` of
`motor/src/speed/pid.rs`, and `get_kp` of `Software/core1.c`.

The gain is linear over two ranges of the setpoint, and a range that is empty
has a slope of 1 in place of one that would divide by 0.  The definitions are in
the arithmetic of a floating point format, the results those of exact arithmetic.

* `kpForSetpoint_low`, `kpForSetpoint_high`, `kpForSetpoint_join` — linear
  interpolation over each range that is not empty, and the gain between them;
* `getKp_low`, `getKp_high` — which are all cases;
* `kpForSetpoint_spec` — bounded, free of the slope of an empty range, and the
  gain of the C code.
-/
import Rp2040Decoder.Interpolation
import Rp2040Decoder.Rounding

namespace Rp2040

open Interpolation Rounding FloatRounding

/-- `f32::EPSILON` -/
def F32_EPSILON : ℚ := 1 / 2 ^ 23

/-- `GainRange` -/
structure GainRange where
  start : ℚ
  stop : ℚ
  kpStart : ℚ
  slope : ℚ

namespace GainRange

/-- A range that is empty or almost so. -/
def IsEmpty (rnd : FloatRounding) (start stop : ℚ) : Prop :=
  ¬ start < stop ∨ |rnd.round (stop - start)| < F32_EPSILON

instance (rnd : FloatRounding) (start stop : ℚ) : Decidable (IsEmpty rnd start stop) :=
  inferInstanceAs (Decidable (_ ∨ _))

def new (rnd : FloatRounding) (start stop kpStart kpEnd : ℚ) : GainRange :=
  let slope :=
    if IsEmpty rnd start stop then 1
    else rnd.round (rnd.round (kpEnd - kpStart) / rnd.round (stop - start))
  ⟨start, stop, kpStart, slope⟩

def getKp (rnd : FloatRounding) (self : GainRange) (setpoint : ℚ) : ℚ :=
  rnd.round (rnd.round (self.slope * rnd.round (setpoint - self.start)) + self.kpStart)

def contains (self : GainRange) (setpoint : ℚ) : Bool :=
  decide (self.start ≤ setpoint ∧ setpoint < self.stop)

/-- The range with another slope if it is empty. -/
def withSlope (rnd : FloatRounding) (slope : ℚ) (self : GainRange) : GainRange :=
  { self with slope := if IsEmpty rnd self.start self.stop then slope else self.slope }

end GainRange

/-- The parameters of the gain schedule in `Config` of `pid.rs`. -/
structure GainConfig where
  /-- The end of the first range as a fraction of `maxSetpoint`. -/
  kpGainRange1End : ℚ
  kpY0 : ℚ
  kpY1 : ℚ
  kpY2 : ℚ
  maxSetpoint : ℚ

/-- The gain ranges of `Controller`. -/
structure GainSchedule where
  gainRangeLow : GainRange
  gainRangeHigh : GainRange

/-- The end of the first range. -/
def GainConfig.kpX1 (rnd : FloatRounding) (cfg : GainConfig) : ℚ :=
  rnd.round (cfg.maxSetpoint * cfg.kpGainRange1End)

namespace GainSchedule

/-- The gain scheduling part of `Controller::new`. -/
def new (rnd : FloatRounding) (cfg : GainConfig) : GainSchedule :=
  ⟨.new rnd 0 (cfg.kpX1 rnd) cfg.kpY0 cfg.kpY1,
    .new rnd (cfg.kpX1 rnd) cfg.maxSetpoint cfg.kpY1 cfg.kpY2⟩

/-- `kp_for_setpoint` -/
def kpForSetpoint (rnd : FloatRounding) (self : GainSchedule) (sp : ℚ) : ℚ :=
  let sp := clamp sp self.gainRangeLow.start self.gainRangeHigh.stop
  if self.gainRangeLow.contains sp then self.gainRangeLow.getKp rnd sp
  else self.gainRangeHigh.getKp rnd sp

/-- The schedule with other slopes for the ranges that are empty. -/
def withSlopes (rnd : FloatRounding) (low high : ℚ) (self : GainSchedule) : GainSchedule :=
  ⟨self.gainRangeLow.withSlope rnd low, self.gainRangeHigh.withSlope rnd high⟩

end GainSchedule

/-! ### The C firmware -/

/-- The gain schedule of `controller_parameter_t`; a slope that divides by 0 is
none. -/
structure Core1Gains where
  kPX1 : ℚ
  kPY0 : ℚ
  kPY1 : ℚ
  kPM1 : Option ℚ
  kPM2 : Option ℚ

namespace Core1Gains

def quotient (x y : ℚ) : Option ℚ := if y = 0 then none else some (x / y)

/-- The gain schedule part of `init_controller`. -/
def init (cfg : GainConfig) : Core1Gains :=
  let kPX1Shift := cfg.kpGainRange1End
  let kPX1 := cfg.maxSetpoint * kPX1Shift
  let kPX2 := cfg.maxSetpoint * (1 - kPX1Shift)
  ⟨kPX1, cfg.kpY0, cfg.kpY1, quotient (cfg.kpY1 - cfg.kpY0) kPX1,
    quotient (cfg.kpY2 - cfg.kpY1) kPX2⟩

/-- `get_kp` -/
def getKp (self : Core1Gains) (sp : ℚ) : Option ℚ :=
  if sp < self.kPX1 then self.kPM1.map fun m₁ => m₁ * sp + self.kPY0
  else self.kPM2.map fun m₂ => m₂ * (sp - self.kPX1) + self.kPY1

end Core1Gains

/-! ### Configurations -/

/-- A configuration of the CVs: gains that are not negative, a fraction of 255
and a setpoint of the speed table. -/
structure GainConfig.Valid (cfg : GainConfig) : Prop where
  kpY0 : 0 ≤ cfg.kpY0
  kpY1 : 0 ≤ cfg.kpY1
  kpY2 : 0 ≤ cfg.kpY2
  kpGainRange1End : ∃ k : ℕ, k ≤ 255 ∧ cfg.kpGainRange1End = k / 255
  maxSetpoint : ∃ n : ℕ, cfg.maxSetpoint = n

namespace GainSchedule

variable {cfg : GainConfig} {sp : ℚ}

/-- The end of the first range lies among the setpoints, a multiple of 1/255. -/
theorem exists_kpX1 (h : cfg.Valid) : ∃ a b : ℕ, cfg.kpX1 exact = a / 255 ∧
    cfg.maxSetpoint = b / 255 ∧ a ≤ b := by
  obtain ⟨k, hk, hend⟩ := h.kpGainRange1End
  obtain ⟨n, hmax⟩ := h.maxSetpoint
  refine ⟨n * k, n * 255, ?_, ?_, Nat.mul_le_mul_left n hk⟩
  · rw [GainConfig.kpX1, round_exact, hend, hmax, Nat.cast_mul, mul_div_assoc]
  · rw [hmax, Nat.cast_mul, Nat.cast_ofNat, mul_div_cancel_right₀ _ (by norm_num)]

theorem kpX1_nonneg (h : cfg.Valid) : 0 ≤ cfg.kpX1 exact := by
  obtain ⟨a, -, ha, -⟩ := exists_kpX1 h
  rw [ha]
  exact div_nonneg (Nat.cast_nonneg _) (by norm_num)

theorem kpX1_le (h : cfg.Valid) : cfg.kpX1 exact ≤ cfg.maxSetpoint := by
  obtain ⟨a, b, ha, hb, hle⟩ := exists_kpX1 h
  rw [ha, hb]
  exact div_le_div_of_nonneg_right (Nat.cast_le.mpr hle) (by norm_num)

/-- Multiples of 1/255 that are close are the same. -/
theorem isEmpty_iff {a b : ℕ} :
    GainRange.IsEmpty exact ((a : ℚ) / 255) (b / 255) ↔ b ≤ a := by
  have hlt : (a : ℚ) / 255 < b / 255 ↔ a < b := by
    rw [div_lt_div_iff_of_pos_right (by norm_num), Nat.cast_lt]
  rw [GainRange.IsEmpty, hlt, round_exact]
  constructor
  · rintro (hle | hclose)
    · omega
    · by_contra hlt
      have hone : (a : ℚ) + 1 ≤ b := by exact_mod_cast Nat.lt_of_not_le hlt
      have hdiff : 1 / 255 ≤ (b : ℚ) / 255 - a / 255 := by
        rw [← sub_div]
        exact div_le_div_of_nonneg_right (by linarith) (by norm_num)
      have habs := hdiff.trans (le_abs_self _)
      have heps : F32_EPSILON ≤ 1 / 255 := by
        rw [F32_EPSILON]
        norm_num
      exact absurd hclose (not_lt.mpr (heps.trans habs))
  · intro hle
    exact Or.inl (by omega)

theorem isEmpty_low_iff (h : cfg.Valid) :
    GainRange.IsEmpty exact 0 (cfg.kpX1 exact) ↔ cfg.kpX1 exact = 0 := by
  obtain ⟨a, -, ha, -⟩ := exists_kpX1 h
  have hzero : ((0 : ℕ) : ℚ) / 255 = 0 := by norm_num
  rw [ha, ← hzero, isEmpty_iff, div_left_inj' (by norm_num), Nat.cast_inj, Nat.le_zero]

theorem isEmpty_high_iff (h : cfg.Valid) :
    GainRange.IsEmpty exact (cfg.kpX1 exact) cfg.maxSetpoint ↔
      cfg.kpX1 exact = cfg.maxSetpoint := by
  obtain ⟨a, b, ha, hb, hle⟩ := exists_kpX1 h
  rw [ha, hb, isEmpty_iff, div_left_inj' (by norm_num), Nat.cast_inj]
  omega

/-! ### The gain -/

theorem kpForSetpoint_of_lt {rnd : FloatRounding} {self : GainSchedule}
    (h₀ : self.gainRangeLow.start ≤ sp) (h₁ : sp ≤ self.gainRangeHigh.stop)
    (hlt : sp < self.gainRangeLow.stop) :
    self.kpForSetpoint rnd sp = self.gainRangeLow.getKp rnd sp := by
  rw [kpForSetpoint, clamp_of_mem h₀ h₁]
  exact if_pos (decide_eq_true ⟨h₀, hlt⟩)

theorem kpForSetpoint_of_le {rnd : FloatRounding} {self : GainSchedule}
    (h₀ : self.gainRangeLow.start ≤ sp) (h₁ : sp ≤ self.gainRangeHigh.stop)
    (hle : self.gainRangeLow.stop ≤ sp) :
    self.kpForSetpoint rnd sp = self.gainRangeHigh.getKp rnd sp := by
  rw [kpForSetpoint, clamp_of_mem h₀ h₁]
  exact if_neg fun hcontains => absurd (of_decide_eq_true hcontains).2 (not_lt.mpr hle)

theorem getKp_low (h : cfg.Valid) (hpos : 0 < cfg.kpX1 exact) :
    (new exact cfg).gainRangeLow.getKp exact sp =
      interpolate 0 cfg.kpY0 (cfg.kpX1 exact) cfg.kpY1 sp := by
  have hslope : (new exact cfg).gainRangeLow.slope =
      (cfg.kpY1 - cfg.kpY0) / (cfg.kpX1 exact - 0) :=
    if_neg (mt (isEmpty_low_iff h).mp hpos.ne')
  rw [interpolate_eq_slope hpos.ne, GainRange.getKp, hslope]
  rfl

theorem getKp_high (h : cfg.Valid) (hlt : cfg.kpX1 exact < cfg.maxSetpoint) :
    (new exact cfg).gainRangeHigh.getKp exact sp =
      interpolate (cfg.kpX1 exact) cfg.kpY1 cfg.maxSetpoint cfg.kpY2 sp := by
  have hslope : (new exact cfg).gainRangeHigh.slope =
      (cfg.kpY2 - cfg.kpY1) / (cfg.maxSetpoint - cfg.kpX1 exact) :=
    if_neg (mt (isEmpty_high_iff h).mp hlt.ne)
  rw [interpolate_eq_slope hlt.ne, GainRange.getKp, hslope]
  rfl

/-- Between the ranges, the gain does not depend on a slope. -/
theorem kpForSetpoint_join (h : cfg.Valid) :
    (new exact cfg).kpForSetpoint exact (cfg.kpX1 exact) = cfg.kpY1 := by
  have hhigh : (new exact cfg).kpForSetpoint exact (cfg.kpX1 exact) = _ :=
    kpForSetpoint_of_le (kpX1_nonneg h) (kpX1_le h) le_rfl
  rw [hhigh, GainRange.getKp]
  show (new exact cfg).gainRangeHigh.slope * (cfg.kpX1 exact - cfg.kpX1 exact) + cfg.kpY1 = _
  rw [sub_self, mul_zero, zero_add]

theorem kpForSetpoint_low (h : cfg.Valid) (h₀ : 0 ≤ sp) (hpos : 0 < cfg.kpX1 exact)
    (hle : sp ≤ cfg.kpX1 exact) : (new exact cfg).kpForSetpoint exact sp =
      interpolate 0 cfg.kpY0 (cfg.kpX1 exact) cfg.kpY1 sp := by
  rcases hle.lt_or_eq with hlt | rfl
  · rw [← getKp_low h hpos]
    exact kpForSetpoint_of_lt h₀ (hle.trans (kpX1_le h)) hlt
  · rw [kpForSetpoint_join h, interpolate_right hpos.ne]

theorem kpForSetpoint_high (h : cfg.Valid) (h₁ : sp ≤ cfg.maxSetpoint)
    (hlt : cfg.kpX1 exact < cfg.maxSetpoint) (hle : cfg.kpX1 exact ≤ sp) :
    (new exact cfg).kpForSetpoint exact sp =
      interpolate (cfg.kpX1 exact) cfg.kpY1 cfg.maxSetpoint cfg.kpY2 sp := by
  rw [← getKp_high h hlt]
  exact kpForSetpoint_of_le ((kpX1_nonneg h).trans hle) h₁ hle

/-- The smallest and the largest gain bound the gain. -/
theorem kpForSetpoint_bounded (h : cfg.Valid) (h₀ : 0 ≤ sp) (h₁ : sp ≤ cfg.maxSetpoint) :
    min cfg.kpY0 (min cfg.kpY1 cfg.kpY2) ≤ (new exact cfg).kpForSetpoint exact sp ∧
      (new exact cfg).kpForSetpoint exact sp ≤ max cfg.kpY0 (max cfg.kpY1 cfg.kpY2) := by
  have hmin : min cfg.kpY0 (min cfg.kpY1 cfg.kpY2) ≤ min cfg.kpY1 cfg.kpY2 := min_le_right _ _
  have hmax : max cfg.kpY1 cfg.kpY2 ≤ max cfg.kpY0 (max cfg.kpY1 cfg.kpY2) := le_max_right _ _
  have hmin₁ := hmin.trans (min_le_left cfg.kpY1 cfg.kpY2)
  have hmax₁ := (le_max_left cfg.kpY1 cfg.kpY2).trans hmax
  rcases lt_or_ge sp (cfg.kpX1 exact) with hlt | hle
  · have hpos := h₀.trans_lt hlt
    rw [kpForSetpoint_low h h₀ hpos hlt.le]
    exact ⟨le_interpolate hpos h₀ hlt.le (min_le_left _ _) hmin₁,
      interpolate_le hpos h₀ hlt.le (le_max_left _ _) hmax₁⟩
  · rcases (kpX1_le h).lt_or_eq with hlt | heq
    · rw [kpForSetpoint_high h h₁ hlt hle]
      exact ⟨hmin.trans (min_le_interpolate hlt hle h₁),
        (interpolate_le_max hlt hle h₁).trans hmax⟩
    · obtain rfl : sp = cfg.kpX1 exact := le_antisymm (h₁.trans_eq heq.symm) hle
      rw [kpForSetpoint_join h]
      exact ⟨hmin₁, hmax₁⟩

/-! ### The slope of an empty range -/

/-- At the start of a range its slope does not matter. -/
theorem getKp_start (range : GainRange) : range.getKp exact range.start = range.kpStart := by
  rw [GainRange.getKp, sub_self, round_exact, round_exact, round_exact, mul_zero, zero_add]

theorem kpForSetpoint_withSlopes (h : cfg.Valid) (low high : ℚ) (h₀ : 0 ≤ sp)
    (h₁ : sp ≤ cfg.maxSetpoint) :
    ((new exact cfg).withSlopes exact low high).kpForSetpoint exact sp =
      (new exact cfg).kpForSetpoint exact sp := by
  rcases lt_or_ge sp (cfg.kpX1 exact) with hlt | hle
  · have hslope : (new exact cfg).gainRangeLow.withSlope exact low =
        (new exact cfg).gainRangeLow := by
      have hne : ¬ GainRange.IsEmpty exact 0 (cfg.kpX1 exact) :=
        mt (isEmpty_low_iff h).mp (h₀.trans_lt hlt).ne'
      rw [GainRange.withSlope, if_neg (show ¬ GainRange.IsEmpty exact
        (new exact cfg).gainRangeLow.start (new exact cfg).gainRangeLow.stop from hne)]
    have hold : (new exact cfg).kpForSetpoint exact sp = _ := kpForSetpoint_of_lt h₀ h₁ hlt
    have hnew : ((new exact cfg).withSlopes exact low high).kpForSetpoint exact sp = _ :=
      kpForSetpoint_of_lt h₀ h₁ hlt
    rw [hnew, hold]
    exact congrArg (GainRange.getKp exact · sp) hslope
  · have hold : (new exact cfg).kpForSetpoint exact sp = _ := kpForSetpoint_of_le h₀ h₁ hle
    have hnew : ((new exact cfg).withSlopes exact low high).kpForSetpoint exact sp = _ :=
      kpForSetpoint_of_le h₀ h₁ hle
    rw [hnew, hold]
    rcases (kpX1_le h).lt_or_eq with hmax | heq
    · have hne : ¬ GainRange.IsEmpty exact (cfg.kpX1 exact) cfg.maxSetpoint :=
        mt (isEmpty_high_iff h).mp hmax.ne
      have hslope : (new exact cfg).gainRangeHigh.withSlope exact high =
          (new exact cfg).gainRangeHigh := by
        rw [GainRange.withSlope, if_neg (show ¬ GainRange.IsEmpty exact
          (new exact cfg).gainRangeHigh.start (new exact cfg).gainRangeHigh.stop from hne)]
      exact congrArg (GainRange.getKp exact · sp) hslope
    · -- an empty range is used at its start only
      obtain rfl : sp = cfg.kpX1 exact := le_antisymm (h₁.trans_eq heq.symm) hle
      exact (getKp_start ((new exact cfg).gainRangeHigh.withSlope exact high)).trans
        (getKp_start (new exact cfg).gainRangeHigh).symm

/-! ### The C firmware -/

theorem quotient_eq_some {x y z : ℚ} (h : Core1Gains.quotient x y = some z) :
    y ≠ 0 ∧ z = x / y := by
  rw [Core1Gains.quotient] at h
  split at h
  · exact absurd h (Option.some_ne_none z).symm
  · exact ⟨‹_›, (Option.some.inj h).symm⟩

/-- The C code computes the length of the second range another way. -/
theorem kPX2_eq : cfg.maxSetpoint * (1 - cfg.kpGainRange1End) =
    cfg.maxSetpoint - cfg.kpX1 exact := by
  rw [GainConfig.kpX1, round_exact, mul_sub, mul_one]

/-- A gain of the C code whose slope is defined. -/
theorem kpForSetpoint_core1 (h : cfg.Valid) (h₀ : 0 ≤ sp) (h₁ : sp ≤ cfg.maxSetpoint) {kp : ℚ}
    (hkp : (Core1Gains.init cfg).getKp sp = some kp) :
    (new exact cfg).kpForSetpoint exact sp = kp := by
  rw [Core1Gains.getKp] at hkp
  split at hkp
  · rename_i hlt
    obtain ⟨m₁, hm₁, rfl⟩ := Option.map_eq_some_iff.mp hkp
    obtain ⟨-, rfl⟩ := quotient_eq_some hm₁
    have hlt' : sp < cfg.kpX1 exact := hlt
    have hpos := h₀.trans_lt hlt'
    rw [kpForSetpoint_low h h₀ hpos hlt'.le, interpolate_eq_slope hpos.ne, sub_zero, sub_zero]
    rfl
  · rename_i hle
    obtain ⟨m₂, hm₂, rfl⟩ := Option.map_eq_some_iff.mp hkp
    obtain ⟨hne, rfl⟩ := quotient_eq_some hm₂
    rw [kPX2_eq] at hne
    have hlt : cfg.kpX1 exact < cfg.maxSetpoint :=
      (kpX1_le h).lt_of_ne fun heq => hne (sub_eq_zero.mpr heq.symm)
    rw [kpForSetpoint_high h h₁ hlt (not_lt.mp hle), interpolate_eq_slope hlt.ne, kPX2_eq]
    rfl

theorem core1_isSome (sp : ℚ) (h₁ : (Core1Gains.init cfg).kPM1.isSome)
    (h₂ : (Core1Gains.init cfg).kPM2.isSome) : ((Core1Gains.init cfg).getKp sp).isSome := by
  rw [Core1Gains.getKp]
  split
  · rwa [Option.isSome_map]
  · rwa [Option.isSome_map]

/-! ### The specification -/

/-- What is promised of the gain at a setpoint. -/
structure Spec (cfg : GainConfig) (sp : ℚ) : Prop where
  low : 0 < cfg.kpX1 exact → sp ≤ cfg.kpX1 exact → (new exact cfg).kpForSetpoint exact sp =
    interpolate 0 cfg.kpY0 (cfg.kpX1 exact) cfg.kpY1 sp
  high : cfg.kpX1 exact < cfg.maxSetpoint → cfg.kpX1 exact ≤ sp →
    (new exact cfg).kpForSetpoint exact sp =
      interpolate (cfg.kpX1 exact) cfg.kpY1 cfg.maxSetpoint cfg.kpY2 sp
  join : sp = cfg.kpX1 exact → (new exact cfg).kpForSetpoint exact sp = cfg.kpY1
  bounded : min cfg.kpY0 (min cfg.kpY1 cfg.kpY2) ≤ (new exact cfg).kpForSetpoint exact sp ∧
    (new exact cfg).kpForSetpoint exact sp ≤ max cfg.kpY0 (max cfg.kpY1 cfg.kpY2)
  /-- the slope of an empty range does not matter -/
  placeholder : ∀ low high, ((new exact cfg).withSlopes exact low high).kpForSetpoint exact sp =
    (new exact cfg).kpForSetpoint exact sp
  /-- the C code agrees where both its slopes are defined -/
  core1 : (Core1Gains.init cfg).kPM1.isSome → (Core1Gains.init cfg).kPM2.isSome →
    (Core1Gains.init cfg).getKp sp = some ((new exact cfg).kpForSetpoint exact sp)
  /-- and where the one is that it uses -/
  core1_used : ∀ kp, (Core1Gains.init cfg).getKp sp = some kp →
    (new exact cfg).kpForSetpoint exact sp = kp

/-- **The gain schedule.**  The gain is the piecewise linear interpolation of the
three gains, lies between them, does not depend on the slope of a range that is
empty, and is the gain of the C code. -/
theorem kpForSetpoint_spec (h : cfg.Valid) (h₀ : 0 ≤ sp) (h₁ : sp ≤ cfg.maxSetpoint) :
    Spec cfg sp where
  low hpos hle := kpForSetpoint_low h h₀ hpos hle
  high hlt hle := kpForSetpoint_high h h₁ hlt hle
  join hsp := hsp ▸ kpForSetpoint_join h
  bounded := kpForSetpoint_bounded h h₀ h₁
  placeholder low high := kpForSetpoint_withSlopes h low high h₀ h₁
  core1 hm₁ hm₂ := by
    obtain ⟨kp, hkp⟩ := Option.isSome_iff_exists.mp (core1_isSome sp hm₁ hm₂)
    rw [hkp, kpForSetpoint_core1 h h₀ h₁ hkp]
  core1_used _ hkp := kpForSetpoint_core1 h h₀ h₁ hkp

/-- The schedule of the default CVs at half the highest setpoint. -/
theorem kpForSetpoint_spec_default : Spec ⟨13 / 255, 20, 5 / 2, 3 / 2, 1600⟩ 800 :=
  kpForSetpoint_spec ⟨by norm_num, by norm_num, by norm_num, ⟨13, by norm_num, by norm_num⟩,
    ⟨1600, by norm_num⟩⟩ (by norm_num) (by norm_num)

end GainSchedule

end Rp2040
