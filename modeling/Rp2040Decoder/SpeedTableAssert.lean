/-
The assertion of `calc_step` (`motor/src/speed/table.rs`) in single precision.

On a segment that falls, rounding errors might take the value below 0.  They do
not: before the end of the segment the gap to it makes up for them, and at the
end the level there does.  If that is 0, each voltage is checked.

* `fall_le_start` — a segment falls by no more than it starts from;
* `asserted` — the assertion holds for every entry of every table;
* `buildChecked_binary32` — so no build panics at it.
-/
import Rp2040Decoder.Overflow
import Rp2040Decoder.PidGain
import Rp2040Decoder.SpeedTable

namespace Rp2040

open Binary32 Rounding FloatRounding

namespace SpeedTable

instance (x : ℚ) : Decidable (InRange x) := inferInstanceAs (Decidable (_ ∧ _))

/-- The assertion of `calc_step` holds for every entry. -/
def Config.Asserted (rnd : FloatRounding) (config : Config) : Prop :=
  (∀ idx < 63, InRange (stepValue rnd config.vMin (config.vMid16 rnd) idx)) ∧
    ∀ idx < 64, 0 < idx → InRange (stepValue rnd (config.vMid16 rnd) (config.vMax rnd) idx)

instance (rnd : FloatRounding) (config : Config) : Decidable (config.Asserted rnd) :=
  inferInstanceAs (Decidable (_ ∧ _))

/-- `build` with its assertions; none is a panic. -/
def buildChecked (p : Profile) (rnd : FloatRounding) (config : Config) : Option SpeedTable :=
  match p with
  | .dev => if config.Asserted rnd then some (build rnd config) else none
  | .release => some (build rnd config)

variable {config : Config} {a b idx : ℕ}

/-! ### The fall of a segment -/

theorem representable_sub (ha : a ≤ 4080) (hb : b ≤ 4080) : Representable ((a : ℚ) - b) := by
  rcases Nat.le_total b a with hle | hle
  · rw [← Nat.cast_sub hle]
    exact representable_natCast (by omega)
  · rw [← neg_sub, ← Nat.cast_sub hle]
    exact (representable_natCast (by omega)).neg

/-- The fall from a level to 0, for each voltage. -/
theorem fall_to_zero : ∀ v < 256,
    Binary32.round (Binary32.round (((v * 16 : ℕ) : ℚ) / 63) * 63) ≤ ((v * 16 : ℕ) : ℚ) := by
  decide +kernel

/-- A segment falls by no more than it starts from. -/
theorem fall_le_start (ha : a ≤ 4080) (hidx : idx ≤ 63)
    (hend : idx = 63 → b = 0 → ∃ v < 256, a = v * 16) :
    Binary32.round (Binary32.round (((a : ℚ) - b) / 63) * idx) ≤ a := by
  have ha' : Representable (a : ℚ) := representable_natCast (by omega)
  have hnormal : 0 < (a : ℚ) - b → 2 ^ (-126 : ℤ) ≤ ((a : ℚ) - b) / 63 := by
    intro hpos
    have hlt : b + 1 ≤ a := Nat.cast_lt.mp (sub_pos.mp hpos)
    have hone : (1 : ℚ) ≤ (a : ℚ) - b := by
      rw [le_sub_iff_add_le']
      exact_mod_cast hlt
    have hpow : (2 : ℚ) ^ (-126 : ℤ) ≤ 1 / 63 := by norm_num
    exact hpow.trans (div_le_div_of_nonneg_right hone (by norm_num))
  rcases Nat.lt_or_eq_of_le hidx with hlt | rfl
  · -- before the end of the segment
    have hidx' : (idx : ℚ) < 63 := by exact_mod_cast hlt
    exact descend_le ha' (Nat.cast_nonneg a) (sub_le_self _ (Nat.cast_nonneg b))
      (representable_natCast (by omega)) (representable_ofNat 63 (by norm_num))
      (Nat.cast_nonneg idx) hidx' hnormal
  rw [Nat.cast_ofNat]
  rcases Nat.eq_zero_or_pos b with rfl | hpos
  · obtain ⟨v, hv, rfl⟩ := hend rfl rfl
    rw [Nat.cast_zero, sub_zero]
    exact fall_to_zero v hv
  · have hb : (1 : ℚ) ≤ b := by exact_mod_cast hpos
    have ha₁ : (a : ℚ) ≤ 4080 := by exact_mod_cast ha
    exact descend_end_le ha' (Nat.cast_nonneg a) (by linarith) (by norm_num) hnormal

theorem stepValue_binary32 (ha : a ≤ 4080) (hb : b ≤ 4080) :
    stepValue binary32 a b idx =
      Binary32.round (a - Binary32.round (Binary32.round (((a : ℚ) - b) / 63) * idx)) := by
  have hround : Binary32.round ((b : ℚ) - a) = -((a : ℚ) - b) := by
    rw [round_of_representable (representable_sub hb ha), neg_sub]
  rw [stepValue]
  simp only [round_binary32, hround, neg_div, Binary32.round_neg, neg_mul]
  rw [neg_add_eq_sub]

theorem inRange_stepValue_binary32 (ha : a ≤ 4080) (hb : b ≤ 4080) (hidx : idx ≤ 63)
    (hend : idx = 63 → b = 0 → ∃ v < 256, a = v * 16) :
    InRange (stepValue binary32 a b idx) := by
  have ha' : (a : ℚ) ≤ 4080 := by exact_mod_cast ha
  have hb' : (b : ℚ) ≤ 4080 := by exact_mod_cast hb
  have hidx₀ : (0 : ℚ) ≤ idx := Nat.cast_nonneg idx
  have hidx' : (idx : ℚ) ≤ 63 := by exact_mod_cast hidx
  have ha₀ : (0 : ℚ) ≤ a := Nat.cast_nonneg a
  have hslope : -65 ≤ Binary32.round (((a : ℚ) - b) / 63) := by
    refine Binary32.le_round (representable_ofNat 65 (by norm_num)).neg ?_
    rw [le_div_iff₀ (by norm_num)]
    linarith
  have hproduct : -4095 ≤ Binary32.round (Binary32.round (((a : ℚ) - b) / 63) * idx) := by
    refine Binary32.le_round (representable_ofNat 4095 (by norm_num)).neg ?_
    calc (-4095 : ℚ) = -65 * 63 := by norm_num
      _ ≤ -65 * idx := mul_le_mul_of_nonpos_left hidx' (by norm_num)
      _ ≤ Binary32.round (((a : ℚ) - b) / 63) * idx := mul_le_mul_of_nonneg_right hslope hidx₀
  rw [stepValue_binary32 ha hb]
  refine ⟨round_nonneg (sub_nonneg.mpr (fall_le_start ha hidx hend)), ?_⟩
  refine Binary32.round_le (representable_ofNat 65535 (by norm_num)) ?_
  linarith

/-! ### The table -/

theorem vMid16_binary32 : config.vMid16 binary32 = ((config.vMid.toNat * 16 : ℕ) : ℚ) := by
  have hlt := config.vMid.toNat_lt
  rw [Config.vMid16, Nat.cast_mul, Nat.cast_ofNat]
  exact_mod_cast round_of_representable
    (representable_natCast (n := config.vMid.toNat * 16) (by omega))

theorem vMax_binary32 : config.vMax binary32 = ((config.vHigh.toNat * 16 : ℕ) : ℚ) := by
  have hlt := config.vHigh.toNat_lt
  rw [Config.vMax, Nat.cast_mul, Nat.cast_ofNat]
  exact_mod_cast round_of_representable
    (representable_natCast (n := config.vHigh.toNat * 16) (by omega))

/-- The assertion holds for every table. -/
theorem asserted (config : Config) : config.Asserted binary32 := by
  have hstart := config.vStart.toNat_lt
  have hmid := config.vMid.toNat_lt
  have hhigh := config.vHigh.toNat_lt
  rw [Config.Asserted, vMid16_binary32, vMax_binary32, Config.vMin]
  refine ⟨fun idx hidx => ?_, fun idx hidx _ => ?_⟩
  · exact inRange_stepValue_binary32 (by omega) (by omega) (by omega) fun h _ => by omega
  · exact inRange_stepValue_binary32 (by omega) (by omega) (by omega) fun _ _ =>
      ⟨config.vMid.toNat, hmid, rfl⟩

/-- No build panics at the assertion. -/
theorem buildChecked_binary32 (p : Profile) (config : Config) :
    buildChecked p binary32 config = some (build binary32 config) := by
  cases p with
  | dev => exact if_pos (asserted config)
  | release => rfl

end SpeedTable

end Rp2040
