/-
The speed table: `table::build` of `motor/src/speed/table.rs` and the loops of
`init_controller` in `Software/core1.c`, in the arithmetic of a floating point
format; the results are those of exact arithmetic.

The table joins two lines in the middle, each rounded on its own; the first is
left out at its end, the second at its start.

* `toNat_calcStep` — a value of the table is the line rounded to the nearest;
* `level_mono` — before rounding, the levels rise over both lines;
* `build_eq_core1` — the C code computes the same table;
* `build_spec` — the table rises from 0 to the level of the highest step.
-/
import Rp2040Decoder.Interpolation
import Rp2040Decoder.Rounding

namespace Rp2040

open Interpolation Rounding FloatRounding

def SPEED_TABLE_LEN : ℕ := 127

/-- `SpeedTable` -/
abbrev SpeedTable := Fin SPEED_TABLE_LEN → UInt16

namespace SpeedTable

/-- The first segment has the entries up to this one. -/
def MIDPOINT : ℕ := SPEED_TABLE_LEN / 2

theorem midpoint_eq : MIDPOINT = 63 := rfl

/-- `Config` -/
structure Config where
  vStart : UInt8
  vMid : UInt8
  vHigh : UInt8

namespace Config

def vMin (config : Config) : ℚ := config.vStart.toNat

def vMid16 (rnd : FloatRounding) (config : Config) : ℚ := rnd.round (config.vMid.toNat * 16)

def vMax (rnd : FloatRounding) (config : Config) : ℚ := rnd.round (config.vHigh.toNat * 16)

end Config

/-- `val` of `calc_step` -/
def stepValue (rnd : FloatRounding) (start stop : ℚ) (idx : ℕ) : ℚ :=
  let m := rnd.round (rnd.round (stop - start) / 63)
  rnd.round (rnd.round (m * idx) + start)

/-- `calc_step` -/
def calcStep (rnd : FloatRounding) (start stop : ℚ) (idx : ℕ) : UInt16 :=
  asU16 (rnd.round (clamp (stepValue rnd start stop idx) 0 65535 + 1 / 2))

/-- `build` -/
def build (rnd : FloatRounding) (config : Config) : SpeedTable := fun i =>
  if i.val = 0 then 0
  else if i.val ≤ MIDPOINT then calcStep rnd config.vMin (config.vMid16 rnd) (i - 1)
  else calcStep rnd (config.vMid16 rnd) (config.vMax rnd) (i - MIDPOINT)

/-- `max_setpoint`: the last entry. -/
def maxSetpoint (table : SpeedTable) : ℚ := (table ⟨126, by decide⟩).toNat

/-- The table of the C code, of the same CVs. -/
def core1SpeedTable (config : Config) : SpeedTable := fun i =>
  let vMin : ℚ := config.vStart.toNat
  let vMid : ℚ := config.vMid.toNat * 16
  let vMax : ℚ := config.vHigh.toNat * 16
  let deltaX : ℚ := 63
  let m₁ := (vMid - vMin) / deltaX
  let m₂ := (vMax - vMid) / deltaX
  if i.val = 0 then 0
  else if i.val < 64 then UInt16.ofInt (roundAway (m₁ * ((i.val - 1 : ℕ) : ℚ) + vMin))
  else UInt16.ofInt (roundAway (m₂ * ((i.val - 63 : ℕ) : ℚ) + vMid))

variable {config : Config} {start stop x : ℚ} {idx idx' i j : ℕ}

/-! ### One line -/

theorem stepValue_eq : stepValue exact start stop idx = interpolate 0 start 63 stop idx := by
  rw [interpolate_eq_slope (by norm_num), sub_zero, sub_zero]
  rfl

theorem stepValue_zero : stepValue exact start stop 0 = start := by
  rw [stepValue_eq, Nat.cast_zero, interpolate_left (by norm_num)]

theorem stepValue_last : stepValue exact start stop 63 = stop := by
  rw [stepValue_eq, Nat.cast_ofNat, interpolate_right (by norm_num)]

theorem stepValue_mono (h : start ≤ stop) (hidx : idx ≤ idx') :
    stepValue exact start stop idx ≤ stepValue exact start stop idx' := by
  rw [stepValue_eq, stepValue_eq]
  exact interpolate_mono (by norm_num) h (Nat.cast_le.mpr hidx)

theorem le_stepValue (h : start ≤ stop) : start ≤ stepValue exact start stop idx := by
  calc start = stepValue exact start stop 0 := stepValue_zero.symm
    _ ≤ stepValue exact start stop idx := stepValue_mono h (Nat.zero_le _)

theorem stepValue_le (h : start ≤ stop) (hidx : idx ≤ 63) :
    stepValue exact start stop idx ≤ stop := by
  calc stepValue exact start stop idx ≤ stepValue exact start stop 63 := stepValue_mono h hidx
    _ = stop := stepValue_last

/-- A voltage scaled to the range of the converter. -/
def InRange (x : ℚ) : Prop := 0 ≤ x ∧ x ≤ 65535

/-- The assertion of `calc_step`. -/
theorem inRange_stepValue (hstart : InRange start) (hstop : InRange stop) (hidx : idx ≤ 63) :
    InRange (stepValue exact start stop idx) := by
  have h₀ : (0 : ℚ) ≤ idx := Nat.cast_nonneg _
  have h₁ : (idx : ℚ) ≤ 63 := by exact_mod_cast hidx
  rw [stepValue_eq]
  exact ⟨le_interpolate (by norm_num) h₀ h₁ hstart.1 hstop.1,
    interpolate_le (by norm_num) h₀ h₁ hstart.2 hstop.2⟩

theorem InRange.round (h : InRange x) : 0 ≤ round x ∧ round x ≤ 65535 := by
  have hlow := natCast_le_round (n := 0) (x := x) (by exact_mod_cast h.1)
  have hhigh := round_le_natCast (n := 65535) (x := x) (by exact_mod_cast h.2)
  exact ⟨by exact_mod_cast hlow, by exact_mod_cast hhigh⟩

/-- The cast of the line plus one half rounds it to the nearest. -/
theorem toNat_calcStep (h : InRange (stepValue exact start stop idx)) :
    ((calcStep exact start stop idx).toNat : ℤ) = round (stepValue exact start stop idx) := by
  have hround := h.round
  have hfloor : ⌊stepValue exact start stop idx + 1 / 2⌋ = round (stepValue exact start stop idx) :=
    (round_eq _).symm
  rw [calcStep, clamp_of_mem h.1 h.2, round_exact, asU16, hfloor,
    UInt16.toNat_ofNat_of_lt' (by show _ < 2 ^ 16; omega)]
  omega

/-- `lround` does as well. -/
theorem toNat_lround (h : InRange x) : ((UInt16.ofInt (roundAway x)).toNat : ℤ) = round x := by
  rw [roundAway_of_nonneg h.1]
  exact toNat_ofInt h.round.1 h.round.2

theorem calcStep_eq_lround (h : InRange (stepValue exact start stop idx)) :
    calcStep exact start stop idx = UInt16.ofInt (roundAway (stepValue exact start stop idx)) := by
  refine UInt16.toNat_inj.mp ?_
  have hcalc := toNat_calcStep h
  have hlround := toNat_lround h
  omega

/-! ### The table -/

theorem inRange_vMin (config : Config) : InRange config.vMin := by
  have hlt := config.vStart.toNat_lt
  refine ⟨Nat.cast_nonneg _, ?_⟩
  rw [Config.vMin]
  exact_mod_cast (by omega : config.vStart.toNat ≤ 65535)

theorem inRange_mul (v : UInt8) : InRange ((v.toNat : ℚ) * 16) := by
  have hlt := v.toNat_lt
  refine ⟨mul_nonneg (Nat.cast_nonneg _) (by norm_num), ?_⟩
  exact_mod_cast (by omega : v.toNat * 16 ≤ 65535)

/-- The levels of the table, before they are rounded. -/
def level (config : Config) (i : ℕ) : ℚ :=
  if i ≤ MIDPOINT then stepValue exact config.vMin (config.vMid16 exact) (i - 1)
  else stepValue exact (config.vMid16 exact) (config.vMax exact) (i - MIDPOINT)

theorem inRange_level (config : Config) (h : i < SPEED_TABLE_LEN) : InRange (level config i) := by
  rw [SPEED_TABLE_LEN] at h
  rw [level, midpoint_eq]
  split
  · exact inRange_stepValue (inRange_vMin config) (inRange_mul _) (by omega)
  · exact inRange_stepValue (inRange_mul _) (inRange_mul _) (by omega)

theorem toNat_build (config : Config) (i : Fin SPEED_TABLE_LEN) (h : 1 ≤ i.val) :
    ((build exact config i).toNat : ℤ) = round (level config i) := by
  have hrange := inRange_level config i.isLt
  rw [build, if_neg (by omega)]
  rw [level] at hrange ⊢
  split
  · rename_i hmid
    rw [if_pos hmid] at hrange
    exact toNat_calcStep hrange
  · rename_i hmid
    rw [if_neg hmid] at hrange
    exact toNat_calcStep hrange

theorem build_eq_core1 (config : Config) : build exact config = core1SpeedTable config := by
  funext i
  have hrange := inRange_level config i.isLt
  rw [level] at hrange
  rw [build, core1SpeedTable]
  by_cases hzero : i.val = 0
  · rw [if_pos hzero, if_pos hzero]
  · by_cases hmid : i.val ≤ MIDPOINT
    · have hlt : i.val < 64 := by
        rw [midpoint_eq] at hmid
        omega
      rw [if_pos hmid] at hrange
      rw [if_neg hzero, if_pos hmid, if_neg hzero, if_pos hlt]
      exact calcStep_eq_lround hrange
    · have hlt : ¬ i.val < 64 := by
        rw [midpoint_eq] at hmid
        omega
      rw [if_neg hmid] at hrange
      rw [if_neg hzero, if_neg hmid, if_neg hzero, if_neg hlt]
      exact calcStep_eq_lround hrange

/-- The levels rise over both lines. -/
theorem level_mono (hstart : config.vMin ≤ config.vMid16 exact)
    (hmid : config.vMid16 exact ≤ config.vMax exact)
    (hij : i ≤ j) : level config i ≤ level config j := by
  rw [level, level]
  by_cases hj : j ≤ MIDPOINT
  · rw [if_pos (hij.trans hj), if_pos hj]
    exact stepValue_mono hstart (by omega)
  · rw [if_neg hj]
    by_cases hi : i ≤ MIDPOINT
    · -- the seam
      rw [if_pos hi]
      rw [midpoint_eq] at hi
      exact (stepValue_le hstart (by omega)).trans (le_stepValue hmid)
    · rw [if_neg hi]
      exact stepValue_mono hmid (by omega)

theorem build_mono (hstart : config.vMin ≤ config.vMid16 exact)
    (hmid : config.vMid16 exact ≤ config.vMax exact)
    {i j : Fin SPEED_TABLE_LEN} (hij : i ≤ j) : build exact config i ≤ build exact config j := by
  rw [UInt16.le_iff_toNat_le]
  by_cases hzero : i.val = 0
  · have hfirst : build exact config i = 0 := if_pos hzero
    rw [hfirst]
    exact Nat.zero_le _
  · have hi := toNat_build config i (by omega)
    have hj := toNat_build config j (by omega)
    have hround := round_mono (level_mono hstart hmid (Fin.le_def.mp hij))
    omega

theorem toNat_build_first (config : Config) :
    (build exact config ⟨1, by decide⟩).toNat = config.vStart.toNat := by
  have hfirst := toNat_build config ⟨1, by decide⟩ (Nat.le_refl 1)
  have hlevel : level config 1 = (config.vStart.toNat : ℚ) := stepValue_zero
  rw [hlevel, round_natCast] at hfirst
  exact_mod_cast hfirst

theorem toNat_build_last (config : Config) :
    (build exact config ⟨126, by decide⟩).toNat = 16 * config.vHigh.toNat := by
  have hlast := toNat_build config ⟨126, by decide⟩ (by norm_num)
  have hlevel : level config 126 = ((16 * config.vHigh.toNat : ℕ) : ℚ) := by
    refine stepValue_last.trans ?_
    rw [Config.vMax, round_exact, Nat.cast_mul, Nat.cast_ofNat, mul_comm]
  rw [hlevel, round_natCast] at hlast
  exact_mod_cast hlast

/-- What is promised of a table. -/
structure Spec (config : Config) (table : SpeedTable) : Prop where
  mono : ∀ i j, i ≤ j → table i ≤ table j
  zero : table ⟨0, by decide⟩ = 0
  first : (table ⟨1, by decide⟩).toNat = config.vStart.toNat
  last : (table ⟨126, by decide⟩).toNat = 16 * config.vHigh.toNat
  le_last : ∀ i, table i ≤ table ⟨126, by decide⟩
  /-- the PID controller uses every entry as it is -/
  clamp : ∀ i, clamp (table i).toNat 0 (maxSetpoint table) = (table i).toNat
  core1 : table = core1SpeedTable config
  /-- no step fails the assertion of `calc_step` -/
  debugAssert : ∀ idx ≤ MIDPOINT, InRange (stepValue exact config.vMin (config.vMid16 exact) idx) ∧
    InRange (stepValue exact (config.vMid16 exact) (config.vMax exact) idx)

/-- **The speed table.**  It rises from 0 to the level of the highest step, past
the middle, and is the table of the C code. -/
theorem build_spec (hstart : config.vStart.toNat ≤ 16 * config.vMid.toNat)
    (hmid : config.vMid ≤ config.vHigh) : Spec config (build exact config) := by
  have hstart' : config.vMin ≤ config.vMid16 exact := by
    rw [Config.vMin, Config.vMid16, round_exact, mul_comm]
    exact_mod_cast hstart
  have hmid' : config.vMid16 exact ≤ config.vMax exact :=
    mul_le_mul_of_nonneg_right (Nat.cast_le.mpr (UInt8.le_iff_toNat_le.mp hmid)) (by norm_num)
  have hlast : ∀ i, build exact config i ≤ build exact config ⟨126, by decide⟩ := fun i =>
    build_mono hstart' hmid' (Fin.le_def.mpr (Nat.le_of_lt_succ i.isLt))
  exact {
    mono := fun i j hij => build_mono hstart' hmid' hij
    zero := rfl
    first := toNat_build_first config
    last := toNat_build_last config
    le_last := hlast
    clamp := fun i => clamp_of_mem (Nat.cast_nonneg _)
      (Nat.cast_le.mpr (UInt16.le_iff_toNat_le.mp (hlast i)))
    core1 := build_eq_core1 config
    debugAssert := fun idx hidx => ⟨inRange_stepValue (inRange_vMin config) (inRange_mul _) hidx,
      inRange_stepValue (inRange_mul _) (inRange_mul _) hidx⟩ }

/-- The table of the default CVs. -/
theorem build_spec_default : Spec ⟨8, 63, 100⟩ (build exact ⟨8, 63, 100⟩) :=
  build_spec (by decide) (by decide)

end SpeedTable

end Rp2040
