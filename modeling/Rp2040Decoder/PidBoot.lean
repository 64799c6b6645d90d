/-
The speed controller that `main` constructs from the CVs
(`application/src/main.rs`, the accessors of `dcc/src/cv/store.rs` and
`motor/src/speed/mod.rs`), in single precision.

An error of the construction is unwrapped, so a CV that a setter rejects makes
every boot panic.

* `mainSpeedControl_eq` — the construction in terms of the CVs;
* `isSome_mainSpeedControl_iff` — it fails for a sample time or a filter time
  constant of 0;
* `robust_iff` — and what else makes a controller return an error.
-/
import Rp2040Decoder.CvValue
import Rp2040Decoder.Flash
import Rp2040Decoder.PidController
import Rp2040Decoder.SpeedTableAssert
import Rp2040Decoder.Startup

namespace Rp2040

open Binary32 Rounding FloatRounding

/-! ### The accessors -/

namespace Store

variable {S : Type} [Store S]

/-- A byte as `f32`, divided. -/
def quotient (rnd : FloatRounding) (cv : Cv) (divisor : ℚ) (self : S) :
    Except (Fault StoreError) ℚ := do
  return rnd.round ((← readByte self cv.number).toNat / divisor)

/-- A word as `f32` in hundredths. -/
def wordHundredths (rnd : FloatRounding) (cv : Cv) (self : S) : Except (Fault StoreError) ℚ := do
  return rnd.round ((← readCvU16 self cv.number).toNat / 100)

/-- A byte as a duration in milliseconds. -/
def millis (cv : Cv) (self : S) : Except (Fault StoreError) ℕ := do
  return (← readByte self cv.number).toNat

def pidSampleTime (self : S) : Except (Fault StoreError) ℕ := millis .pidSampleTime self

def pidFilterTc (self : S) : Except (Fault StoreError) ℕ := millis .pidFilterTc self

def pidKi (rnd : FloatRounding) (self : S) : Except (Fault StoreError) ℚ :=
  quotient rnd .pidKi 10 self

def pidKd (rnd : FloatRounding) (self : S) : Except (Fault StoreError) ℚ :=
  quotient rnd .pidKd 10000 self

def pidKpGainRange1End (rnd : FloatRounding) (self : S) : Except (Fault StoreError) ℚ :=
  quotient rnd .pidKpGainRange1End 255 self

def pidKFf (rnd : FloatRounding) (self : S) : Except (Fault StoreError) ℚ :=
  quotient rnd .pidFf 255 self

def pidKpY0 (rnd : FloatRounding) (self : S) : Except (Fault StoreError) ℚ :=
  wordHundredths rnd .pidKpY0 self

def pidKpY1 (rnd : FloatRounding) (self : S) : Except (Fault StoreError) ℚ :=
  wordHundredths rnd .pidKpY1 self

def pidKpY2 (rnd : FloatRounding) (self : S) : Except (Fault StoreError) ℚ :=
  wordHundredths rnd .pidKpY2 self

end Store

/-! ### The construction -/

/-- `clk_sys_freq()` of the default configuration. -/
def CLK_SYS_FREQ : ℕ := 125000000

/-- `unwrap!`; none is a panic. -/
def unwrap {ε α : Type} (x : Except (Fault ε) α) : Option α := x.toOption

/-- `speed::Controller`, which starts in the startup mode. -/
structure SpeedControl (P : Type) where
  adcOffset : ℚ
  pid : Pid.Controller P
  startup : Startup.Controller ℚ

/-- `speed::Controller::new` -/
def SpeedControl.new (C : Type) {P : Type} [DiscretePid C P] (rnd : FloatRounding)
    (pid : Pid.Config) (startup : Startup.Config ℚ) (adcOffset : ℚ) : Option (SpeedControl P) :=
  (Pid.Controller.new C rnd pid).map fun pid => ⟨adcOffset, pid, Startup.Controller.new startup⟩

/-- The construction of `speed_control` in `main`; none is a panic. -/
def mainSpeedControl (C : Type) {P : Type} [DiscretePid C P] {S : Type} [Store S] (p : Profile)
    (rnd : FloatRounding) (cvStore : S) (adcOffset : UInt8) : Option (SpeedControl P) := do
  let outputMax := Startup.mainOutputMax CLK_SYS_FREQ
    (← unwrap (Store.readByte cvStore Cv.motorPwmFrequency.number))
  let vStart ← unwrap (Store.readByte cvStore Cv.vStart.number)
  let vMid ← unwrap (Store.readByte cvStore Cv.vMid.number)
  let vHigh ← unwrap (Store.readByte cvStore Cv.vHigh.number)
  let speedTable ← SpeedTable.buildChecked p rnd ⟨vStart, vMid, vHigh⟩
  let pid : Pid.Config := {
    sampleTime := ← unwrap (Store.pidSampleTime cvStore)
    filterTc := ← unwrap (Store.pidFilterTc cvStore)
    ki := ← unwrap (Store.pidKi rnd cvStore)
    kd := ← unwrap (Store.pidKd rnd cvStore)
    outputMax
    kpGainRange1End := ← unwrap (Store.pidKpGainRange1End rnd cvStore)
    kpY0 := ← unwrap (Store.pidKpY0 rnd cvStore)
    kpY1 := ← unwrap (Store.pidKpY1 rnd cvStore)
    kpY2 := ← unwrap (Store.pidKpY2 rnd cvStore)
    maxSetpoint := SpeedTable.maxSetpoint speedTable }
  let startup : Startup.Config ℚ := ⟨outputMax, ← unwrap (Store.pidKFf rnd cvStore)⟩
  SpeedControl.new C rnd pid startup adcOffset.toNat

/-! ### In terms of the CVs -/

/-- The word in two CVs. -/
def cvWord (cvs : ℕ → UInt8) (a : ℕ) : UInt16 := (cvs a).toUInt16 <<< 8 ||| (cvs (a + 1)).toUInt16

/-- The last entry of the speed table. -/
def cvMaxSetpoint (rnd : FloatRounding) (cvs : ℕ → UInt8) : ℚ :=
  SpeedTable.maxSetpoint (SpeedTable.build rnd ⟨cvs 2, cvs 6, cvs 5⟩)

/-- The configuration of the PID controller. -/
def cvPidConfig (rnd : FloatRounding) (cvs : ℕ → UInt8) : Pid.Config where
  sampleTime := (cvs 49).toNat
  filterTc := (cvs 48).toNat
  ki := rnd.round ((cvs 50).toNat / 10)
  kd := rnd.round ((cvs 51).toNat / 10000)
  outputMax := Startup.mainOutputMax CLK_SYS_FREQ (cvs 9)
  kpGainRange1End := rnd.round ((cvs 60).toNat / 255)
  kpY0 := rnd.round ((cvWord cvs 54).toNat / 100)
  kpY1 := rnd.round ((cvWord cvs 56).toNat / 100)
  kpY2 := rnd.round ((cvWord cvs 58).toNat / 100)
  maxSetpoint := cvMaxSetpoint rnd cvs

section Cvs

open ReadableStore

variable {S : Type} [Store S] [ReadableStore S] {C P : Type} [DiscretePid C P]
  {rnd : FloatRounding}

theorem Cv.number_mem (cv : Cv) : 1 ≤ cv.number ∧ cv.number + 2 ≤ CV_SIZE + 1 := by
  cases cv <;> decide

theorem unwrap_readByte (s : S) (cv : Cv) :
    unwrap (Store.readByte s cv.number) = some (cvs s cv.number) := by
  obtain ⟨h₁, h₂⟩ := cv.number_mem
  rw [readByte_eq s h₁ (by omega)]
  rfl

theorem unwrap_millis (s : S) (cv : Cv) :
    unwrap (Store.millis cv s) = some (cvs s cv.number).toNat := by
  obtain ⟨h₁, h₂⟩ := cv.number_mem
  rw [Store.millis, readByte_eq s h₁ (by omega)]
  rfl

theorem unwrap_quotient (s : S) (cv : Cv) (divisor : ℚ) :
    unwrap (Store.quotient rnd cv divisor s) =
      some (rnd.round ((cvs s cv.number).toNat / divisor)) := by
  obtain ⟨h₁, h₂⟩ := cv.number_mem
  rw [Store.quotient, readByte_eq s h₁ (by omega)]
  rfl

theorem unwrap_wordHundredths (s : S) (cv : Cv) :
    unwrap (Store.wordHundredths rnd cv s) =
      some (rnd.round ((cvWord (cvs s) cv.number).toNat / 100)) := by
  obtain ⟨h₁, h₂⟩ := cv.number_mem
  rw [Store.wordHundredths, Store.readCvU16, readBytes_eq s h₁ h₂]
  rfl

theorem mainSpeedControl_eq (p : Profile) (s : S) (adcOffset : UInt8) :
    mainSpeedControl C (P := P) p binary32 s adcOffset =
      SpeedControl.new C binary32 (cvPidConfig binary32 (cvs s))
        ⟨Startup.mainOutputMax CLK_SYS_FREQ (cvs s 9), binary32.round ((cvs s 47).toNat / 255)⟩
        adcOffset.toNat := by
  simp only [mainSpeedControl, Store.pidSampleTime, Store.pidFilterTc, Store.pidKi, Store.pidKd,
    Store.pidKpGainRange1End, Store.pidKpY0, Store.pidKpY1, Store.pidKpY2, Store.pidKFf,
    unwrap_readByte, unwrap_millis, unwrap_quotient, unwrap_wordHundredths,
    SpeedTable.buildChecked_binary32, Option.bind_eq_bind, Option.bind_some]
  rfl

end Cvs

/-! ### What the setters accept -/

/-- The quotient of a byte. -/
theorem isGain_quotient (v : UInt8) {divisor : ℚ} (h : 1 ≤ divisor) :
    IsGain (Binary32.round (v.toNat / divisor)) := by
  have hv : (v.toNat : ℚ) ≤ 2 ^ 8 := by exact_mod_cast v.toNat_lt.le
  have hv₀ : (0 : ℚ) ≤ v.toNat := Nat.cast_nonneg _
  have hle : (v.toNat : ℚ) / divisor ≤ 2 ^ 8 := (div_le_self hv₀ h).trans hv
  have hfinite : (2 : ℚ) ^ 8 < 2 ^ 128 := by norm_num
  exact ⟨round_nonneg (div_nonneg hv₀ (zero_le_one.trans h)),
    (Binary32.round_le (representable_two_pow 8) hle).trans_lt hfinite⟩

/-- A time constant of some milliseconds is a positive number of seconds. -/
theorem asSecsF32_pos {ms : ℕ} (h₀ : 0 < ms) (h : ms < 256) :
    0 < Pid.asSecsF32 binary32 ms ∧ Pid.asSecsF32 binary32 ms < 2 ^ 128 := by
  have hsecs : ms / 1000 = 0 := Nat.div_eq_of_lt (by omega)
  have hnanos : ms % 1000 * 1000000 = ms * 1000000 := by rw [Nat.mod_eq_of_lt (by omega)]
  have hpow : Representable (2 ^ (-30 : ℤ)) := representable_zpow (by norm_num)
  have hlow : (1 : ℚ) ≤ Binary32.round ((ms * 1000000 : ℕ) : ℚ) :=
    Binary32.le_round representable_one (by exact_mod_cast (by omega : 1 ≤ ms * 1000000))
  have hhigh : Binary32.round ((ms * 1000000 : ℕ) : ℚ) ≤ 2 ^ 28 :=
    Binary32.round_le (representable_two_pow 28)
      (by exact_mod_cast (by omega : ms * 1000000 ≤ 2 ^ 28))
  have hquot₀ : (2 : ℚ) ^ (-30 : ℤ) ≤
      Binary32.round (Binary32.round ((ms * 1000000 : ℕ) : ℚ) / 1000000000) := by
    refine Binary32.le_round hpow ?_
    rw [le_div_iff₀ (by norm_num)]
    exact (by norm_num : (2 : ℚ) ^ (-30 : ℤ) * 1000000000 ≤ 1).trans hlow
  have hquot₁ : Binary32.round (Binary32.round ((ms * 1000000 : ℕ) : ℚ) / 1000000000) ≤ 1 := by
    refine Binary32.round_le representable_one ?_
    rw [div_le_one (by norm_num)]
    exact hhigh.trans (by norm_num)
  have hfinite : (1 : ℚ) < 2 ^ 128 := by norm_num
  rw [Pid.asSecsF32, hsecs, hnanos]
  simp only [round_binary32]
  rw [Nat.cast_zero, Binary32.round_zero, zero_add]
  exact ⟨(zpow_pos' _).trans_le (Binary32.le_round hpow hquot₀),
    (Binary32.round_le representable_one hquot₁).trans_lt hfinite⟩

theorem asSecsF32_zero : Pid.asSecsF32 binary32 0 = 0 := by
  rw [Pid.asSecsF32]
  simp only [Nat.zero_div, Nat.zero_mod, Nat.zero_mul, Nat.cast_zero, round_binary32,
    Binary32.round_zero, zero_div, add_zero]

theorem toNat_pos_iff (v : UInt8) : 0 < v.toNat ↔ v ≠ 0 := by
  constructor
  · rintro hpos rfl
    exact absurd hpos (Nat.lt_irrefl 0)
  · intro hne
    exact Nat.pos_of_ne_zero fun hzero => hne (UInt8.toNat_inj.mp hzero)

theorem asSecsF32_pos_iff (v : UInt8) : (0 < Pid.asSecsF32 binary32 v.toNat ∧
    Pid.asSecsF32 binary32 v.toNat < 2 ^ 128) ↔ v ≠ 0 := by
  constructor
  · rintro ⟨hpos, -⟩ rfl
    exact absurd asSecsF32_zero hpos.ne'
  · intro hne
    exact asSecsF32_pos ((toNat_pos_iff v).mpr hne) v.toNat_lt

/-! ### Booting -/

section Boot

open ReadableStore

variable {S : Type} [Store S] [ReadableStore S] {C P : Type} [DiscretePid C P] {p : Profile}
  {s : S} {adcOffset : UInt8}

/-- A sample time or a filter time constant of 0 is all that makes a boot panic. -/
theorem isSome_mainSpeedControl_iff (h : DiscretePid.Assumed C P) (p : Profile) (s : S)
    (adcOffset : UInt8) : (mainSpeedControl C (P := P) p binary32 s adcOffset).isSome ↔
      cvs s 48 ≠ 0 ∧ cvs s 49 ≠ 0 := by
  have houtput : (0 : ℚ) < (Startup.mainOutputMax CLK_SYS_FREQ (cvs s 9)).toNat := by
    have hmem := UInt16.le_iff_toNat_le.mp (Startup.mainOutputMax_mem (cvs s 9)).1
    exact_mod_cast (by omega : 0 < 3521).trans_le hmem
  have hsample := toNat_pos_iff (cvs s 49)
  have hki : IsGain (cvPidConfig binary32 (cvs s)).ki := isGain_quotient _ (by norm_num)
  have hkd : IsGain (cvPidConfig binary32 (cvs s)).kd := isGain_quotient _ (by norm_num)
  rw [mainSpeedControl_eq, SpeedControl.new, Option.isSome_map, Pid.Controller.isSome_new_iff h,
    and_iff_right hki, and_iff_right hkd]
  exact and_congr (asSecsF32_pos_iff (cvs s 48)) ((and_iff_left houtput).trans hsample)

/-- The gain at the highest setpoint, CV58 and CV59, is 0, and the fall of the
gain to it rounds to more than the gain it starts from. -/
def CvsMissZero (cvs : ℕ → UInt8) : Prop := (cvPidConfig binary32 cvs).toGainConfig.MissesZero

theorem toGainConfig_eq (cvs : ℕ → UInt8) : (cvPidConfig binary32 cvs).toGainConfig =
    gainConfig (cvs 60).toNat (cvWord cvs 54).toNat (cvWord cvs 56).toNat (cvWord cvs 58).toNat
      (SpeedTable.build binary32 ⟨cvs 2, cvs 6, cvs 5⟩ ⟨126, by decide⟩).toNat := rfl

theorem word_le (v : UInt16) : v.toNat ≤ 65535 := Nat.le_of_lt_succ v.toNat_lt

theorem cvWord_eq_zero_iff (cvs : ℕ → UInt8) (a : ℕ) :
    cvWord cvs a = 0 ↔ cvs a = 0 ∧ cvs (a + 1) = 0 := by
  have hshift : ((cvs a).toUInt16 <<< 8).toNat = (cvs a).toNat * 256 := by
    rw [toNat_shiftLeft_eight (by rw [UInt8.toNat_toUInt16]; exact UInt8.toNat_lt _),
      UInt8.toNat_toUInt16]
  rw [cvWord, UInt16.or_eq_zero_iff, ← UInt16.toNat_inj, ← UInt16.toNat_inj, hshift,
    UInt8.toNat_toUInt16, ← UInt8.toNat_inj, ← UInt8.toNat_inj]
  refine and_congr ?_ Iff.rfl
  exact Nat.mul_eq_zero.trans (or_iff_left (by decide))

/-- Only a gain of 0 can be missed. -/
theorem CvsMissZero.eq_zero {cvs : ℕ → UInt8} (h : CvsMissZero cvs) :
    cvs 58 = 0 ∧ cvs 59 = 0 := by
  have hword := (hundredths_eq_zero_iff (word_le (cvWord cvs 58))).mp h.1
  exact (cvWord_eq_zero_iff cvs 58).mp (UInt16.toNat_inj.mp hword)

theorem neverFails_iff_not_missZero (h : DiscretePid.Assumed C P) {control : SpeedControl P}
    (hcontrol : mainSpeedControl C p binary32 s adcOffset = some control) :
    control.pid.NeverFails C binary32 ↔ ¬ CvsMissZero (cvs s) := by
  rw [mainSpeedControl_eq] at hcontrol
  obtain ⟨pid, hpid, rfl⟩ := Option.map_eq_some_iff.mp hcontrol
  obtain ⟨hparams, hgains⟩ := Pid.Controller.eq_of_new hpid
  rw [Pid.Controller.neverFails_iff h, hparams, hgains, CvsMissZero, toGainConfig_eq]
  exact isGain_kpForSetpoint_iff (Nat.le_of_lt_succ (cvs s 60).toNat_lt) (word_le _) (word_le _)
    (word_le _) (word_le _)

/-- The boot constructs a controller that returns an error in no run of calls. -/
def Robust (C P : Type) [DiscretePid C P] {S : Type} [Store S] (p : Profile) (cvStore : S)
    (adcOffset : UInt8) : Prop :=
  ∃ control : SpeedControl P, mainSpeedControl C p binary32 cvStore adcOffset = some control ∧
    control.pid.NeverFails C binary32

/-- **Which CVs leave a working decoder.**  The sample time and the filter time
constant must not be 0, and the gain at the highest setpoint must not miss 0 and
fall below it.  A gain of 0 is assumed to be accepted (`DiscretePid.Assumed`). -/
theorem robust_iff (h : DiscretePid.Assumed C P) (p : Profile) (s : S) (adcOffset : UInt8) :
    Robust C P p s adcOffset ↔ cvs s 48 ≠ 0 ∧ cvs s 49 ≠ 0 ∧ ¬ CvsMissZero (cvs s) := by
  rw [← and_assoc, ← isSome_mainSpeedControl_iff h p s adcOffset]
  constructor
  · rintro ⟨control, hcontrol, hnever⟩
    refine ⟨by rw [hcontrol]; rfl, ?_⟩
    exact (neverFails_iff_not_missZero h hcontrol).mp hnever
  · rintro ⟨hboot, hmiss⟩
    obtain ⟨control, hcontrol⟩ := Option.isSome_iff_exists.mp hboot
    exact ⟨control, hcontrol, (neverFails_iff_not_missZero h hcontrol).mpr hmiss⟩

end Boot

/-! ### Examples -/

/-- A library that checks its arguments only. -/
instance : DiscretePid Unit Unit where
  default := ()
  setKp k _ := if 0 ≤ k ∧ k < 2 ^ 128 then some () else none
  setKi k _ := if 0 ≤ k ∧ k < 2 ^ 128 then some () else none
  setKd k _ := if 0 ≤ k ∧ k < 2 ^ 128 then some () else none
  setFilterTc k _ := if 0 < k ∧ k < 2 ^ 128 then some () else none
  setSampleTime ms _ := if 0 < ms then some () else none
  setOutputLimits lo hi _ := if lo < hi then some () else none
  setUseDerivativeOnMeasurement _ _ := ()
  setUseStrictCausalIntegrator _ _ := ()
  newUninit _ := ()
  config _ := ()
  withConfig _ _ := ()
  compute _ _ _ feedforward _ := (feedforward.getD 0, ())
  resetIntegral _ := ()

theorem isSome_ite {p : Prop} [Decidable p] : (if p then some () else none).isSome ↔ p := by
  split_ifs with h
  · exact iff_of_true rfl h
  · exact iff_of_false Bool.false_ne_true h

theorem assumed_unit : DiscretePid.Assumed Unit Unit where
  setKp _ _ := isSome_ite
  setKi _ _ := isSome_ite
  setKd _ _ := isSome_ite
  setFilterTc _ _ := isSome_ite
  setSampleTime _ _ := isSome_ite
  setOutputLimits _ _ _ := isSome_ite

/-- A booted store with these CVs. -/
def flashOf (cvs : ℕ → UInt8) : Flash .release :=
  Flash.new ⟨fun i => cvs (i.val + 1), fun _ => none, 0⟩

/-- The default CVs leave a working decoder. -/
theorem robust_default : Robust Unit Unit .release (flashOf defaultValue) 0 := by
  refine (robust_iff assumed_unit .release (flashOf defaultValue) 0).mpr
    ⟨by decide, by decide, fun hmiss => ?_⟩
  exact absurd hmiss.eq_zero.2 (by decide)

/-- A sample time of 0 makes every boot panic. -/
theorem not_robust_sampleTime :
    ¬ Robust Unit Unit .release (flashOf (Function.update defaultValue 49 0)) 0 := by
  rintro ⟨control, hcontrol, -⟩
  have hboot := (isSome_mainSpeedControl_iff assumed_unit _ _ _).mp
    (Option.isSome_of_eq_some hcontrol)
  exact hboot.2 rfl

/-- The default CVs with both upper voltages at 100, gains of 0.79 and 0 and
an empty first range. -/
def missingCvs (a : ℕ) : UInt8 :=
  if a = 5 ∨ a = 6 then 100
  else if a = 57 then 79
  else if a = 56 ∨ a = 58 ∨ a = 59 ∨ a = 60 then 0
  else defaultValue a

theorem missing_maxSetpoint : cvMaxSetpoint binary32 missingCvs = 1600 := by
  have hround : Binary32.round 1600 = 1600 :=
    round_of_representable (representable_ofNat 1600 (by norm_num))
  have hhalf : Binary32.round (3201 / 2) = 3201 / 2 :=
    round_of_representable ⟨3201, -1, by norm_num, by norm_num, by norm_num⟩
  have hstep : SpeedTable.stepValue binary32 1600 1600 63 = 1600 := by
    simp only [SpeedTable.stepValue, round_binary32, sub_self, Binary32.round_zero, zero_div,
      zero_mul, zero_add, hround]
  have hcalc : SpeedTable.calcStep binary32 1600 1600 63 = 1600 := by
    have hadd : (1600 : ℚ) + 1 / 2 = 3201 / 2 := by norm_num
    have hfloor : ⌊(3201 : ℚ) / 2⌋ = 1600 := by norm_num
    rw [SpeedTable.calcStep, hstep, clamp_of_mem (by norm_num) (by norm_num), round_binary32,
      hadd, hhalf, asU16, hfloor]
    rfl
  have hv : binary32.round ((100 : UInt8).toNat * 16) = 1600 := by
    have hmul : ((100 : UInt8).toNat : ℚ) * 16 = 1600 := by
      rw [show (100 : UInt8).toNat = 100 from rfl]
      norm_num
    rw [round_binary32, hmul, hround]
  have hlast : SpeedTable.build binary32 ⟨8, 100, 100⟩ ⟨126, by decide⟩ =
      SpeedTable.calcStep binary32 (binary32.round ((100 : UInt8).toNat * 16))
        (binary32.round ((100 : UInt8).toNat * 16)) 63 := rfl
  show SpeedTable.maxSetpoint (SpeedTable.build binary32 ⟨8, 100, 100⟩) = 1600
  rw [SpeedTable.maxSetpoint, hlast, hv, hcalc, show (1600 : UInt16).toNat = 1600 from rfl,
    Nat.cast_ofNat]

/-- The fall from 0.79 over 1600 setpoints rounds to more than 0.79. -/
theorem missing_fall : Binary32.round (79 / 100) <
    Binary32.round (Binary32.round (Binary32.round (79 / 100) / 1600) * 1600) := by
  have hstart : Binary32.round (79 / 100) = (13254001 : ℤ) * 2 ^ (-24 : ℤ) := by
    refine round_eq_of_near 13254001 (by norm_num) ?_ ?_ ?_ <;> norm_num [abs_lt]
  have hslope : Binary32.round ((13254001 : ℤ) * 2 ^ (-24 : ℤ) / 1600) =
      (8482561 : ℤ) * 2 ^ (-34 : ℤ) := by
    refine round_eq_of_near 8482561 (by norm_num) ?_ ?_ ?_ <;> norm_num [abs_lt]
  have hfall : Binary32.round ((8482561 : ℤ) * 2 ^ (-34 : ℤ) * 1600) =
      (13254002 : ℤ) * 2 ^ (-24 : ℤ) := by
    refine round_eq_of_near 13254002 (by norm_num) ?_ ?_ ?_ <;> norm_num [abs_lt]
  rw [hstart, hslope, hfall]
  norm_num

theorem missing_missZero : CvsMissZero missingCvs := by
  have hkpX1 : (cvPidConfig binary32 missingCvs).toGainConfig.kpX1 binary32 = 0 := by
    have hend : (cvPidConfig binary32 missingCvs).kpGainRange1End = 0 := by
      show Binary32.round (((0 : ℕ) : ℚ) / 255) = 0
      rw [Nat.cast_zero, zero_div, Binary32.round_zero]
    rw [GainConfig.kpX1, hend, mul_zero, round_binary32, Binary32.round_zero]
  have hmax : (cvPidConfig binary32 missingCvs).maxSetpoint = 1600 := missing_maxSetpoint
  have hlength : Binary32.round 1600 = 1600 :=
    round_of_representable (representable_ofNat 1600 (by norm_num))
  have hkpY1 : (cvPidConfig binary32 missingCvs).kpY1 = Binary32.round (79 / 100) := by
    show Binary32.round (((79 : ℕ) : ℚ) / 100) = _
    rw [Nat.cast_ofNat]
  refine ⟨hundredths_zero, ?_, ?_⟩
  · rw [hkpX1, hmax, GainRange.IsEmpty, round_binary32, sub_zero, hlength, F32_EPSILON]
    norm_num
  · rw [hkpX1, hmax, sub_zero, hlength, hkpY1]
    exact missing_fall

/-- A decoder that boots and fails at the highest setpoint. -/
theorem exists_fails_missing : ∃ control : SpeedControl Unit,
    mainSpeedControl Unit .release binary32 (flashOf missingCvs) 0 = some control ∧
      ¬ control.pid.NeverFails Unit binary32 := by
  have hboot : (mainSpeedControl Unit (P := Unit) .release binary32 (flashOf missingCvs) 0).isSome :=
    (isSome_mainSpeedControl_iff assumed_unit _ _ _).mpr ⟨by decide, by decide⟩
  obtain ⟨control, hcontrol⟩ := Option.isSome_iff_exists.mp hboot
  refine ⟨control, hcontrol, fun hnever => ?_⟩
  exact (neverFails_iff_not_missZero assumed_unit hcontrol).mp hnever missing_missZero

end Rp2040
