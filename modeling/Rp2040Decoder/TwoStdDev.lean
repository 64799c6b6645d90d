/-
The C firmware's ADC offset (`two_std_dev` in `Software/core0.c`): the mean of
the samples within two standard deviations of the mean of all.

The mean is rounded down, the variance is kept in 16 bits and its root is
rounded down.  If the variance takes more bits, what remains of it need not
admit any sample, and the last division is by zero.

* `toNat_absoluteVal_sub`, `toNat_xAvg`, `toNat_variance` — the machine arithmetic;
* `near_iff` — the samples that are kept;
* `averages_iff` — when any is.
-/
import Mathlib.Data.Nat.Sqrt
import Rp2040Decoder.Averages

namespace Rp2040

open Averages

/-- `absolute_val` -/
def absoluteVal (x : BitVec 32) : BitVec 32 :=
  -- extract the sign bit
  let mask := x.sshiftRight 31
  (x + mask) ^^^ mask

namespace TwoStdDev

/-- The arithmetic average. -/
def xAvg (arr : List UInt16) : UInt64 :=
  arr.foldl (fun sum x => sum + x.toUInt64) 0 / UInt64.ofNat arr.length

/-- The sample variance, in 16 bits. -/
def variance (arr : List UInt16) : UInt16 :=
  let xAvg := xAvg arr
  (arr.foldl (fun sum x => sum + (x.toUInt64 - xAvg) * (x.toUInt64 - xAvg)) 0 /
    UInt64.ofNat (arr.length - 1)).toUInt16

/-- The root of a number of 16 bits, rounded down, is that of its `float`. -/
def stdDev (arr : List UInt16) : UInt16 := UInt16.ofNat (Nat.sqrt (variance arr).toNat)

/-- The sample is within two times the sampled standard deviation. -/
def near (arr : List UInt16) (x : UInt16) : Bool :=
  let diff := absoluteVal ((x.toUInt64 - xAvg arr).toBitVec.setWidth 32)
  decide (diff.toNat ≤ 2 * (stdDev arr).toNat)

end TwoStdDev

/-- `two_std_dev`; none if the counter it divides by is 0. -/
def twoStdDev (arr : List UInt16) : Option UInt16 :=
  let (sum, counter) := arr.foldl (fun (sum, counter) x =>
    if TwoStdDev.near arr x then (sum + x.toUInt64, counter + 1) else (sum, counter))
    ((0 : UInt64), (0 : UInt32))
  if counter = 0 then none else some (sum / counter.toUInt64).toUInt16

namespace TwoStdDev

/-! ### Machine arithmetic -/

theorem sign_of_lt {x : BitVec 32} (hx : x.toNat < 2147483648) : x.sshiftRight 31 = 0#32 := by
  have hmsb : x.msb = false := BitVec.msb_eq_false_iff_two_mul_lt.mpr (by omega)
  have hdiv : x.toNat >>> 31 = 0 := by
    rw [Nat.shiftRight_eq_div_pow]
    omega
  rw [BitVec.toNat_eq, BitVec.toNat_sshiftRight_of_msb_false hmsb, hdiv, BitVec.toNat_zero]

theorem sign_of_ge {x : BitVec 32} (hx : 2147483648 ≤ x.toNat) :
    x.sshiftRight 31 = BitVec.allOnes 32 := by
  have hlt := x.isLt
  have hmsb : x.msb = true := BitVec.msb_eq_true_iff_two_mul_ge.mpr (by omega)
  have hdiv : (2 ^ 32 - 1 - x.toNat) >>> 31 = 0 := by
    rw [Nat.shiftRight_eq_div_pow]
    omega
  rw [BitVec.toNat_eq, BitVec.toNat_sshiftRight_of_msb_true hmsb, hdiv, BitVec.toNat_allOnes]

theorem absoluteVal_of_lt {x : BitVec 32} (hx : x.toNat < 2147483648) : absoluteVal x = x := by
  rw [absoluteVal, sign_of_lt hx, BitVec.add_zero, BitVec.xor_zero]

theorem absoluteVal_of_ge {x : BitVec 32} (hx : 2147483648 ≤ x.toNat) : absoluteVal x = -x := by
  rw [absoluteVal, sign_of_ge hx, BitVec.xor_allOnes, ← BitVec.neg_one_eq_allOnes,
    ← BitVec.sub_eq_add_neg, BitVec.not_sub_one_eq_not_add_one, BitVec.neg_eq_not_add]

theorem toNat_absoluteVal_sub {a m : UInt64} (ha : a.toNat < 65536) (hm : m.toNat < 65536) :
    (absoluteVal ((a - m).toBitVec.setWidth 32)).toNat = a.toNat.dist m.toNat := by
  have hdiff : ((a - m).toBitVec.setWidth 32).toNat =
      (18446744073709551616 - m.toNat + a.toNat) % 18446744073709551616 % 4294967296 := by
    rw [BitVec.toNat_setWidth]
    show (a - m).toNat % _ = _
    rw [UInt64.toNat_sub]
  rcases Nat.le_total m.toNat a.toNat with hle | hle
  · rw [absoluteVal_of_lt (by omega), hdiff, Nat.dist_eq_sub_of_le_right hle]
    omega
  · rcases Nat.eq_or_lt_of_le hle with heq | hlt
    · rw [absoluteVal_of_lt (by omega), hdiff, Nat.dist_eq_sub_of_le hle]
      omega
    · rw [absoluteVal_of_ge (by omega), BitVec.toNat_neg, hdiff, Nat.dist_eq_sub_of_le hle]
      omega

/-- The samples of the 12-bit converter, as many as the loops can count. -/
structure Samples (arr : List UInt16) : Prop where
  two_le : 2 ≤ arr.length
  length_lt : arr.length < 2 ^ 32
  lt : ∀ x ∈ arr, x.toNat < 4096

/-- The mean, rounded down. -/
def mean (arr : List UInt16) : ℕ := (arr.map UInt16.toNat).sum / arr.length

/-- The sample variance about the mean, rounded down. -/
def spread (arr : List UInt16) : ℕ := sqDev UInt16.toNat (mean arr) arr / (arr.length - 1)

variable {arr : List UInt16} {x : UInt16}

theorem Samples.ne_nil (h : Samples arr) : arr ≠ [] := by
  rintro rfl
  exact absurd h.two_le (by decide)

theorem Samples.mean_lt (h : Samples arr) : mean arr < 4096 := by
  obtain ⟨x, hx, hle⟩ := exists_div_le h.ne_nil UInt16.toNat
  exact Nat.lt_of_le_of_lt hle (h.lt x hx)

theorem Samples.dist_lt (h : Samples arr) (hx : x ∈ arr) : x.toNat.dist (mean arr) < 4096 := by
  have hmean := h.mean_lt
  have hlt := h.lt x hx
  rw [Nat.dist]
  omega

/-- A sum over the samples fits 64 bits. -/
theorem Samples.sum_lt (h : Samples arr) {f : UInt16 → ℕ} {n : ℕ} (hf : ∀ x ∈ arr, f x ≤ n)
    (hn : n < 2 ^ 32) : (arr.map f).sum < 2 ^ 64 := by
  have hlength := h.length_lt
  calc (arr.map f).sum ≤ arr.length * n := sum_map_le hf
    _ ≤ (2 ^ 32 - 1) * (2 ^ 32 - 1) := Nat.mul_le_mul (by omega) (by omega)
    _ < 2 ^ 64 := by norm_num

theorem toNat_xAvg (h : Samples arr) : (xAvg arr).toNat = mean arr := by
  have hlength := h.length_lt
  have hsum := toNat_foldl_add UInt16.toUInt64 arr 0 (by
    rw [show (0 : UInt64).toNat = 0 from rfl, Nat.zero_add]
    exact h.sum_lt (n := 4095) (fun x hx => Nat.le_of_lt_succ (h.lt x hx)) (by norm_num))
  rw [xAvg, UInt64.toNat_div, hsum, UInt64.toNat_ofNat', Nat.mod_eq_of_lt (by omega)]
  simp [mean]

theorem toNat_variance (h : Samples arr) : (variance arr).toNat = spread arr % 2 ^ 16 := by
  have hlength := h.length_lt
  have hmean : (xAvg arr).toNat < 65536 := by
    rw [toNat_xAvg h]
    exact h.mean_lt.trans (by norm_num)
  have hmap : (arr.map fun x =>
      ((x.toUInt64 - xAvg arr) * (x.toUInt64 - xAvg arr)).toNat).sum =
        sqDev UInt16.toNat (mean arr) arr := by
    refine congrArg List.sum (List.map_congr_left fun x hx => ?_)
    rw [toNat_sub_mul_sub (by rw [UInt16.toNat_toUInt64]; exact x.toNat_lt) hmean, toNat_xAvg h,
      UInt16.toNat_toUInt64]
  have hsum := toNat_foldl_add
    (fun x => (x.toUInt64 - xAvg arr) * (x.toUInt64 - xAvg arr)) arr 0 (by
      rw [show (0 : UInt64).toNat = 0 from rfl, Nat.zero_add, hmap]
      exact h.sum_lt (n := 4096 ^ 2)
        (fun x hx => Nat.pow_le_pow_left (h.dist_lt hx).le 2) (by norm_num))
  rw [hmap, show (0 : UInt64).toNat = 0 from rfl, Nat.zero_add] at hsum
  rw [variance]
  simp only [UInt64.toNat_toUInt16, UInt64.toNat_div, hsum, UInt64.toNat_ofNat',
    Nat.mod_eq_of_lt (show arr.length - 1 < 2 ^ 64 by omega)]
  rfl

theorem toNat_stdDev (h : Samples arr) :
    (stdDev arr).toNat = Nat.sqrt (spread arr % 2 ^ 16) := by
  have hlt : Nat.sqrt (spread arr % 2 ^ 16) < 2 ^ 16 :=
    (Nat.sqrt_le_self _).trans_lt (Nat.mod_lt _ (by norm_num))
  rw [stdDev, toNat_variance h]
  exact UInt16.toNat_ofNat_of_lt' hlt

/-- A sample is kept if half its distance from the mean, rounded up, squares to
no more than what is left of the variance. -/
theorem near_iff (h : Samples arr) (x : UInt16) : near arr x = true ↔
    ((x.toNat.dist (mean arr) + 1) / 2) ^ 2 ≤ spread arr % 2 ^ 16 := by
  have hmean : (xAvg arr).toNat < 65536 := by
    rw [toNat_xAvg h]
    exact h.mean_lt.trans (by norm_num)
  have hdiff := toNat_absoluteVal_sub (a := x.toUInt64) (m := xAvg arr)
    (by rw [UInt16.toNat_toUInt64]; exact x.toNat_lt) hmean
  rw [UInt16.toNat_toUInt64, toNat_xAvg h] at hdiff
  rw [near, decide_eq_true_iff, hdiff, toNat_stdDev h, sq, ← Nat.le_sqrt]
  omega

/-! ### The samples that are kept -/

/-- The samples within two standard deviations. -/
def kept (arr : List UInt16) : List UInt16 := arr.filter (near arr)

theorem foldl_sum_counter (l : List UInt16) (sum : UInt64) (counter : UInt32) :
    l.foldl (fun (sum, counter) x => (sum + x.toUInt64, counter + 1)) (sum, counter) =
      (l.foldl (fun sum x => sum + x.toUInt64) sum, counter + UInt32.ofNat l.length) := by
  induction l generalizing sum counter with
  | nil => simp
  | cons x l ih =>
    rw [List.foldl_cons, ih, List.foldl_cons, List.length_cons, Nat.add_comm l.length,
      UInt32.ofNat_add, UInt32.add_assoc]
    rfl

theorem twoStdDev_eq (h : Samples arr) : twoStdDev arr =
    if kept arr = [] then none
    else some (UInt16.ofNat (((kept arr).map UInt16.toNat).sum / (kept arr).length)) := by
  have hlength : (kept arr).length < 2 ^ 32 :=
    (List.length_filter_le _ _).trans_lt h.length_lt
  have hkept : ∀ x ∈ kept arr, x.toNat ≤ 4095 :=
    fun x hx => Nat.le_of_lt_succ (h.lt x (List.mem_filter.mp hx).1)
  have hsum := toNat_foldl_add UInt16.toUInt64 (kept arr) 0 (by
    rw [show (0 : UInt64).toNat = 0 from rfl, Nat.zero_add]
    have hle := sum_map_le (f := UInt16.toNat) hkept
    simp only [UInt16.toNat_toUInt64]
    exact lt_of_le_of_lt hle (by omega))
  have hfold : arr.foldl (fun (sum, counter) x =>
      if near arr x then (sum + x.toUInt64, counter + 1) else (sum, counter))
      ((0 : UInt64), (0 : UInt32)) = (kept arr).foldl
      (fun (sum, counter) x => (sum + x.toUInt64, counter + 1)) ((0 : UInt64), (0 : UInt32)) := by
    rw [kept, List.foldl_filter]
  have hcounter : (0 + UInt32.ofNat (kept arr).length : UInt32).toNat = (kept arr).length := by
    rw [UInt32.zero_add]
    exact UInt32.toNat_ofNat_of_lt' hlength
  simp only [twoStdDev, hfold, foldl_sum_counter]
  have hzero : (0 + UInt32.ofNat (kept arr).length : UInt32) = 0 ↔ kept arr = [] := by
    rw [← UInt32.toNat_inj, hcounter]
    exact List.length_eq_zero_iff
  by_cases hnil : kept arr = []
  · rw [if_pos hnil, if_pos (hzero.mpr hnil)]
  · rw [if_neg hnil, if_neg (mt hzero.mp hnil)]
    refine congrArg some (UInt16.toNat_inj.mp ?_)
    rw [UInt64.toNat_toUInt16, UInt64.toNat_div, hsum, UInt32.toNat_toUInt64, hcounter,
      UInt16.toNat_ofNat']
    simp

/-- The last division is by at least 1, and the result lies between two samples. -/
def Sound (arr : List UInt16) : Prop :=
  ∃ r, twoStdDev arr = some r ∧ (∃ x ∈ arr, x ≤ r) ∧ ∃ x ∈ arr, r ≤ x

/-- Some sample is close enough to the mean for the variance that is left. -/
def Admits (arr : List UInt16) : Prop :=
  ∃ x ∈ arr, ((x.toNat.dist (mean arr) + 1) / 2) ^ 2 ≤ spread arr % 2 ^ 16

theorem kept_ne_nil_iff (h : Samples arr) : kept arr ≠ [] ↔ Admits arr := by
  constructor
  · intro hne
    obtain ⟨x, hx⟩ := List.exists_mem_of_ne_nil _ hne
    obtain ⟨hmem, hnear⟩ := List.mem_filter.mp hx
    exact ⟨x, hmem, (near_iff h x).mp hnear⟩
  · rintro ⟨x, hmem, hle⟩
    exact List.ne_nil_of_mem (List.mem_filter.mpr ⟨hmem, (near_iff h x).mpr hle⟩)

theorem sound_iff (h : Samples arr) : Sound arr ↔ Admits arr := by
  rw [← kept_ne_nil_iff h]
  constructor
  · rintro ⟨r, hr, -⟩ hnil
    rw [twoStdDev_eq h, if_pos hnil] at hr
    cases hr
  · intro hne
    obtain ⟨lo, hlo, hle⟩ := exists_le_div hne UInt16.toNat
    obtain ⟨hi, hhi, hge⟩ := exists_div_le hne UInt16.toNat
    have hlt : ((kept arr).map UInt16.toNat).sum / (kept arr).length < 2 ^ 16 :=
      hge.trans_lt hi.toNat_lt
    refine ⟨_, (twoStdDev_eq h).trans (if_neg hne), ⟨lo, (List.mem_filter.mp hlo).1, ?_⟩,
      ⟨hi, (List.mem_filter.mp hhi).1, ?_⟩⟩
    · rwa [UInt16.le_iff_toNat_le, UInt16.toNat_ofNat_of_lt' hlt]
    · rwa [UInt16.le_iff_toNat_le, UInt16.toNat_ofNat_of_lt' hlt]

/-- A variance that fits 16 bits admits a sample. -/
theorem admits_of_spread_lt (h : Samples arr) (hspread : spread arr < 2 ^ 16) : Admits arr := by
  obtain ⟨x, hx, hle⟩ := exists_mul_sq_le h.ne_nil UInt16.toNat (mean arr)
  refine ⟨x, hx, ?_⟩
  rw [Nat.mod_eq_of_lt hspread, spread]
  have htwo := h.two_le
  generalize x.toNat.dist (mean arr) = d at hle
  have hhalf : (d + 1) / 2 ≤ d := by omega
  have hsq : d ^ 2 ≤ sqDev UInt16.toNat (mean arr) arr / (arr.length - 1) := by
    rw [Nat.le_div_iff_mul_le (by omega), Nat.mul_comm]
    exact (Nat.mul_le_mul_right _ (Nat.sub_le _ _)).trans hle
  exact (Nat.pow_le_pow_left hhalf 2).trans hsq

/-- **The ADC offset.**  The division is by at least 1, with a result between
two samples, exactly when some sample is close enough to the mean for the low
16 bits of the variance; a variance that fits them always does. -/
theorem averages_iff (h : Samples arr) :
    (Sound arr ↔ Admits arr) ∧ (spread arr < 2 ^ 16 → Sound arr) :=
  ⟨sound_iff h, fun hspread => (sound_iff h).mpr (admits_of_spread_lt h hspread)⟩

/-- Two samples close to each other. -/
theorem averages_iff_close : Sound [100, 104] :=
  (averages_iff ⟨by decide, by decide, by simp⟩).2 (by decide)

/-- As many samples as a calibration takes, one half of them 0 and the other
512. -/
def split : List UInt16 := List.replicate 4096 0 ++ List.replicate 4096 512

theorem length_split : split.length = 8192 := by
  rw [split, List.length_append, List.length_replicate, List.length_replicate]

theorem samples_split : Samples split := by
  refine ⟨by rw [length_split]; norm_num, by rw [length_split]; norm_num, fun x hx => ?_⟩
  rcases List.mem_append.mp hx with hx | hx
  · rw [List.eq_of_mem_replicate hx]
    decide
  · rw [List.eq_of_mem_replicate hx]
    decide

theorem sum_split (f : UInt16 → ℕ) : (split.map f).sum = 4096 * f 0 + 4096 * f 512 := by
  rw [split, List.map_append, List.map_replicate, List.map_replicate, List.sum_append,
    List.sum_replicate, List.sum_replicate, Nat.nsmul_eq_mul, Nat.nsmul_eq_mul]

theorem mean_split : mean split = 256 := by
  rw [mean, length_split, sum_split]
  rfl

/-- The variance takes 17 bits, and 8 is left of it. -/
theorem spread_split : spread split % 2 ^ 16 = 8 := by
  rw [spread, sqDev, mean_split, length_split, sum_split]
  rfl

/-- No sample is kept, and the firmware divides by zero. -/
theorem not_sound_split : split.length = 8192 ∧ Samples split ∧ ¬ Sound split := by
  refine ⟨length_split, samples_split, fun hsound => ?_⟩
  obtain ⟨x, hx, hle⟩ := (sound_iff samples_split).mp hsound
  rw [mean_split, spread_split] at hle
  rcases List.mem_append.mp hx with hx | hx
  · rw [List.eq_of_mem_replicate hx] at hle
    exact absurd hle (by decide)
  · rw [List.eq_of_mem_replicate hx] at hle
    exact absurd hle (by decide)

end TwoStdDev

end Rp2040
