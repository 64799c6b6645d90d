/-
The measurement of the back-EMF: `RpMotorController::measure` of
`application/src/motor/mod.rs` and `measure` of `Software/core1.c`.

Both take the mean of the samples left when the smallest and the largest are
discarded.  One sorts the samples when it has them all, and discards none if it
were to discard all; the other sorts each as it comes, into an array.

* `filteredCnt_pos` — the mean is one of at least one sample;
* `measure_eq` — it is the mean of the middle of the sorted samples;
* `core1_measure_eq` — the C code computes the same;
* `measure_spec` — all of it.
-/
import Rp2040Decoder.Averages
import Rp2040Decoder.InsertionSort
import Rp2040Decoder.Rounding

namespace Rp2040

open Averages InsertionSort Rounding

/-! ### The two firmwares -/

/-- The sum in 32 bits. -/
def sumU32 (l : List UInt16) : UInt32 := l.foldl (fun sum x => sum + x.toUInt32) 0

/-- `measure` of the C code, with the samples in the order the converter delivers
them and what the array held before; none if it divides by 0. -/
def Core1.measure (rnd : FloatRounding) (totalIterations lSideArrCutoff rSideArrCutoff : UInt8)
    (samples adcVal : ℕ → UInt16) : Option ℚ :=
  let total := totalIterations.toNat
  let l := lSideArrCutoff.toNat
  let r := rSideArrCutoff.toNat
  let adcVal := fill samples adcVal total
  -- for i = l; i < total - r
  let sum := sumU32 ((List.range' l (total - r - l)).map adcVal)
  let divisor : ℤ := total - (l + r)
  if divisor = 0 then none else some (rnd.round (rnd.round sum.toNat / rnd.round divisor))

namespace Emf

def MAX_EMF_SAMPLES : ℕ := 255

/-- `Config` of the motor controller, as far as a measurement uses it: CV61, CV63
and CV64. -/
structure Config where
  emfSamples : UInt8
  emfLCutoff : UInt8
  emfRCutoff : UInt8

namespace Config

/-- Number of samples to take. -/
def n (config : Config) : ℕ := max 1 (min config.emfSamples.toNat MAX_EMF_SAMPLES)

/-- Samples discarded from each end. -/
def cutoffs (config : Config) : ℕ × ℕ :=
  let l := config.emfLCutoff.toNat
  let r := config.emfRCutoff.toNat
  if l + r < config.n then (l, r) else (0, 0)

def filteredCnt (config : Config) : ℕ := config.n - (config.cutoffs.1 + config.cutoffs.2)

/-- The samples that are left. -/
def filtered (config : Config) (buf : List UInt16) : List UInt16 :=
  (buf.mergeSort.drop config.cutoffs.1).take config.filteredCnt

end Config

/-- `RpMotorController::measure`, with the samples in the order the converter
delivers them. -/
def measure (rnd : FloatRounding) (config : Config) (samples : ℕ → UInt16) : ℚ :=
  let buf := contents samples config.n
  let sum := sumU32 (config.filtered buf)
  rnd.round (rnd.round sum.toNat / rnd.round config.filteredCnt)

variable {rnd : FloatRounding} {config : Config} {samples samples' adcVal : ℕ → UInt16}

/-! ### The mean -/

theorem n_pos (config : Config) : 1 ≤ config.n := Nat.le_max_left _ _

theorem n_le : config.n ≤ 255 := max_le (by norm_num) (Nat.min_le_right _ _)

theorem n_eq (h : 1 ≤ config.emfSamples.toNat) : config.n = config.emfSamples.toNat := by
  have hlt := config.emfSamples.toNat_lt
  rw [Config.n, MAX_EMF_SAMPLES]
  omega

theorem cutoffs_lt (config : Config) :
    config.cutoffs.1 + config.cutoffs.2 < config.n := by
  have hpos := n_pos config
  rw [Config.cutoffs]
  split
  · assumption
  · exact hpos

theorem cutoffs_of_lt (h : config.emfLCutoff.toNat + config.emfRCutoff.toNat < config.n) :
    config.cutoffs.1 = config.emfLCutoff.toNat ∧ config.cutoffs.2 = config.emfRCutoff.toNat := by
  rw [Config.cutoffs, if_pos h]
  exact ⟨rfl, rfl⟩

theorem cutoffs_of_le (h : config.n ≤ config.emfLCutoff.toNat + config.emfRCutoff.toNat) :
    config.cutoffs.1 = 0 ∧ config.cutoffs.2 = 0 := by
  rw [Config.cutoffs, if_neg (Nat.not_lt.mpr h)]
  exact ⟨rfl, rfl⟩

theorem filteredCnt_pos (config : Config) : 1 ≤ config.filteredCnt :=
  Nat.sub_pos_of_lt (cutoffs_lt config)

theorem toNat_foldl_mod (l : List UInt16) (sum : UInt32) :
    (l.foldl (fun sum x => sum + x.toUInt32) sum).toNat =
      (sum.toNat + (l.map UInt16.toNat).sum) % 2 ^ 32 := by
  induction l generalizing sum with
  | nil => exact (Nat.mod_eq_of_lt sum.toNat_lt).symm
  | cons x l ih =>
    rw [List.foldl_cons, ih, UInt32.toNat_add, UInt16.toNat_toUInt32, Nat.mod_add_mod,
      List.map_cons, List.sum_cons, Nat.add_assoc]

/-- So few samples neither overflow the sum nor the significand. -/
theorem toNat_sumU32 {l : List UInt16} (h : l.length ≤ 255) :
    (sumU32 l).toNat = (l.map UInt16.toNat).sum ∧ (l.map UInt16.toNat).sum ≤ 2 ^ 24 := by
  have hsum : (l.map UInt16.toNat).sum ≤ 255 * 65535 :=
    (sum_map_le fun e _ => Nat.le_of_lt_succ e.toNat_lt).trans (Nat.mul_le_mul_right _ h)
  refine ⟨?_, hsum.trans (by norm_num)⟩
  have hmod : (sumU32 l).toNat = (0 + (l.map UInt16.toNat).sum) % 2 ^ 32 := toNat_foldl_mod l 0
  rw [hmod, Nat.zero_add, Nat.mod_eq_of_lt (hsum.trans_lt (by norm_num))]

/-- The quotient is the mean, rounded once. -/
theorem round_div_eq {l : List UInt16} (h : l.length ≤ 255) :
    rnd.round (rnd.round (sumU32 l).toNat / rnd.round l.length) =
      rnd.round (average UInt16.toNat l) := by
  obtain ⟨hsum, hle⟩ := toNat_sumU32 h
  rw [hsum, rnd.natCast _ hle, rnd.natCast _ (h.trans (by norm_num)), average]

theorem length_buf : (contents samples config.n).mergeSort.length = config.n := by
  rw [List.length_mergeSort, length_contents]

theorem length_filtered (samples : ℕ → UInt16) :
    (config.filtered (contents samples config.n)).length = config.filteredCnt := by
  have hlt := cutoffs_lt config
  rw [Config.filtered, List.length_take, List.length_drop, length_buf, Config.filteredCnt]
  omega

theorem filtered_ne_nil (config : Config) (samples : ℕ → UInt16) :
    config.filtered (contents samples config.n) ≠ [] := by
  have hpos := filteredCnt_pos config
  rw [← length_filtered samples] at hpos
  exact List.ne_nil_of_length_pos hpos

theorem measure_eq : measure rnd config samples =
    rnd.round (average UInt16.toNat (config.filtered (contents samples config.n))) := by
  have hle : config.filteredCnt ≤ 255 := (Nat.sub_le _ _).trans n_le
  rw [← length_filtered samples] at hle
  rw [measure, ← round_div_eq hle, length_filtered]

theorem mem_of_mem_filtered {e : UInt16} (h : e ∈ config.filtered (contents samples config.n)) :
    e ∈ contents samples config.n :=
  List.mem_mergeSort.mp (List.mem_of_mem_drop (List.mem_of_mem_take h))

/-! ### Sorting -/

/-- The order of 16-bit integers. -/
@[reducible] def linearOrder : LinearOrder UInt16 where
  le_refl := UInt16.le_refl
  le_trans _ _ _ := UInt16.le_trans
  lt_iff_le_not_ge a b := by
    rw [UInt16.not_le]
    exact ⟨fun h => ⟨UInt16.le_of_lt h, h⟩, And.right⟩
  le_antisymm _ _ := UInt16.le_antisymm
  le_total := UInt16.le_total
  toDecidableLE := inferInstance
  toDecidableEq := inferInstance
  toDecidableLT := inferInstance

theorem mergeSort_pairwise (l : List UInt16) : l.mergeSort.Pairwise (· ≤ ·) :=
  @mergeSort_sorted _ linearOrder l

theorem mergeSort_congr {l l' : List UInt16} (h : l.Perm l') : l.mergeSort = l'.mergeSort :=
  @eq_mergeSort _ linearOrder _ _ ((List.mergeSort_perm l _).trans h) (mergeSort_pairwise l)

/-- The array is sorted after every sample. -/
theorem fill_sorted (i : ℕ) : (contents (fill samples adcVal i) i).Pairwise (· ≤ ·) :=
  @contents_fill_sorted _ linearOrder _ _ i

theorem fill_perm (i : ℕ) : (contents (fill samples adcVal i) i).Perm (contents samples i) :=
  @contents_fill_perm _ linearOrder _ _ i

theorem contents_fill_eq (adcVal : ℕ → UInt16) (i : ℕ) :
    contents (fill samples adcVal i) i = (contents samples i).mergeSort :=
  @contents_fill _ linearOrder _ _ i

/-- What is discarded stands on either side of what is left. -/
theorem exists_split (config : Config) (samples : ℕ → UInt16) : ∃ low high : List UInt16,
    low ++ config.filtered (contents samples config.n) ++ high =
      (contents samples config.n).mergeSort ∧
    low.length = config.cutoffs.1 ∧ high.length = config.cutoffs.2 := by
  have hlt := cutoffs_lt config
  refine ⟨(contents samples config.n).mergeSort.take config.cutoffs.1,
    ((contents samples config.n).mergeSort.drop config.cutoffs.1).drop config.filteredCnt,
    ?_, ?_, ?_⟩
  · rw [List.append_assoc, Config.filtered, List.take_append_drop, List.take_append_drop]
  · rw [List.length_take, length_buf]
    omega
  · rw [List.length_drop, List.length_drop, length_buf, Config.filteredCnt]
    omega

theorem measure_congr (h : (contents samples' config.n).Perm (contents samples config.n)) :
    measure rnd config samples' = measure rnd config samples := by
  rw [measure_eq, measure_eq, Config.filtered, mergeSort_congr h, Config.filtered]

/-- The C code computes the same as long as it discards less than all samples. -/
theorem core1_measure_eq
    (h : config.emfLCutoff.toNat + config.emfRCutoff.toNat < config.emfSamples.toNat) :
    Core1.measure rnd config.emfSamples config.emfLCutoff config.emfRCutoff samples adcVal =
      some (measure rnd config samples) := by
  have hn : config.n = config.emfSamples.toNat := n_eq (by omega)
  have hcutoffs : config.cutoffs = (config.emfLCutoff.toNat, config.emfRCutoff.toNat) := by
    rw [Config.cutoffs, hn]
    exact if_pos h
  have hcnt : config.filteredCnt =
      config.emfSamples.toNat - config.emfRCutoff.toNat - config.emfLCutoff.toNat := by
    rw [Config.filteredCnt, hcutoffs, hn]
    omega
  have hdivisor : (config.emfSamples.toNat : ℤ) -
      (config.emfLCutoff.toNat + config.emfRCutoff.toNat) = (config.filteredCnt : ℕ) := by
    rw [hcnt]
    omega
  have hpos : ((config.filteredCnt : ℕ) : ℤ) ≠ 0 := by
    have hcnt_pos := filteredCnt_pos config
    omega
  have hrange : (List.range config.emfSamples.toNat).drop config.emfLCutoff.toNat =
      List.range' config.emfLCutoff.toNat
        (config.emfSamples.toNat - config.emfLCutoff.toNat) := by
    rw [List.range_eq_range', List.drop_range', Nat.zero_add, Nat.mul_one]
  have hwindow : (List.range' config.emfLCutoff.toNat config.filteredCnt).map
      (fill samples adcVal config.emfSamples.toNat) =
      config.filtered (contents samples config.n) := by
    rw [Config.filtered, hn, ← contents_fill_eq adcVal, contents, hcutoffs, ← List.map_drop,
      ← List.map_take, hrange, List.take_range'_of_length_ge (by omega)]
  rw [Core1.measure, hdivisor, if_neg hpos, ← hcnt, hwindow, measure, Int.cast_natCast]

/-! ### The specification -/

/-- What is promised of a measurement. -/
structure TrimmedMean (rnd : FloatRounding) (config : Config) (samples : ℕ → UInt16) : Prop where
  /-- the divisor is at least 1 -/
  filteredCnt_pos : 1 ≤ config.filteredCnt
  /-- the order of the samples does not matter -/
  perm : ∀ samples', (contents samples' config.n).Perm (contents samples config.n) →
    measure rnd config samples' = measure rnd config samples
  /-- the mean without the `l` smallest and the `r` largest samples, or of all of
  them where that would leave none -/
  mean : ∃ (l r : ℕ) (low mid high : List UInt16),
    (config.emfLCutoff.toNat + config.emfRCutoff.toNat < config.n →
      l = config.emfLCutoff.toNat ∧ r = config.emfRCutoff.toNat) ∧
    (config.n ≤ config.emfLCutoff.toNat + config.emfRCutoff.toNat → l = 0 ∧ r = 0) ∧
    (low ++ mid ++ high).Perm (contents samples config.n) ∧
    (low ++ mid ++ high).Pairwise (· ≤ ·) ∧ low.length = l ∧ high.length = r ∧
    measure rnd config samples = rnd.round (average UInt16.toNat mid)
  low : ∃ e ∈ contents samples config.n, (e.toNat : ℚ) ≤ measure rnd config samples
  high : ∃ e ∈ contents samples config.n, measure rnd config samples ≤ (e.toNat : ℚ)
  /-- the C code agrees -/
  core1 : 1 ≤ config.emfSamples →
    config.emfLCutoff.toNat + config.emfRCutoff.toNat < config.emfSamples.toNat →
    ∀ adcVal, Core1.measure rnd config.emfSamples config.emfLCutoff config.emfRCutoff samples
      adcVal = some (measure rnd config samples)
  /-- its array is sorted after every sample -/
  sorted : ∀ adcVal i, (contents (fill samples adcVal i) i).Pairwise (· ≤ ·) ∧
    (contents (fill samples adcVal i) i).Perm (contents samples i)

/-- **The trimmed mean.**  A measurement is the mean of at least one sample, the
smallest and the largest left out, whatever their order; the C code computes the
same with a sample count that exceeds what it discards. -/
theorem measure_spec (rnd : FloatRounding) (config : Config) (samples : ℕ → UInt16) :
    TrimmedMean rnd config samples where
  filteredCnt_pos := Emf.filteredCnt_pos config
  perm _ h := measure_congr h
  mean := by
    obtain ⟨low, high, hsplit, hlow, hhigh⟩ := exists_split config samples
    refine ⟨_, _, low, _, high, cutoffs_of_lt, cutoffs_of_le, ?_, ?_, hlow, hhigh, measure_eq⟩
    · rw [hsplit]
      exact List.mergeSort_perm _ _
    · rw [hsplit]
      exact mergeSort_pairwise _
  low := by
    obtain ⟨e, he, hle⟩ := exists_le_average (filtered_ne_nil config samples) UInt16.toNat
    refine ⟨e, mem_of_mem_filtered he, ?_⟩
    rw [measure_eq, ← rnd.natCast e.toNat (e.toNat_lt.le.trans (by norm_num))]
    exact rnd.mono hle
  high := by
    obtain ⟨e, he, hle⟩ := exists_average_le (filtered_ne_nil config samples) UInt16.toNat
    refine ⟨e, mem_of_mem_filtered he, ?_⟩
    rw [measure_eq, ← rnd.natCast e.toNat (e.toNat_lt.le.trans (by norm_num))]
    exact rnd.mono hle
  core1 _ h _ := core1_measure_eq h
  sorted _ i := ⟨fill_sorted i, fill_perm i⟩

end Emf

end Rp2040
