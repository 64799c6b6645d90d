/-
The mean of the samples close to the mean of all (`filtered_mean` in
`math/src/lib.rs`), with real arithmetic for the floating point types.

A sample is kept if it is within so many standard deviations of the mean of
all, which is rounded down.  The deviations are taken from the rounded mean, so
that some sample is kept needs an argument: one of them is no further from it
than the root mean square.

* `toNat_mean`, `toNat_square`, `toNat_varSum`, `toNat_sum` — no conversion
  loses information;
* `kept_ne_nil` — some sample is kept;
* `filteredMean_eq` — the result in terms of the samples kept;
* `filteredMean_spec` — it lies between two of them, in any order.
-/
import Rp2040Decoder.Averages
import Rp2040Decoder.Rounding

namespace Rp2040

open Averages Rounding

namespace FilteredMean

def mean (data : List UInt16) : UInt16 :=
  (data.foldl (fun sum e => sum + e.toUInt64) 0 / UInt64.ofNat data.length).toUInt16

/-- `(e as i64 - mean as i64).pow(2) as u64` -/
def square (mean e : UInt16) : UInt64 :=
  let deviation := e.toUInt64.toInt64 - mean.toUInt64.toInt64
  (deviation * deviation).toUInt64

def varSum (data : List UInt16) : UInt64 :=
  data.foldl (fun sum e => sum + square (mean data) e) 0

/-- `e.abs_diff(mean) <= threshold`, where the threshold is `stdDeviations` times
the root of `var_sum / (data.len() - 1)`. -/
def within (data : List UInt16) (stdDeviations e : UInt16) : Bool :=
  decide (e.toNat.dist (mean data).toNat ^ 2 * (data.length - 1) ≤
    stdDeviations.toNat ^ 2 * (varSum data).toNat)

/-- The sum and the number of the elements that are not filtered out. -/
def sumCnt (data : List UInt16) (stdDeviations : UInt16) : UInt64 × ℕ :=
  data.foldl (fun (sum, cnt) e =>
    if within data stdDeviations e then (sum + e.toUInt64, cnt + 1) else (sum, cnt)) (0, 0)

end FilteredMean

/-- `filtered_mean` -/
def filteredMean (data : List UInt16) (stdDeviations : UInt16) : Option UInt16 :=
  if data.isEmpty then none
  else if data.length = 1 then some (FilteredMean.mean data)
  else
    let (sum, cnt) := FilteredMean.sumCnt data stdDeviations
    if cnt = 0 then none else some (asU16 (roundAway (sum.toNat / cnt)))

namespace FilteredMean

/-- A slice on the 32-bit target: its size in bytes is at most `isize::MAX`. -/
def Slice (data : List UInt16) : Prop := 2 * data.length < 2 ^ 31

variable {data data' : List UInt16} {k : UInt16}

/-! ### Conversions -/

/-- A sum over a slice fits 64 bits. -/
theorem Slice.sum_lt (h : Slice data) {f : UInt16 → ℕ} (hf : ∀ e ∈ data, f e ≤ 2 ^ 32) :
    (data.map f).sum < 2 ^ 64 := by
  have hlength : data.length ≤ 2 ^ 31 := by
    rw [Slice] at h
    omega
  calc (data.map f).sum ≤ data.length * 2 ^ 32 := sum_map_le hf
    _ ≤ 2 ^ 31 * 2 ^ 32 := Nat.mul_le_mul_right _ hlength
    _ < 2 ^ 64 := by norm_num

theorem Slice.toNat_foldl (h : Slice data) {g : UInt16 → UInt64}
    (hg : ∀ e ∈ data, (g e).toNat ≤ 2 ^ 32) :
    (data.foldl (fun sum e => sum + g e) 0).toNat = (data.map fun e => (g e).toNat).sum := by
  have hsum := toNat_foldl_add g data 0 (by
    rw [show (0 : UInt64).toNat = 0 from rfl, Nat.zero_add]
    exact h.sum_lt hg)
  rwa [show (0 : UInt64).toNat = 0 from rfl, Nat.zero_add] at hsum

theorem toNat_le (e : UInt16) : e.toUInt64.toNat ≤ 2 ^ 32 := by
  rw [UInt16.toNat_toUInt64]
  exact e.toNat_lt.le.trans (by norm_num)

theorem Slice.filter (h : Slice data) (p : UInt16 → Bool) : Slice (data.filter p) := by
  have hle := List.length_filter_le p data
  rw [Slice] at h ⊢
  omega

theorem toNat_mean (h : Slice data) (hne : data ≠ []) :
    (mean data).toNat = (data.map UInt16.toNat).sum / data.length := by
  obtain ⟨e, he, hle⟩ := exists_div_le hne UInt16.toNat
  have hlength : data.length < 2 ^ 64 := by
    rw [Slice] at h
    omega
  rw [mean, UInt64.toNat_toUInt16, UInt64.toNat_div, h.toNat_foldl fun e _ => toNat_le e,
    UInt64.toNat_ofNat', Nat.mod_eq_of_lt hlength]
  simp only [UInt16.toNat_toUInt64]
  exact Nat.mod_eq_of_lt (hle.trans_lt e.toNat_lt)

theorem toNat_square (m e : UInt16) : (square m e).toNat = e.toNat.dist m.toNat ^ 2 := by
  have hsq : square m e = (e.toUInt64 - m.toUInt64) * (e.toUInt64 - m.toUInt64) := by
    rw [square]
    simp only [Int64.toUInt64_mul, Int64.toUInt64_sub, UInt64.toUInt64_toInt64]
  rw [hsq, toNat_sub_mul_sub, UInt16.toNat_toUInt64, UInt16.toNat_toUInt64]
  · rw [UInt16.toNat_toUInt64]
    exact e.toNat_lt
  · rw [UInt16.toNat_toUInt64]
    exact m.toNat_lt

theorem toNat_varSum (h : Slice data) :
    (varSum data).toNat = sqDev UInt16.toNat (mean data).toNat data := by
  rw [varSum, h.toNat_foldl]
  · simp only [toNat_square]
    rfl
  · intro e _
    have hdist : e.toNat.dist (mean data).toNat ≤ 2 ^ 16 := by
      have he := e.toNat_lt
      have hm := (mean data).toNat_lt
      rw [Nat.dist]
      omega
    rw [toNat_square]
    exact (Nat.pow_le_pow_left hdist 2).trans (by norm_num)

/-- The elements that are not filtered out. -/
def kept (data : List UInt16) (stdDeviations : UInt16) : List UInt16 :=
  data.filter (within data stdDeviations)

theorem foldl_sum_cnt (l : List UInt16) (sum : UInt64) (cnt : ℕ) :
    l.foldl (fun (sum, cnt) e => (sum + e.toUInt64, cnt + 1)) (sum, cnt) =
      (l.foldl (fun sum e => sum + e.toUInt64) sum, cnt + l.length) := by
  induction l generalizing sum cnt with
  | nil => rfl
  | cons e l ih =>
    rw [List.foldl_cons, ih, List.foldl_cons, List.length_cons]
    simp only [Prod.mk.injEq, true_and]
    omega

theorem sumCnt_eq : sumCnt data k =
    ((kept data k).foldl (fun sum e => sum + e.toUInt64) 0, (kept data k).length) := by
  have hfold : sumCnt data k =
      (kept data k).foldl (fun (sum, cnt) e => (sum + e.toUInt64, cnt + 1)) (0, 0) := by
    rw [kept, List.foldl_filter]
    rfl
  rw [hfold, foldl_sum_cnt, Nat.zero_add]

theorem toNat_sum (h : Slice data) :
    (sumCnt data k).1.toNat = ((kept data k).map UInt16.toNat).sum := by
  rw [sumCnt_eq, kept, (h.filter _).toNat_foldl fun e _ => toNat_le e]
  simp only [UInt16.toNat_toUInt64]

/-! ### The elements that are kept -/

/-- Some element is kept. -/
theorem kept_ne_nil (h : Slice data) (hne : data ≠ []) (hk : 1 ≤ k) : kept data k ≠ [] := by
  obtain ⟨e, he, hle⟩ := exists_mul_sq_le hne UInt16.toNat (mean data).toNat
  have hk' : 1 ≤ k.toNat ^ 2 := Nat.one_le_pow _ _ (UInt16.le_iff_toNat_le.mp hk)
  refine List.ne_nil_of_mem (List.mem_filter.mpr ⟨he, ?_⟩)
  rw [within, decide_eq_true_iff, toNat_varSum h]
  calc e.toNat.dist (mean data).toNat ^ 2 * (data.length - 1)
      ≤ data.length * e.toNat.dist (mean data).toNat ^ 2 := by
        rw [Nat.mul_comm]
        exact Nat.mul_le_mul_right _ (Nat.sub_le _ _)
    _ ≤ 1 * sqDev UInt16.toNat (mean data).toNat data := by rwa [Nat.one_mul]
    _ ≤ k.toNat ^ 2 * sqDev UInt16.toNat (mean data).toNat data := Nat.mul_le_mul_right _ hk'

/-! ### The result -/

/-- The rounded average of some elements lies between two of them. -/
theorem toNat_rounded {l : List UInt16} (hne : l ≠ []) :
    ((asU16 (roundAway (average UInt16.toNat l))).toNat : ℤ) =
      roundAway (average UInt16.toNat l) ∧
    (∃ e ∈ l, e ≤ asU16 (roundAway (average UInt16.toNat l))) ∧
    ∃ e ∈ l, asU16 (roundAway (average UInt16.toNat l)) ≤ e := by
  obtain ⟨lo, hlo, hle⟩ := exists_le_average hne UInt16.toNat
  obtain ⟨hi, hhi, hge⟩ := exists_average_le hne UInt16.toNat
  have hlow := natCast_le_round hle
  have hhigh := round_le_natCast hge
  have hlt := hi.toNat_lt
  have hround := roundAway_of_nonneg (average_nonneg (f := UInt16.toNat) (l := l))
  rw [hround]
  have htoNat := toNat_asU16 (z := round (average UInt16.toNat l)) (by omega) (by omega)
  refine ⟨htoNat, ⟨lo, hlo, ?_⟩, ⟨hi, hhi, ?_⟩⟩
  · rw [UInt16.le_iff_toNat_le]
    omega
  · rw [UInt16.le_iff_toNat_le]
    omega

theorem rounded_singleton (e : UInt16) :
    asU16 (roundAway (average UInt16.toNat [e])) = e := by
  have haverage : average UInt16.toNat [e] = (e.toNat : ℚ) := by simp [average]
  have htoNat := (toNat_rounded (List.cons_ne_nil e [])).1
  rw [haverage, roundAway_of_nonneg (Nat.cast_nonneg _), round_natCast] at htoNat ⊢
  exact UInt16.toNat_inj.mp (by exact_mod_cast htoNat)

theorem mean_singleton (e : UInt16) : mean [e] = e := by
  have hslice : Slice [e] := by
    show 2 * 1 < 2 ^ 31
    norm_num
  have hmean := toNat_mean hslice (List.cons_ne_nil e [])
  refine UInt16.toNat_inj.mp (hmean.trans ?_)
  simp

/-- The result is the average of the elements kept, rounded to the nearest. -/
theorem filteredMean_eq (h : Slice data) (hne : data ≠ []) (hk : 1 ≤ k) :
    filteredMean data k = some (asU16 (roundAway (average UInt16.toNat (kept data k)))) := by
  have hkept := kept_ne_nil h hne hk
  rw [filteredMean, if_neg (by simpa using hne)]
  by_cases hone : data.length = 1
  · obtain ⟨e, rfl⟩ := List.length_eq_one_iff.mp hone
    have hsingle : kept [e] k = [e] := by
      cases hwithin : within [e] k e with
      | true => simp [kept, hwithin]
      | false => simp [kept, hwithin] at hkept
    rw [if_pos hone, hsingle, rounded_singleton, mean_singleton]
  · have hcnt : ¬ (sumCnt data k).2 = 0 := by
      rw [sumCnt_eq]
      exact mt List.length_eq_zero_iff.mp hkept
    rw [if_neg hone]
    simp only [if_neg hcnt, toNat_sum h]
    rw [sumCnt_eq, average]

theorem kept_perm (h : Slice data) (hne : data ≠ []) (hperm : data'.Perm data) :
    (kept data' k).Perm (kept data k) := by
  have h' : Slice data' := by rwa [Slice, hperm.length_eq]
  have hne' : data' ≠ [] := fun hnil => hne (List.nil_perm.mp (hnil ▸ hperm))
  have hmean : mean data' = mean data := by
    refine UInt16.toNat_inj.mp ?_
    rw [toNat_mean h' hne', toNat_mean h hne, (hperm.map _).sum_nat, hperm.length_eq]
  have hvarSum : varSum data' = varSum data := by
    refine UInt64.toNat_inj.mp ?_
    rw [toNat_varSum h', toNat_varSum h, hmean, sqDev_perm hperm]
  have hwithin : within data' k = within data k := by
    funext e
    rw [within, within, hmean, hvarSum, hperm.length_eq]
  rw [kept, kept, hwithin]
  exact hperm.filter _

/-- No conversion to `u64` or `u16` on the way to `r` loses information. -/
structure Exact (data : List UInt16) (k r : UInt16) : Prop where
  mean : (mean data).toNat = (data.map UInt16.toNat).sum / data.length
  square : ∀ e ∈ data, (square (FilteredMean.mean data) e).toNat =
    e.toNat.dist (FilteredMean.mean data).toNat ^ 2
  varSum : (varSum data).toNat =
    (data.map fun e => e.toNat.dist (FilteredMean.mean data).toNat ^ 2).sum
  sum : (sumCnt data k).1.toNat = ((kept data k).map UInt16.toNat).sum
  result : (r.toNat : ℤ) = roundAway (average UInt16.toNat (kept data k))

/-- **The filtered mean.**  Of a slice that is not empty, and for at least one
standard deviation, there is a result; it lies between two of the elements that
are kept, no conversion loses information, and the order of the elements does
not matter. -/
theorem filteredMean_spec (h : Slice data) (hne : data ≠ []) (hk : 1 ≤ k) :
    ∃ r, filteredMean data k = some r ∧ (∃ e ∈ kept data k, e ≤ r) ∧
      (∃ e ∈ kept data k, r ≤ e) ∧ Exact data k r ∧
      ∀ data' : List UInt16, data'.Perm data → filteredMean data' k = some r := by
  obtain ⟨hresult, hlow, hhigh⟩ := toNat_rounded (kept_ne_nil h hne hk)
  refine ⟨_, filteredMean_eq h hne hk, hlow, hhigh,
    ⟨toNat_mean h hne, fun e _ => toNat_square _ e, toNat_varSum h, toNat_sum h, hresult⟩, ?_⟩
  intro data' hperm
  have h' : Slice data' := by rwa [Slice, hperm.length_eq]
  have hne' : data' ≠ [] := fun hnil => hne (List.nil_perm.mp (hnil ▸ hperm))
  rw [filteredMean_eq h' hne' hk, average_perm (kept_perm h hne hperm)]

/-- One outlier is filtered out. -/
theorem filteredMean_spec_outlier :
    ∃ r, filteredMean [10, 12, 11, 10, 100] 1 = some r ∧
      (∃ e ∈ kept [10, 12, 11, 10, 100] 1, e ≤ r) ∧
      (∃ e ∈ kept [10, 12, 11, 10, 100] 1, r ≤ e) ∧ Exact [10, 12, 11, 10, 100] 1 r ∧
      ∀ data' : List UInt16, data'.Perm [10, 12, 11, 10, 100] → filteredMean data' 1 = some r :=
  filteredMean_spec (by show 2 * 5 < 2 ^ 31; norm_num) (List.cons_ne_nil _ _) (by decide)

end FilteredMean

end Rp2040
