/-
What the startup controller records at a handover
(`motor/src/speed/startup.rs`).

The level recorded is the one prepared behind the last emission.  On the ramp
that is one step above the level emitted, but behind the top of the ramp it is
the level of the restart.

* `near_iff` — when the level prepared is close to the one emitted;
* `recorded_iff` — the handovers of every run.
-/
import Rp2040Decoder.Startup

namespace Rp2040.Startup

open Transition

namespace Controller

variable {F : Type} {self : Controller F}

/-- Two thirds of a mean of levels that are bounded. -/
theorem meanLevel_mul_three_le {base : List UInt16} {n : ℕ} (h : ∀ v ∈ base, v.toNat ≤ n) :
    3 * meanLevel base ≤ 2 * n := by
  have hmean : (base.map UInt16.toNat).sum / base.length ≤ n :=
    Nat.div_le_of_le_mul (Averages.sum_map_le h)
  rw [meanLevel]
  omega

/-- The initial level is at most two thirds of the maximum. -/
theorem Bounded.initial_mul_three_le (h : self.Bounded) :
    3 * self.getInitialLevel.toNat ≤ 2 * self.config.outputMax.toNat := by
  rw [toNat_getInitialLevel]
  split
  · omega
  · refine meanLevel_mul_three_le fun v hv => ?_
    obtain ⟨i, rfl⟩ := List.mem_ofFn.mp (List.mem_filter.mp hv).1
    exact UInt16.le_iff_toNat_le.mp (h.levels i)

/-! ### An emission -/

/-- One step of the ramp does not leave the range of the controller. -/
def Climbs (self : Controller F) : Prop :=
  self.start.output.toNat + self.config.outputMax.toNat / 250 ≤ self.config.outputMax.toNat

instance : Decidable self.Climbs := inferInstanceAs (Decidable (_ ≤ _))

/-- Two levels differ by at most `n`. -/
def Near (n : ℕ) (v w : UInt16) : Prop := v.toNat ≤ w.toNat + n ∧ w.toNat ≤ v.toNat + n

theorem toNat_add_step_mod : (self.start.output + self.config.outputMax / 250).toNat =
    (self.start.output.toNat + self.config.outputMax.toNat / 250) % 65536 := by
  rw [UInt16.toNat_add, UInt16.toNat_div]
  rfl

/-- The level of the next call, when nothing happens in between. -/
def levelBehind (self : Controller F) : UInt16 :=
  if self.nextOutput = 0 then self.getInitialLevel else self.nextOutput

theorem levelBehind_of_climbs (hclimbs : self.Climbs) :
    self.levelBehind.toNat = self.start.output.toNat + self.config.outputMax.toNat / 250 := by
  have hmax := self.config.outputMax.toNat_lt
  have hadd : (self.start.output + self.config.outputMax / 250).toNat =
      self.start.output.toNat + self.config.outputMax.toNat / 250 := by
    rw [toNat_add_step_mod]
    unfold Climbs at hclimbs
    omega
  have hnext : self.nextOutput = self.start.output + self.config.outputMax / 250 := by
    rw [nextOutput, if_neg]
    rw [UInt16.lt_iff_toNat_lt, hadd]
    exact Nat.not_lt.mpr hclimbs
  rw [levelBehind, hnext]
  split
  · rename_i h0
    -- the level stays at 0 only where there is nothing to start from
    have hsum : self.start.output.toNat + self.config.outputMax.toNat / 250 = 0 := by
      rw [← hadd, h0]
      rfl
    have hstart : self.start.output = 0 := by
      rw [← UInt16.toNat_inj]
      show _ = 0
      omega
    have hinitial : self.getInitialLevel = 0 := by
      rw [output_start] at hstart
      split at hstart
      · exact hstart
      · contradiction
    rw [hinitial, hsum]
    rfl
  · exact hadd

/-- Behind the top of the ramp the level falls far. -/
theorem levelBehind_of_not_climbs (h : self.Bounded) (hclimbs : ¬ self.Climbs) :
    self.levelBehind.toNat + self.config.outputMax.toNat / 250 < self.start.output.toNat := by
  have hmax := self.config.outputMax.toNat_lt
  have hstart := UInt16.le_iff_toNat_le.mp h.start
  have hinitial := h.initial_mul_three_le
  have hadd := self.toNat_add_step_mod
  have hhalf : (self.getInitialLevel / 2).toNat = self.getInitialLevel.toNat / 2 :=
    UInt16.toNat_div _ _
  have hzero : ∀ v : UInt16, v = 0 ↔ v.toNat = 0 := fun v => UInt16.toNat_inj.symm
  rw [Climbs] at hclimbs
  rw [levelBehind, nextOutput]
  simp only [UInt16.lt_iff_toNat_lt, hzero]
  -- the sum exceeds the maximum, or the unchecked addition wraps below it
  split <;> split <;> omega

theorem near_iff (h : self.Bounded) :
    Near (self.config.outputMax.toNat / 250) self.start.output self.levelBehind ↔
      self.Climbs := by
  by_cases hclimbs : self.Climbs
  · have hlevel := levelBehind_of_climbs hclimbs
    simp only [hclimbs, iff_true, Near]
    omega
  · have hlevel := levelBehind_of_not_climbs h hclimbs
    simp only [hclimbs, iff_false, Near]
    omega

/-! ### Runs -/

variable [F32 F] {p : Profile} {measurement : F} {v : UInt16} {self' : Controller F}
variable {e e' : Event (Controller F) (Call F)} {t₁ t₂ : List (Event (Controller F) (Call F))}
  {config : Config F} {ff : F}

/-- The call returns a handover with the feed-forward value `ff`. -/
def HandsOver (p : Profile) (e : Event (Controller F) (Call F)) (ff : F) : Prop :=
  ∃ measurement, e.label = .compute measurement ∧
    e.pre.compute p measurement = some (.handover ff, e.post)

/-- The level in the slot of `prev_start_output` that the call writes. -/
def recorded (e : Event (Controller F) (Call F)) : UInt16 :=
  e.post.prevStartOutput e.pre.bufWriteIdx

theorem recorded_of_handsOver (h : HandsOver p e ff) :
    recorded e = e.pre.start.output ∧
      ff = F32.mul e.pre.config.pidFf (F32.ofU16 (recorded e)) := by
  obtain ⟨measurement, -, hcompute⟩ := h
  cases hlt : F32.lt measurement F32.CONTROLLER_HANDOVER with
  | true => simp [compute, hlt] at hcompute
  | false =>
    rw [compute_handover hlt, Option.some_inj, Prod.mk.injEq,
      ComputeResult.handover.injEq] at hcompute
    have hrecorded : recorded e = e.pre.start.output := by
      simp [recorded, ← hcompute.2, record]
    exact ⟨hrecorded, by rw [hrecorded, hcompute.1]⟩

/-- **The level recorded.**  In a run of either build, the call before a
handover that belongs to the same start is an emission.  The level recorded and
fed forward is within a step of the level it emitted exactly when a step above
that level does not exceed the maximum. -/
theorem recorded_iff (hrun : Run (fun h c h' => next p h c = some h') (new config)
      (t₁ ++ e :: e' :: t₂) self) (hv : Emits p e v) (hff : HandsOver p e' ff) :
    ff = F32.mul config.pidFf (F32.ofU16 (recorded e')) ∧
    (Near (config.outputMax.toNat / 250) v (recorded e') ↔ e.pre.Climbs) := by
  obtain ⟨hpre, hstep, hrest⟩ := hrun.split
  obtain ⟨hpost, -, -⟩ := hrest.of_cons
  obtain ⟨⟨hb, hconfig⟩, -⟩ := hpre.invariant
    (I := fun c => c.Bounded ∧ c.config = config)
    (fun s c s' hnext hs =>
      ⟨(hs.1.of_next hnext).1, (hs.1.of_next hnext).2.trans hs.2⟩) ⟨bounded_new, rfl⟩
  obtain ⟨measurement, s, hlabel, hcompute⟩ := hv
  obtain ⟨rfl, hs⟩ := level_of_output hcompute
  rw [hlabel, next, hcompute, Option.map_some, Option.some_inj] at hstep
  have hlevel : e'.pre.start.output = e.pre.levelBehind := by
    rw [hpost, ← hstep, hs, output_start, levelBehind]
    simp [getInitialLevel]
  obtain ⟨hrecorded, hfeed⟩ := recorded_of_handsOver hff
  refine ⟨?_, ?_⟩
  · rw [hfeed, hpost, ← hstep, hs]
    simp [hconfig]
  · rw [hrecorded, hlevel, ← hconfig]
    exact near_iff hb

/-! ### The first start -/

/-- A controller that has recorded nothing yet. -/
def fresh (config : Config F) (output : UInt16) : Controller F := { new config with output }

omit [F32 F] in
theorem getInitialLevel_fresh : (fresh config v).getInitialLevel = 0 := rfl

omit [F32 F] in
theorem fresh_start : (fresh config v).start = fresh config v := by
  rw [start]
  split
  · rename_i h0
    rw [getInitialLevel_fresh]
    exact congrArg (fresh config) h0.symm
  · rfl

omit [F32 F] in
theorem bounded_fresh (h : v ≤ config.outputMax) : (fresh config v).Bounded :=
  ⟨h, bounded_new.levels⟩

theorem next_of_compute {r : ComputeResult F} (h : self.compute p measurement = some (r, self')) :
    self.next p (.compute measurement) = some self' := by
  rw [next, h, Option.map_some]

theorem compute_fresh_below (h : v ≤ config.outputMax) (hmax : config.outputMax ≤ 65273)
    (hlt : F32.lt measurement F32.CONTROLLER_HANDOVER = true) :
    (fresh config v).compute p measurement =
      some (.output v, fresh config (fresh config v).nextOutput) := by
  rw [compute_below (bounded_fresh h) hmax hlt, fresh_start]
  rfl

theorem compute_fresh_handover (hlt : F32.lt measurement F32.CONTROLLER_HANDOVER = false) :
    (fresh config v).compute p measurement =
      some (.handover (F32.mul config.pidFf (F32.ofU16 v)), (fresh config v).record v) := by
  rw [compute_handover hlt, fresh_start]
  rfl

/-- As long as the ramp does not end, `n` emissions raise the level by `n` steps. -/
theorem ramp (hmax : config.outputMax ≤ 65273)
    (hlt : F32.lt measurement F32.CONTROLLER_HANDOVER = true) (n : ℕ)
    (hn : n * (config.outputMax.toNat / 250) ≤ config.outputMax.toNat) :
    ∃ t level, Run (fun h c h' => next p h c = some h') (fresh config 0) t
        (fresh config level) ∧ level.toNat = n * (config.outputMax.toNat / 250) := by
  induction n with
  | zero => exact ⟨[], 0, Run.nil, (Nat.zero_mul _).symm⟩
  | succ n ih =>
    rw [Nat.succ_mul] at hn
    obtain ⟨t, level, hrun, hlevel⟩ := ih (by omega)
    have hle : level ≤ config.outputMax := UInt16.le_iff_toNat_le.mpr (by omega)
    have hclimbs : (fresh config level).Climbs := by
      rw [Climbs, fresh_start]
      show level.toNat + config.outputMax.toNat / 250 ≤ config.outputMax.toNat
      omega
    have hadd := (toNat_add_step (bounded_fresh hle) hmax).2
    have hnext : (fresh config level).nextOutput.toNat =
        level.toNat + config.outputMax.toNat / 250 := by
      rw [nextOutput, if_neg, hadd, fresh_start]
      · rfl
      · rw [UInt16.lt_iff_toNat_lt, hadd]
        exact Nat.not_lt.mpr hclimbs
    refine ⟨_, (fresh config level).nextOutput,
      hrun.snoc (next_of_compute (compute_fresh_below hle hmax hlt)), ?_⟩
    rw [hnext, Nat.succ_mul]
    omega

/-- The first start climbs to the top without movement, and the motor moves at
the next measurement: the level recorded is 0 where 3514 was emitted last. -/
theorem recorded_restart :
    ∃ t e e' self v ff, Run (fun h c h' => next .dev h c = some h')
        (new (⟨3521, 1⟩ : Config ℚ)) (t ++ e :: e' :: []) self ∧
      Emits .dev e v ∧ HandsOver .dev e' ff ∧ ¬ Near (3521 / 250) v (recorded e') := by
  have hmax : (⟨3521, 1⟩ : Config ℚ).outputMax ≤ 65273 := by decide
  have hlt : F32.lt (0 : ℚ) F32.CONTROLLER_HANDOVER = true := by decide +kernel
  obtain ⟨t, level, hrun, hlevel⟩ := ramp (p := .dev) hmax hlt 251 (by decide)
  obtain rfl : level = 3514 := by
    rw [← UInt16.toNat_inj]
    exact hlevel
  have houtput : (fresh (⟨3521, 1⟩ : Config ℚ) 3514).compute .dev 0 =
      some (.output 3514, fresh ⟨3521, 1⟩ 0) :=
    compute_fresh_below (by decide) (by decide) (by decide +kernel)
  have hhandover : (fresh (⟨3521, 1⟩ : Config ℚ) 0).compute .dev 8 =
      some (.handover (F32.mul 1 (F32.ofU16 0)), (fresh ⟨3521, 1⟩ 0).record 0) :=
    compute_fresh_handover (by decide +kernel)
  have hrun' := (hrun.snoc (next_of_compute houtput)).snoc (next_of_compute hhandover)
  rw [List.append_assoc] at hrun'
  refine ⟨t, _, _, _, 3514, _, hrun', ⟨0, _, rfl, houtput⟩, ⟨8, rfl, hhandover⟩, ?_⟩
  rw [recorded, Near]
  decide

/-- A handover behind the first emission. -/
theorem recorded_iff_first :
    ∃ e e' : Event (Controller ℚ) (Call ℚ), ∃ ff, HandsOver .dev e' ff ∧
      ff = F32.mul (1 : ℚ) (F32.ofU16 (recorded e')) ∧
      (Near (3521 / 250) 0 (recorded e') ↔ e.pre.Climbs) := by
  have houtput : (fresh (⟨3521, 1⟩ : Config ℚ) 0).compute .dev 0 =
      some (.output 0, fresh ⟨3521, 1⟩ 14) :=
    compute_fresh_below (by decide) (by decide) (by decide +kernel)
  have hhandover : (fresh (⟨3521, 1⟩ : Config ℚ) 14).compute .dev 8 =
      some (.handover (F32.mul 1 (F32.ofU16 14)), (fresh ⟨3521, 1⟩ 14).record 14) :=
    compute_fresh_handover (by decide +kernel)
  have hrun : Run (fun h c h' => next .dev h c = some h') (new (⟨3521, 1⟩ : Config ℚ))
      ([] ++ ⟨_, .compute 0, _⟩ :: ⟨_, .compute 8, _⟩ :: []) _ :=
    (Run.nil.snoc (next_of_compute houtput)).snoc (next_of_compute hhandover)
  exact ⟨⟨_, .compute 0, _⟩, ⟨_, .compute 8, _⟩, _, ⟨8, rfl, hhandover⟩,
    recorded_iff hrun ⟨0, _, rfl, houtput⟩ ⟨8, rfl, hhandover⟩⟩

end Controller

end Rp2040.Startup
