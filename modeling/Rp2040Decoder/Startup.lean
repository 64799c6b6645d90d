/-
The startup controller (`motor/src/speed/startup.rs`).

`output` is both the level to emit next and, at 0, the mark of a controller
that has not started.  It is advanced behind every emission, and the levels at
which the motor began to move go round a buffer that the next start reads.

* `window_of_run` — the buffer holds the last levels recorded;
* `Bounded`, `next_bounded` — no level exceeds `output_max`;
* `climb_le` — how long the level can climb without a restart;
* `startup_laws` — every finite sequence of calls follows the laws.
-/
import Mathlib.Data.Rat.Defs
import Rp2040Decoder.Averages
import Rp2040Decoder.Overflow
import Rp2040Decoder.RingBuffer
import Rp2040Decoder.Runs

namespace Rp2040.Startup

open Transition RingBuffer

/-- `f32`, as far as the controller uses it. -/
class F32 (F : Type) where
  lt : F → F → Bool
  mul : F → F → F
  ofU16 : UInt16 → F
  CONTROLLER_HANDOVER : F

abbrev START_OUTPUT_ARR_LEN : ℕ := 16

structure Config (F : Type) where
  /-- Maximum controller output (PWM top). -/
  outputMax : UInt16
  /-- The PID feed forward factor. -/
  pidFf : F

/-- Result of a computation. -/
inductive ComputeResult (F : Type)
  | output (level : UInt16)
  | handover (ff : F)
  deriving DecidableEq, Repr

/-- A controller that quickly ramps up the output to overcome the friction of the motor. -/
structure Controller (F : Type) where
  config : Config F
  /-- The output values at which the handover target was reached. -/
  prevStartOutput : Fin START_OUTPUT_ARR_LEN → UInt16
  bufWriteIdx : Fin START_OUTPUT_ARR_LEN
  /-- current output -/
  output : UInt16

/-- A call of one of the two methods. -/
inductive Call (F : Type)
  | compute (measurement : F)
  | reset

namespace Controller

variable {F : Type}

def new (config : Config F) : Controller F := ⟨config, fun _ => 0, 0, 0⟩

/-- The initial startup level, from the average of the set base values. -/
def getInitialLevel (self : Controller F) : UInt16 :=
  let (sum, cnt) := ((List.ofFn self.prevStartOutput).filter (0 < ·)).foldl
    (fun (sum, cnt) v => (sum + v.toNat, cnt + 1)) (0, 0)
  if cnt ≠ 0 then UInt16.ofNat (sum / cnt * 2 / 3) else 0

def reset (self : Controller F) : Controller F := { self with output := 0 }

/-- A controller that has not started begins with the initial level. -/
def start (self : Controller F) : Controller F :=
  if self.output = 0 then { self with output := self.getInitialLevel } else self

/-- The controller once `level` was found to move the motor. -/
def record (level : UInt16) (self : Controller F) : Controller F :=
  { self with
    prevStartOutput := Function.update self.prevStartOutput self.bufWriteIdx level
    bufWriteIdx := increment self.bufWriteIdx
    output := 0 }

variable [F32 F]

def compute (p : Profile) (measurement : F) (self : Controller F) :
    Option (ComputeResult F × Controller F) :=
  let self := self.start
  if F32.lt measurement F32.CONTROLLER_HANDOVER then
    let currOutput := self.output
    -- the new output level for the next iteration
    (p.addU16 self.output (self.config.outputMax / 250)).map fun output =>
      -- try again with half value...
      let output := if self.config.outputMax < output then self.getInitialLevel / 2 else output
      (.output currOutput, { self with output })
  else
    -- the handover target is reached: the output is kept for next time
    let ff := F32.mul self.config.pidFf (F32.ofU16 self.output)
    some (.handover ff, self.record self.output)

/-- The controller after a call; none if it panics. -/
def next (p : Profile) (self : Controller F) : Call F → Option (Controller F)
  | .compute measurement => (self.compute p measurement).map Prod.snd
  | .reset => some self.reset

end Controller

/-- `output_max` as `main` computes it, from the system clock and CV9. -/
def mainOutputMax (clkSysFreq : ℕ) (cv9 : UInt8) : UInt16 :=
  let motorPwmFrequency := cv9.toNat * 100 + 10000
  UInt16.ofNat (clkSysFreq / motorPwmFrequency)

/-! ### The initial level -/

/-- Two thirds of the mean. -/
def meanLevel (base : List UInt16) : ℕ := (base.map UInt16.toNat).sum / base.length * 2 / 3

/-- The initial level after the levels were recorded, oldest first. -/
def initialLevel (levels : List UInt16) : ℕ :=
  let base := (levels.drop (levels.length - START_OUTPUT_ARR_LEN)).filter (0 < ·)
  if base = [] then 0 else meanLevel base

theorem meanLevel_le {base : List UInt16} {n : ℕ} (h : ∀ v ∈ base, v.toNat ≤ n) :
    meanLevel base ≤ n := by
  have hmean : (base.map UInt16.toNat).sum / base.length ≤ n :=
    Nat.div_le_of_le_mul (Averages.sum_map_le h)
  rw [meanLevel]
  omega

theorem foldl_sum (base : List UInt16) (sum cnt : ℕ) :
    base.foldl (fun (sum, cnt) v => (sum + v.toNat, cnt + 1)) (sum, cnt) =
      (sum + (base.map UInt16.toNat).sum, cnt + base.length) := by
  induction base generalizing sum cnt with
  | nil => rfl
  | cons v base ih =>
    rw [List.foldl_cons, ih, List.map_cons, List.sum_cons, List.length_cons, Nat.add_assoc,
      Nat.add_assoc, Nat.add_comm 1]

/-- The order of the levels does not matter. -/
theorem meanLevel_perm {base base' : List UInt16} (h : base.Perm base') :
    meanLevel base = meanLevel base' := by
  rw [meanLevel, meanLevel, (h.map UInt16.toNat).sum_nat, h.length_eq]

namespace Controller

variable {F : Type} {self : Controller F}

theorem toNat_getInitialLevel : self.getInitialLevel.toNat =
    if (List.ofFn self.prevStartOutput).filter (0 < ·) = [] then 0
    else meanLevel ((List.ofFn self.prevStartOutput).filter (0 < ·)) := by
  have hlt : meanLevel ((List.ofFn self.prevStartOutput).filter (0 < ·)) < 2 ^ 16 :=
    Nat.lt_succ_of_le (meanLevel_le fun v _ => Nat.le_of_lt_succ v.toNat_lt)
  rw [getInitialLevel, foldl_sum]
  simp only [Nat.zero_add]
  by_cases hbase : (List.ofFn self.prevStartOutput).filter (0 < ·) = []
  · rw [if_pos hbase, hbase]
    rfl
  · rw [if_neg hbase, if_pos (by rwa [ne_eq, List.length_eq_zero_iff])]
    exact UInt16.toNat_ofNat_of_lt' hlt

/-- The initial level is the one of the levels in the window. -/
theorem toNat_getInitialLevel_window {levels : List UInt16}
    (h : window self.prevStartOutput self.bufWriteIdx =
      (List.replicate START_OUTPUT_ARR_LEN 0 ++ levels).drop levels.length) :
    self.getInitialLevel.toNat = initialLevel levels := by
  have hperm := (window_perm self.prevStartOutput self.bufWriteIdx).filter (0 < ·)
  -- the zeros that were never written over do not count
  rw [h, List.drop_append, List.length_replicate, List.drop_replicate, List.filter_append,
    List.filter_replicate, if_neg (by decide), List.nil_append] at hperm
  rw [toNat_getInitialLevel, initialLevel]
  simp only [meanLevel_perm hperm, ← List.length_eq_zero_iff, hperm.length_eq]

theorem getInitialLevel_le {n : ℕ} (h : ∀ i, (self.prevStartOutput i).toNat ≤ n) :
    self.getInitialLevel.toNat ≤ n := by
  rw [toNat_getInitialLevel]
  split
  · exact Nat.zero_le n
  · refine meanLevel_le fun v hv => ?_
    obtain ⟨i, rfl⟩ := List.mem_ofFn.mp (List.mem_filter.mp hv).1
    exact h i

/-! ### A call -/

@[simp] theorem getInitialLevel_start : self.start.getInitialLevel = self.getInitialLevel := by
  rw [start]
  split <;> rfl

@[simp] theorem start_config : self.start.config = self.config := by
  rw [start]
  split <;> rfl

@[simp] theorem start_prevStartOutput : self.start.prevStartOutput = self.prevStartOutput := by
  rw [start]
  split <;> rfl

@[simp] theorem start_bufWriteIdx : self.start.bufWriteIdx = self.bufWriteIdx := by
  rw [start]
  split <;> rfl

/-- The level emitted, or recorded. -/
theorem output_start :
    self.start.output = if self.output = 0 then self.getInitialLevel else self.output := by
  rw [start]
  split <;> rfl

/-- No level exceeds `output_max`. -/
structure Bounded (controller : Controller F) : Prop where
  output : controller.output ≤ controller.config.outputMax
  levels : ∀ i, controller.prevStartOutput i ≤ controller.config.outputMax

theorem Bounded.initial (h : self.Bounded) : self.getInitialLevel ≤ self.config.outputMax :=
  UInt16.le_iff_toNat_le.mpr
    (getInitialLevel_le fun i => UInt16.le_iff_toNat_le.mp (h.levels i))

theorem Bounded.start (h : self.Bounded) : self.start.output ≤ self.config.outputMax := by
  rw [output_start]
  split
  · exact h.initial
  · exact h.output

theorem bounded_new {config : Config F} : (new config).Bounded :=
  ⟨UInt16.le_iff_toNat_le.mpr (Nat.zero_le _),
    fun _ => UInt16.le_iff_toNat_le.mpr (Nat.zero_le _)⟩

/-- The output behind an emission. -/
def nextOutput (self : Controller F) : UInt16 :=
  if self.config.outputMax < self.start.output + self.config.outputMax / 250 then
    self.getInitialLevel / 2
  else self.start.output + self.config.outputMax / 250

theorem toNat_add_step (h : self.Bounded) (hmax : self.config.outputMax ≤ 65273) :
    self.start.output.toNat + (self.config.outputMax / 250).toNat < 65536 ∧
    (self.start.output + self.config.outputMax / 250).toNat =
      self.start.output.toNat + self.config.outputMax.toNat / 250 := by
  have hstart := UInt16.le_iff_toNat_le.mp h.start
  have hle : self.config.outputMax.toNat ≤ 65273 := UInt16.le_iff_toNat_le.mp hmax
  have hstep : (self.config.outputMax / 250).toNat = self.config.outputMax.toNat / 250 :=
    UInt16.toNat_div _ _
  rw [UInt16.toNat_add, hstep]
  omega

theorem Bounded.nextOutput (h : self.Bounded) : self.nextOutput ≤ self.config.outputMax := by
  rw [Controller.nextOutput]
  split
  · refine UInt16.le_iff_toNat_le.mpr ?_
    rw [UInt16.toNat_div]
    exact (Nat.div_le_self _ _).trans (UInt16.le_iff_toNat_le.mp h.initial)
  · rename_i hle
    exact UInt16.not_lt.mp hle

variable [F32 F] {p : Profile} {measurement : F}

/-- A computation below the handover level. -/
theorem compute_below (h : self.Bounded) (hmax : self.config.outputMax ≤ 65273)
    (hlt : F32.lt measurement F32.CONTROLLER_HANDOVER = true) :
    self.compute p measurement =
      some (.output self.start.output, { self.start with output := self.nextOutput }) := by
  have hadd := p.addU16_of_lt (toNat_add_step h hmax).1
  simp only [compute, hlt, if_true, start_config, hadd, Option.map_some, nextOutput,
    getInitialLevel_start]

/-- A computation at the handover level. -/
theorem compute_handover (hlt : F32.lt measurement F32.CONTROLLER_HANDOVER = false) :
    self.compute p measurement =
      some (.handover (F32.mul self.config.pidFf (F32.ofU16 self.start.output)),
        self.start.record self.start.output) := by
  simp only [compute, hlt, Bool.false_eq_true, if_false, start_config]

/-- What an emission returns and leaves, in either build. -/
theorem level_of_output {v : UInt16} {self' : Controller F}
    (h : self.compute p measurement = some (.output v, self')) :
    v = self.start.output ∧ self' = { self.start with output := self.nextOutput } := by
  cases hlt : F32.lt measurement F32.CONTROLLER_HANDOVER with
  | true =>
    simp only [compute, hlt, if_true, start_config, getInitialLevel_start,
      Option.map_eq_some_iff, Prod.mk.injEq, ComputeResult.output.injEq] at h
    obtain ⟨output, hadd, hv, hself⟩ := h
    rw [p.eq_add_of_addU16 hadd] at hself
    refine ⟨hv.symm, hself.symm.trans ?_⟩
    simp only [nextOutput, start_config]
  | false =>
    rw [compute_handover hlt, Option.some_inj, Prod.mk.injEq] at h
    cases h.1

/-- Every call keeps the bounds, also where the build does not check overflow. -/
theorem Bounded.of_next {self' : Controller F} {c : Call F} (hb : self.Bounded)
    (h : self.next p c = some self') :
    self'.Bounded ∧ self'.config = self.config := by
  have hreset : (0 : UInt16) ≤ self.config.outputMax := UInt16.le_iff_toNat_le.mpr (Nat.zero_le _)
  cases c with
  | reset =>
    obtain rfl := Option.some.inj h
    exact ⟨⟨hreset, hb.levels⟩, rfl⟩
  | compute measurement =>
    rw [next, Option.map_eq_some_iff] at h
    obtain ⟨⟨r, s⟩, hcompute, rfl⟩ := h
    cases r with
    | output v =>
      obtain ⟨-, rfl⟩ := level_of_output hcompute
      refine ⟨⟨?_, ?_⟩, ?_⟩
      · simpa using hb.nextOutput
      · simpa using hb.levels
      · simp
    | handover ff =>
      cases hlt : F32.lt measurement F32.CONTROLLER_HANDOVER with
      | true => simp [compute, hlt] at hcompute
      | false =>
        rw [compute_handover hlt, Option.some_inj, Prod.mk.injEq] at hcompute
        rw [← hcompute.2]
        refine ⟨⟨by simp [record], fun i => ?_⟩, by simp [record]⟩
        simp only [record, start_prevStartOutput, start_config, start_bufWriteIdx]
        by_cases hi : i = self.bufWriteIdx
        · rw [hi, Function.update_self]
          exact hb.start
        · rw [Function.update_of_ne hi]
          exact hb.levels i

/-- No call panics, and none leaves the bounds. -/
theorem next_bounded (h : self.Bounded) (hmax : self.config.outputMax ≤ 65273) (c : Call F) :
    ∃ self', self.next p c = some self' ∧ self'.Bounded ∧ self'.config = self.config := by
  obtain ⟨self', hnext⟩ : ∃ self', self.next p c = some self' := by
    cases c with
    | compute measurement =>
      cases hlt : F32.lt measurement F32.CONTROLLER_HANDOVER with
      | true => exact ⟨_, congrArg (Option.map Prod.snd) (compute_below h hmax hlt)⟩
      | false => exact ⟨_, congrArg (Option.map Prod.snd) (compute_handover hlt)⟩
    | reset => exact ⟨_, rfl⟩
  exact ⟨self', hnext, h.of_next hnext⟩

/-! ### Runs -/

/-- The call returns the output `v`. -/
def Emits (p : Profile) (e : Event (Controller F) (Call F)) (v : UInt16) : Prop :=
  ∃ measurement self', e.label = .compute measurement ∧
    e.pre.compute p measurement = some (.output v, self')

/-- The level the call records, if it hands over. -/
def recordedLevel (e : Event (Controller F) (Call F)) : Option UInt16 :=
  match e.label with
  | .compute measurement =>
    if F32.lt measurement F32.CONTROLLER_HANDOVER then none else some e.pre.start.output
  | .reset => none

variable {self' : Controller F} {c : Call F} {e : Event (Controller F) (Call F)}
  {t : List (Event (Controller F) (Call F))} {config : Config F} {v : UInt16}

theorem window_of_next (h : self.next p c = some self') :
    window self'.prevStartOutput self'.bufWriteIdx =
      match recordedLevel ⟨self, c, self'⟩ with
      | none => window self.prevStartOutput self.bufWriteIdx
      | some level => (window self.prevStartOutput self.bufWriteIdx).tail ++ [level] := by
  cases c with
  | compute measurement =>
    cases hlt : F32.lt measurement F32.CONTROLLER_HANDOVER with
    | true =>
      simp only [next, compute, hlt, if_true, Option.map_map, Option.map_eq_some_iff] at h
      obtain ⟨output, -, rfl⟩ := h
      simp [recordedLevel, hlt]
    | false =>
      rw [next, compute_handover hlt, Option.map_some, Option.some_inj] at h
      rw [← h]
      simp [recordedLevel, hlt, record, window_update]
  | reset =>
    obtain rfl := Option.some.inj h
    rfl

/-- The buffer holds the last levels recorded, behind zeros. -/
theorem window_of_run
    (hrun : Run (fun h c h' => next p h c = some h') (Controller.new config) t self) :
    window self.prevStartOutput self.bufWriteIdx =
      (List.replicate START_OUTPUT_ARR_LEN 0 ++ t.filterMap recordedLevel).drop
        (t.filterMap recordedLevel).length := by
  induction hrun with
  | nil => rfl
  | @snoc t s s' i _ hstep ih =>
    rw [window_of_next hstep, List.filterMap_append]
    cases hlevel : recordedLevel ⟨s, i, s'⟩ with
    | none => simpa [hlevel] using ih
    | some level =>
      rw [List.filterMap_cons_some hlevel, List.filterMap_nil, ih]
      simp only [List.length_append, List.length_singleton, ← List.append_assoc, List.tail_drop]
      refine (List.drop_append_of_le_length ?_).symm
      rw [List.length_append, List.length_replicate, START_OUTPUT_ARR_LEN]
      omega

/-- What an emission leaves behind. -/
theorem of_emits (hstep : e.pre.next p e.label = some e.post) (h : Emits p e v) :
    v = e.pre.start.output ∧ e.post = { e.pre.start with output := e.pre.nextOutput } := by
  obtain ⟨measurement, s', hlabel, hcompute⟩ := h
  rw [hlabel, next, hcompute, Option.map_some, Option.some_inj] at hstep
  exact hstep ▸ level_of_output hcompute

/-- While nothing restarts, every emission takes the output one step up. -/
theorem climb_le {h : Controller F} {n : ℕ}
    (hrun : Run (fun h c h' => next p h c = some h') h t self) (hb : h.Bounded)
    (hn : h.config.outputMax.toNat = n) (hmax : n ≤ 65273)
    (ht : ∀ e ∈ t, ∃ v, Emits p e v ∧ v.toNat + n / 250 ≤ n) :
    self.Bounded ∧ self.config.outputMax.toNat = n ∧
      t.length * (n / 250) ≤ self.output.toNat := by
  induction hrun with
  | nil => exact ⟨hb, hn, by simp⟩
  | @snoc t s s' c _ hstep ih =>
    obtain ⟨hbs, hns, hlength⟩ := ih fun e he => ht e (List.mem_append_left _ he)
    have hmax' : s.config.outputMax ≤ 65273 := UInt16.le_iff_toNat_le.mpr (hns ▸ hmax)
    obtain ⟨hbs', hconfig⟩ := hbs.of_next hstep
    obtain ⟨v, hv, hle⟩ := ht ⟨s, c, s'⟩ (by simp)
    obtain ⟨rfl, hpost⟩ := of_emits (e := ⟨s, c, s'⟩) hstep hv
    refine ⟨hbs', hconfig ▸ hns, ?_⟩
    have hadd := (toNat_add_step hbs hmax').2
    have hstart : s.output.toNat ≤ s.start.output.toNat := by
      rw [output_start]
      split
      · rename_i h0
        rw [h0]
        exact Nat.zero_le _
      · exact Nat.le_refl _
    have houtput : s'.output.toNat = s.start.output.toNat + n / 250 := by
      rw [show s' = _ from hpost]
      show s.nextOutput.toNat = _
      rw [nextOutput, if_neg, hadd, hns]
      rw [UInt16.lt_iff_toNat_lt, hadd, hns]
      exact Nat.not_lt.mpr hle
    rw [houtput, List.length_append, List.length_singleton, Nat.succ_mul]
    omega

/-- The next level of a ramp that emitted `v`, with the maximum `n` and the
initial level `initial`. -/
def following (n initial v : ℕ) : ℕ :=
  if v + n / 250 ≤ n then v + n / 250 else if initial / 2 = 0 then initial else initial / 2

/-- What holds of the calls `t`, which lead to `controller`. -/
structure Laws (p : Profile) (n : ℕ) (t : List (Event (Controller F) (Call F)))
    (controller : Controller F) : Prop where
  emitted : ∀ e ∈ t, ∀ v, Emits p e v → v.toNat ≤ n
  recorded : ∀ v ∈ t.filterMap recordedLevel, v.toNat ≤ n
  initial : controller.getInitialLevel.toNat = initialLevel (t.filterMap recordedLevel)
  /-- two computations in a row, both below the handover level -/
  climb : ∀ t₁ e e' t₂ v v', t = t₁ ++ e :: e' :: t₂ → Emits p e v → Emits p e' v' →
    v'.toNat = following n e'.pre.getInitialLevel.toNat v.toNat
  /-- a stretch of more than 502 of them -/
  restart : ∀ t₁ t₂ t₃, t = t₁ ++ t₂ ++ t₃ → (∀ e ∈ t₂, ∃ v, Emits p e v) → 502 < t₂.length →
    ∃ s₁ e e' s₂ v, t₂ = s₁ ++ e :: e' :: s₂ ∧ Emits p e v ∧ n < v.toNat + n / 250

theorem following_of_emits {v' : UInt16} {e' : Event (Controller F) (Call F)}
    (hstep : e.pre.next p e.label = some e.post) (hpost : e'.pre = e.post)
    (hstep' : e'.pre.next p e'.label = some e'.post) (hb : e.pre.Bounded)
    (hmin : 250 ≤ e.pre.config.outputMax.toNat) (hmax : e.pre.config.outputMax ≤ 65273)
    (hv : Emits p e v) (hv' : Emits p e' v') :
    v'.toNat = following e.pre.config.outputMax.toNat e'.pre.getInitialLevel.toNat v.toNat := by
  obtain ⟨rfl, hnext⟩ := of_emits hstep hv
  obtain ⟨rfl, -⟩ := of_emits hstep' hv'
  have hadd := (toNat_add_step hb hmax).2
  have hinitial : e'.pre.getInitialLevel = e.pre.getInitialLevel := by
    rw [hpost, hnext]
    exact getInitialLevel_start
  have houtput : e'.pre.output = e.pre.nextOutput := by rw [hpost, hnext]
  rw [output_start, houtput, hinitial, nextOutput, following]
  by_cases hle : e.pre.start.output.toNat + e.pre.config.outputMax.toNat / 250 ≤
      e.pre.config.outputMax.toNat
  · have hlt : ¬ e.pre.config.outputMax < e.pre.start.output + e.pre.config.outputMax / 250 := by
      rw [UInt16.lt_iff_toNat_lt, hadd]
      exact Nat.not_lt.mpr hle
    have hne : ¬ e.pre.start.output + e.pre.config.outputMax / 250 = 0 := by
      rw [← UInt16.toNat_inj, hadd]
      show ¬ _ = 0
      omega
    rw [if_neg hlt, if_neg hne, if_pos hle, hadd]
  · have hlt : e.pre.config.outputMax < e.pre.start.output + e.pre.config.outputMax / 250 := by
      rw [UInt16.lt_iff_toNat_lt, hadd]
      exact Nat.not_le.mp hle
    have hhalf : (e.pre.getInitialLevel / 2).toNat = e.pre.getInitialLevel.toNat / 2 :=
      UInt16.toNat_div _ _
    have hzero : e.pre.getInitialLevel / 2 = 0 ↔ e.pre.getInitialLevel.toNat / 2 = 0 := by
      rw [← UInt16.toNat_inj, hhalf]
      rfl
    rw [if_pos hlt, if_neg hle]
    by_cases h0 : e.pre.getInitialLevel / 2 = 0
    · rw [if_pos h0, if_pos (hzero.mp h0)]
    · rw [if_neg h0, if_neg (mt hzero.mpr h0), hhalf]

/-- A stretch of emissions that is long enough contains a restart. -/
theorem restart_of_long {h : Controller F} {n : ℕ}
    (hrun : Run (fun h c h' => next p h c = some h') h t self) (hb : h.Bounded)
    (hn : h.config.outputMax.toNat = n) (hmin : 250 ≤ n) (hmax : n ≤ 65273)
    (ht : ∀ e ∈ t, ∃ v, Emits p e v) (hlong : 502 < t.length) :
    ∃ s₁ e e' s₂ v, t = s₁ ++ e :: e' :: s₂ ∧ Emits p e v ∧ n < v.toNat + n / 250 := by
  rcases List.eq_nil_or_concat t with rfl | ⟨s, last, rfl⟩
  · cases hlong
  rw [List.concat_eq_append] at hrun ht hlong ⊢
  obtain ⟨hs, -, -⟩ := hrun.of_concat
  by_contra hno
  have hclimb : ∀ e ∈ s, ∃ v, Emits p e v ∧ v.toNat + n / 250 ≤ n := by
    intro e he
    obtain ⟨v, hv⟩ := ht e (List.mem_append_left _ he)
    refine ⟨v, hv, Nat.le_of_not_lt fun hlt => hno ?_⟩
    obtain ⟨s₁, s₂, rfl⟩ := List.append_of_mem he
    -- the event after `e` is in the stretch, if only as its last one
    obtain ⟨e', s₃, hrest⟩ := List.exists_cons_of_ne_nil
      (show s₂ ++ [last] ≠ [] from List.append_ne_nil_of_right_ne_nil _ (List.cons_ne_nil _ _))
    exact ⟨s₁, e, e', s₃, v, by rw [List.append_assoc, List.cons_append, hrest], hv, hlt⟩
  obtain ⟨hb', hn', hlength⟩ := climb_le hs hb hn hmax hclimb
  have hle : 502 * (n / 250) ≤ s.length * (n / 250) := by
    refine Nat.mul_le_mul_right _ ?_
    rw [List.length_append, List.length_singleton] at hlong
    omega
  have hout := UInt16.le_iff_toNat_le.mp hb'.output
  rw [hn'] at hout
  omega

/-- No sequence of calls panics. -/
theorem exec_of_bounded (hb : self.Bounded) (hmax : self.config.outputMax ≤ 65273)
    (calls : List (Call F)) : ∃ t self', exec (next p) self calls = some (t, self') := by
  have hstep : ∀ (self : Controller F) (c : Call F),
      self.Bounded ∧ self.config.outputMax ≤ 65273 → True →
      ∃ self', next p self c = some self' ∧ self'.Bounded ∧ self'.config.outputMax ≤ 65273 := by
    intro self c h _
    obtain ⟨self', hnext, hb', hconfig⟩ := next_bounded (p := p) h.1 h.2 c
    exact ⟨self', hnext, hb', hconfig ▸ h.2⟩
  obtain ⟨t, self', hexec, -⟩ := exec_of_invariant hstep calls (fun _ _ => trivial) ⟨hb, hmax⟩
  exact ⟨t, self', hexec⟩

theorem laws_of_run (hmin : 250 ≤ config.outputMax) (hmax : config.outputMax ≤ 65273)
    (hrun : Run (fun h c h' => next p h c = some h') (new config) t self) :
    Laws p config.outputMax.toNat t self := by
  have hmin' : 250 ≤ config.outputMax.toNat := UInt16.le_iff_toNat_le.mp hmin
  have hmax' : config.outputMax.toNat ≤ 65273 := UInt16.le_iff_toNat_le.mp hmax
  have hinv : ∀ {t self}, Run (fun h c h' => next p h c = some h') (new config) t self →
      (self.Bounded ∧ self.config = config) ∧ ∀ e ∈ t,
        (e.pre.Bounded ∧ e.pre.config = config) ∧ (e.post.Bounded ∧ e.post.config = config) := by
    intro t self hrun
    refine hrun.invariant (I := fun c => c.Bounded ∧ c.config = config) ?_ ⟨bounded_new, rfl⟩
    rintro s c s' hstep ⟨hb, hconfig⟩
    obtain ⟨hb', hconfig'⟩ := hb.of_next hstep
    exact ⟨hb', hconfig'.trans hconfig⟩
  have hpre := fun e he => ((hinv hrun).2 e he).1
  have hstart : ∀ e ∈ t, e.pre.start.output.toNat ≤ config.outputMax.toNat := by
    intro e he
    have hle := UInt16.le_iff_toNat_le.mp (hpre e he).1.start
    rwa [(hpre e he).2] at hle
  constructor
  case emitted =>
    intro e he v hv
    rw [(of_emits (hrun.step_of_mem e he) hv).1]
    exact hstart e he
  case recorded =>
    intro v hv
    obtain ⟨e, he, hlevel⟩ := List.mem_filterMap.mp hv
    rw [recordedLevel] at hlevel
    split at hlevel
    · split at hlevel
      · cases hlevel
      · rw [← Option.some.inj hlevel]
        exact hstart e he
    · cases hlevel
  case initial => exact toNat_getInitialLevel_window (window_of_run hrun)
  case climb =>
    rintro t₁ e e' t₂ v v' rfl hv hv'
    obtain ⟨-, hstep, hrest⟩ := hrun.split
    obtain ⟨hpost, hstep', -⟩ := hrest.of_cons
    obtain ⟨hb, hconfig⟩ := hpre e (List.mem_append_right _ List.mem_cons_self)
    have hfollowing := following_of_emits hstep hpost hstep' hb (by rw [hconfig]; exact hmin')
      (by rw [hconfig]; exact hmax) hv hv'
    rwa [hconfig] at hfollowing
  case restart =>
    rintro t₁ t₂ t₃ rfl ht hlong
    obtain ⟨s₂, hrun₂, -⟩ := hrun.of_append
    obtain ⟨s₁, hrun₁, hstretch⟩ := hrun₂.of_append
    obtain ⟨⟨hb, hconfig⟩, -⟩ := hinv hrun₁
    exact restart_of_long hstretch hb (by rw [hconfig]) hmin' hmax' ht hlong

end Controller

/-! ### What `main` passes -/

/-- With a system clock of 125 MHz. -/
theorem mainOutputMax_mem (cv9 : UInt8) :
    3521 ≤ mainOutputMax 125000000 cv9 ∧ mainOutputMax 125000000 cv9 ≤ 12500 := by
  have hcv9 := cv9.toNat_lt
  have hlow : 3521 ≤ 125000000 / (cv9.toNat * 100 + 10000) := by
    rw [Nat.le_div_iff_mul_le (by omega)]
    omega
  have hhigh : 125000000 / (cv9.toNat * 100 + 10000) ≤ 12500 := by
    refine Nat.div_le_of_le_mul ?_
    omega
  have hmain : (mainOutputMax 125000000 cv9).toNat = 125000000 / (cv9.toNat * 100 + 10000) :=
    UInt16.toNat_ofNat_of_lt' (show _ < 2 ^ 16 by omega)
  rw [UInt16.le_iff_toNat_le, UInt16.le_iff_toNat_le, hmain]
  exact ⟨hlow, hhigh⟩

/-- **The startup controller.**  With a maximum from 250 to 65273, as `main`
passes one, every finite sequence of calls goes through in either build, and
follows the laws. -/
theorem startup_laws {F : Type} [F32 F] {config : Config F} (hmin : 250 ≤ config.outputMax)
    (hmax : config.outputMax ≤ 65273) (p : Profile) (calls : List (Call F)) :
    (∀ cv9, 3521 ≤ mainOutputMax 125000000 cv9 ∧ mainOutputMax 125000000 cv9 ≤ 12500) ∧
    ∃ t self, exec (Controller.next p) (Controller.new config) calls = some (t, self) ∧
      Controller.Laws p config.outputMax.toNat t self := by
  have hnew : (Controller.new config).Bounded := Controller.bounded_new
  obtain ⟨t, self, hexec⟩ := Controller.exec_of_bounded (p := p) hnew hmax calls
  exact ⟨mainOutputMax_mem, t, self, hexec,
    Controller.laws_of_run hmin hmax (Run.of_exec _ calls hexec)⟩

/-- Measurements as rational numbers. -/
instance : F32 ℚ where
  lt a b := decide (a < b)
  mul a b := a * b
  ofU16 v := v.toNat
  CONTROLLER_HANDOVER := 15 / 2

/-- A start from nothing, and one from the level recorded then. -/
theorem startup_laws_small :
    ∃ t self, exec (Controller.next .dev) (Controller.new (⟨3521, 1⟩ : Config ℚ))
        [.compute 0, .compute 3, .compute 8, .compute 2, .reset] = some (t, self) ∧
      Controller.Laws .dev 3521 t self :=
  (startup_laws (show 250 ≤ (⟨3521, 1⟩ : Config ℚ).outputMax by decide) (by decide) .dev
    [.compute 0, .compute 3, .compute 8, .compute 2, .reset]).2

end Rp2040.Startup
