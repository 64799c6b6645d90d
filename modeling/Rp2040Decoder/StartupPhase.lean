/-
The startup phase of the two firmwares: `controller_startup_mode` of
`Software/core1.c` and `startup::Controller` under the mode of
`motor/src/speed/mod.rs`.

The mean of the levels recorded is taken over the entries before the first 0 in
one, over the entries that are not 0 in the other, and only the latter looks at
the count before it divides.

* `controllerGeneral_fresh` — the first measurement divides by zero;
* `agrees_iff` — the two firmwares agree only on runs without a measurement;
* `StartupRelated.step`, `StartupRelated.observe_eq` — they agree once levels
  were recorded, as long as none is 0.
-/
import Rp2040Decoder.Startup

namespace Rp2040

open Transition RingBuffer Startup

/-- What a call of the controller shows. -/
inductive StartupOutcome (F : Type)
  | driven (level : UInt16)
  | handover (level : UInt16) (ff : F)
  /-- the PID controller was called -/
  | pid
  deriving DecidableEq, Repr

/-! ### The C firmware -/

theorem START_OUTPUT_ARR_LEN_pos : 0 < START_OUTPUT_ARR_LEN := by decide

/-- `controller_mode_t` -/
inductive ControllerMode
  | startup
  | pid
  deriving DecidableEq, Repr

/-- `controller_parameter_t`, as far as the startup phase uses it. -/
structure ControllerParameter (F : Type) where
  mode : ControllerMode
  feedFwd : F
  level : UInt16
  basePwmArr : Fin START_OUTPUT_ARR_LEN → UInt16
  basePwmArrI : Fin START_OUTPUT_ARR_LEN
  kFf : F

namespace ControllerParameter

variable {F : Type}

/-- The loop of `get_initial_level`: the sum and the number of the entries
before the first 0. -/
def sumEntries : List UInt16 → ℕ → ℕ → ℕ × ℕ
  | [], sum, i => (sum, i)
  | v :: arr, sum, i => if 0 < v then sumEntries arr (sum + v.toNat) (i + 1) else (sum, i)

/-- `get_initial_level`; none if it divides by 0. -/
def getInitialLevel (self : ControllerParameter F) : Option UInt16 :=
  let (sum, i) := sumEntries (List.ofFn self.basePwmArr) 0 0
  if i = 0 then none else some (UInt16.ofNat (sum / i * 2 / 3))

/-- The level that `controller_startup_mode` begins with. -/
def startLevel (self : ControllerParameter F) : Option UInt16 :=
  if self.level = 0 then self.getInitialLevel else some self.level

/-- The level behind `level`. -/
def nextLevel (maxLevel level : UInt16) (self : ControllerParameter F) : Option UInt16 :=
  if maxLevel < level + maxLevel / 250 then
    -- try again with half value...
    self.getInitialLevel.map (· / 2)
  else some (level + maxLevel / 250)

variable [F32 F]

/-- `init_controller` -/
def init (kFf : F) : ControllerParameter F :=
  ⟨.startup, F32.ofU16 0, 0, fun _ => 0, ⟨0, START_OUTPUT_ARR_LEN_pos⟩, kFf⟩

/-- `controller_startup_mode`; `maxLevel` is computed from the clock and CV9. -/
def controllerStartupMode (maxLevel : UInt16) (measurementCorrected : F)
    (self : ControllerParameter F) : Option (StartupOutcome F × ControllerParameter F) :=
  self.startLevel.bind fun level =>
    if F32.lt measurementCorrected F32.CONTROLLER_HANDOVER then
      (self.nextLevel maxLevel level).map fun next => (.driven level, { self with level := next })
    else
      let feedFwd := F32.mul self.kFf (F32.ofU16 level)
      some (.handover level feedFwd,
        { self with
          basePwmArr := Function.update self.basePwmArr self.basePwmArrI level
          basePwmArrI := increment self.basePwmArrI
          mode := .pid
          feedFwd
          level })

/-- `controller_general`: `reset` is a setpoint of 0 or a change of direction. -/
def controllerGeneral (maxLevel : UInt16) (self : ControllerParameter F) :
    Call F → Option (StartupOutcome F × ControllerParameter F)
  | .reset => some (.driven 0, { self with mode := .startup, level := 0 })
  | .compute measurementCorrected =>
    match self.mode with
    | .startup => self.controllerStartupMode maxLevel measurementCorrected
    | .pid => some (.pid, self)

end ControllerParameter

/-! ### The Rust firmware -/

/-- The mode of `speed::Controller`. -/
inductive SpeedMode (F : Type)
  | startup
  | pid (ff : F)

/-- `speed::Controller`, as far as the startup phase uses it. -/
structure SpeedController (F : Type) where
  mode : SpeedMode F
  startup : Controller F

namespace SpeedController

variable {F : Type}

def new (config : Config F) : SpeedController F := ⟨.startup, Controller.new config⟩

variable [F32 F]

/-- `compute`: `reset` is a setpoint of 0. -/
def compute (p : Profile) (self : SpeedController F) :
    Call F → Option (StartupOutcome F × SpeedController F)
  | .reset => some (.driven 0, ⟨.startup, self.startup.reset⟩)
  | .compute measurement =>
    match self.mode with
    | .startup =>
      (self.startup.compute p measurement).map fun
        | (.output out, startup) => (.driven out, ⟨.startup, startup⟩)
        | (.handover ff, startup) =>
          (.handover (startup.prevStartOutput self.startup.bufWriteIdx) ff, ⟨.pid ff, startup⟩)
    | .pid _ => some (.pid, self)

end SpeedController

section

variable {F : Type} [F32 F] {p : Profile} {maxLevel : UInt16} {kFf : F} {calls : List (Call F)}

/-! ### From the empty buffer -/

/-- The first measurement divides by zero. -/
theorem controllerGeneral_fresh (measurementCorrected : F) :
    (ControllerParameter.init kFf).controllerGeneral maxLevel (.compute measurementCorrected) =
      none := rfl

theorem controllerGeneral_reset :
    (ControllerParameter.init kFf).controllerGeneral maxLevel .reset =
      some (.driven 0, ControllerParameter.init kFf) := rfl

theorem observe_controllerGeneral_resets (h : ∀ c ∈ calls, c = .reset) :
    observe (ControllerParameter.controllerGeneral maxLevel) (.init kFf) calls =
      some (calls.map fun _ => .driven 0, .init kFf) := by
  induction calls with
  | nil => rfl
  | cons c calls ih =>
    obtain rfl := h c List.mem_cons_self
    rw [observe, controllerGeneral_reset, Option.bind_some,
      ih fun c hc => h c (List.mem_cons_of_mem _ hc)]
    rfl

/-- The C firmware does not get through a run with a measurement. -/
theorem resets_of_observe {r : List (StartupOutcome F) × ControllerParameter F}
    (h : observe (ControllerParameter.controllerGeneral maxLevel) (.init kFf) calls = some r) :
    ∀ c ∈ calls, c = .reset := by
  induction calls generalizing r with
  | nil => simp
  | cons c calls ih =>
    cases c with
    | reset =>
      rw [observe, controllerGeneral_reset, Option.bind_some, Option.map_eq_some_iff] at h
      obtain ⟨r', hrest, -⟩ := h
      intro c hc
      rcases List.mem_cons.mp hc with rfl | hc
      · rfl
      · exact ih hrest c hc
    | compute measurement =>
      rw [observe, controllerGeneral_fresh] at h
      cases h

theorem observe_compute_resets (h : ∀ c ∈ calls, c = .reset) :
    observe (SpeedController.compute p) (.new ⟨maxLevel, kFf⟩) calls =
      some (calls.map fun _ => .driven 0, SpeedController.new ⟨maxLevel, kFf⟩) := by
  induction calls with
  | nil => rfl
  | cons c calls ih =>
    obtain rfl := h c List.mem_cons_self
    have hstep : (SpeedController.new ⟨maxLevel, kFf⟩).compute p .reset =
        some (.driven 0, SpeedController.new ⟨maxLevel, kFf⟩) := rfl
    rw [observe, hstep, Option.bind_some, ih fun c hc => h c (List.mem_cons_of_mem _ hc)]
    rfl

/-- The C firmware gets through the calls without a division by zero, and shows
what the Rust firmware shows. -/
def StartupAgrees (p : Profile) (maxLevel : UInt16) (kFf : F) (calls : List (Call F)) : Prop :=
  ∃ os self self',
    observe (ControllerParameter.controllerGeneral maxLevel) (.init kFf) calls = some (os, self) ∧
    observe (SpeedController.compute p) (.new ⟨maxLevel, kFf⟩) calls = some (os, self')

/-- **The startup phases from the empty buffer.**  The two firmwares agree on a
sequence of measurements and resets exactly when it holds no measurement. -/
theorem agrees_iff : StartupAgrees p maxLevel kFf calls ↔ ∀ c ∈ calls, c = .reset := by
  constructor
  · rintro ⟨os, self, self', hself, -⟩
    exact resets_of_observe hself
  · intro hall
    exact ⟨_, _, _, observe_controllerGeneral_resets hall, observe_compute_resets hall⟩

/-- With the maximum for CV9 = 150, at the first measurement of a motor that
does not move. -/
theorem not_startupAgrees_first :
    ¬ StartupAgrees .release 5000 (1 : ℚ) [.compute 0] := by
  rintro ⟨os, self, self', hself, -⟩
  cases hself

/-! ### From a buffer with levels -/

open ControllerParameter

/-- The entries that are not 0 come first, and the write index is behind them or
among them. -/
structure Filled (arr : Fin START_OUTPUT_ARR_LEN → UInt16) (idx : Fin START_OUTPUT_ARR_LEN) :
    Prop where
  first : arr 0 ≠ 0
  gapless : ∀ i j, i < j → arr j ≠ 0 → arr i ≠ 0
  behind : ∀ i < idx, arr i ≠ 0

theorem Filled.update {arr : Fin START_OUTPUT_ARR_LEN → UInt16} {idx : Fin START_OUTPUT_ARR_LEN}
    {level : UInt16} (h : Filled arr idx) (hlevel : level ≠ 0) :
    Filled (Function.update arr idx level) (increment idx) := by
  have hkeep : ∀ i, arr i ≠ 0 → Function.update arr idx level i ≠ 0 := by
    intro i hi
    rw [Function.update_apply]
    split
    · exact hlevel
    · exact hi
  have hidx : Function.update arr idx level idx ≠ 0 := by
    rwa [Function.update_self]
  refine ⟨hkeep 0 h.first, fun i j hij hj => ?_, fun i hi => ?_⟩
  · by_cases hji : j = idx
    · exact hkeep i (h.behind i (hji ▸ hij))
    · rw [Function.update_of_ne hji] at hj
      exact hkeep i (h.gapless i j hij hj)
  · have hle : i.val < (idx.val + 1) % START_OUTPUT_ARR_LEN := hi
    have hmod := Nat.mod_le (idx.val + 1) START_OUTPUT_ARR_LEN
    rcases Nat.lt_succ_iff_lt_or_eq.mp (hle.trans_le hmod) with hlt | heq
    · exact hkeep i (h.behind i hlt)
    · rwa [Fin.ext heq]

theorem sumEntries_eq (arr : List UInt16) (sum i : ℕ) :
    sumEntries arr sum i =
      (sum + ((arr.takeWhile (0 < ·)).map UInt16.toNat).sum,
        i + (arr.takeWhile (0 < ·)).length) := by
  induction arr generalizing sum i with
  | nil => rfl
  | cons v arr ih =>
    by_cases hv : 0 < v
    · rw [sumEntries, if_pos hv, ih, List.takeWhile_cons_of_pos (by simpa using hv)]
      simp only [List.map_cons, List.sum_cons, List.length_cons, Prod.mk.injEq]
      omega
    · rw [sumEntries, if_neg hv, List.takeWhile_cons_of_neg (by simpa using hv)]
      rfl

/-- Without a gap the entries before the first 0 are the ones that are not 0. -/
theorem takeWhile_eq_filter {arr : List UInt16}
    (h : arr.Pairwise fun v w => w ≠ 0 → v ≠ 0) :
    arr.takeWhile (0 < ·) = arr.filter (0 < ·) := by
  induction h with
  | nil => rfl
  | @cons v arr hv _ ih =>
    by_cases h0 : 0 < v
    · rw [List.takeWhile_cons_of_pos (by simpa using h0), ih,
        List.filter_cons_of_pos (by simpa using h0)]
    · rw [List.takeWhile_cons_of_neg (by simpa using h0),
        List.filter_cons_of_neg (by simpa using h0)]
      refine (List.filter_eq_nil_iff.mpr fun w hw => ?_).symm
      by_contra hw0
      have hne := hv w hw (UInt16.pos_iff_ne_zero.mp (by simpa using hw0))
      exact h0 (UInt16.pos_iff_ne_zero.mpr hne)

omit [F32 F] in
/-- With levels in the buffer the two initial levels agree. -/
theorem getInitialLevel_eq {self : ControllerParameter F} {controller : Controller F}
    (harr : self.basePwmArr = controller.prevStartOutput)
    (h : Filled self.basePwmArr self.basePwmArrI) :
    self.getInitialLevel = some controller.getInitialLevel := by
  have hpairwise : (List.ofFn self.basePwmArr).Pairwise fun v w => w ≠ 0 → v ≠ 0 :=
    List.pairwise_ofFn.mpr fun i j hij => h.gapless i j hij
  have hmem : self.basePwmArr 0 ∈ (List.ofFn self.basePwmArr).filter (0 < ·) :=
    List.mem_filter.mpr ⟨List.mem_ofFn.mpr ⟨0, rfl⟩,
      by simpa using UInt16.pos_iff_ne_zero.mpr h.first⟩
  have hne : ((List.ofFn self.basePwmArr).filter (0 < ·)).length ≠ 0 :=
    Nat.ne_of_gt (List.length_pos_of_mem hmem)
  rw [getInitialLevel, sumEntries_eq, takeWhile_eq_filter hpairwise]
  rw [harr] at hne ⊢
  rw [Controller.getInitialLevel, foldl_sum]
  simp only [Nat.zero_add, if_neg hne, if_pos hne]

theorem controllerGeneral_startup {self : ControllerParameter F} {measurement : F}
    (h : self.mode = .startup) : self.controllerGeneral maxLevel (.compute measurement) =
      self.controllerStartupMode maxLevel measurement := by
  rw [controllerGeneral, h]

/-- The states of the two firmwares agree, and levels were recorded. -/
structure StartupRelated (maxLevel : UInt16) (param : ControllerParameter F)
    (controller : SpeedController F) : Prop where
  bounded : controller.startup.Bounded
  maxLevel : controller.startup.config.outputMax = maxLevel
  kFf : controller.startup.config.pidFf = param.kFf
  arr : param.basePwmArr = controller.startup.prevStartOutput
  idx : param.basePwmArrI = controller.startup.bufWriteIdx
  mode : (param.mode = .startup ∧ controller.mode = .startup ∧
      param.level = controller.startup.output) ∨
    (param.mode = .pid ∧ controller.mode = .pid param.feedFwd)
  filled : Filled param.basePwmArr param.basePwmArrI

namespace StartupRelated

variable {self : ControllerParameter F} {controller : SpeedController F} {measurement : F}

omit [F32 F] in
theorem reset (h : StartupRelated maxLevel self controller) :
    StartupRelated maxLevel { self with mode := .startup, level := 0 }
      ⟨.startup, controller.startup.reset⟩ := by
  have hzero : (0 : UInt16) ≤ controller.startup.config.outputMax :=
    UInt16.le_iff_toNat_le.mpr (Nat.zero_le _)
  exact ⟨⟨hzero, h.bounded.levels⟩, h.maxLevel, h.kFf, h.arr, h.idx, Or.inl ⟨rfl, rfl, rfl⟩,
    h.filled⟩

omit [F32 F] in
/-- The level with which a measurement is answered. -/
theorem startLevel_eq (h : StartupRelated maxLevel self controller)
    (hlevel : self.level = controller.startup.output) :
    self.startLevel = some controller.startup.start.output := by
  rw [startLevel, getInitialLevel_eq h.arr h.filled, Controller.output_start, hlevel]
  split <;> rfl

omit [F32 F] in
theorem nextLevel_eq (h : StartupRelated maxLevel self controller) :
    self.nextLevel maxLevel controller.startup.start.output =
      some controller.startup.nextOutput := by
  rw [nextLevel, getInitialLevel_eq h.arr h.filled, Controller.nextOutput, h.maxLevel]
  split <;> rfl

/-- A measurement without movement. -/
theorem below (h : StartupRelated maxLevel self controller) (hmax : maxLevel ≤ 65273)
    (hmode : controller.mode = .startup) (hlevel : self.level = controller.startup.output)
    (hlt : F32.lt measurement F32.CONTROLLER_HANDOVER = true) :
    self.controllerStartupMode maxLevel measurement =
      some (.driven controller.startup.start.output,
        { self with level := controller.startup.nextOutput }) ∧
    controller.compute p (.compute measurement) =
      some (.driven controller.startup.start.output,
        ⟨.startup, { controller.startup.start with output := controller.startup.nextOutput }⟩) := by
  constructor
  · rw [controllerStartupMode, h.startLevel_eq hlevel, Option.bind_some, if_pos hlt,
      h.nextLevel_eq, Option.map_some]
  · rw [← h.maxLevel] at hmax
    simp only [SpeedController.compute, hmode, Controller.compute_below h.bounded hmax hlt,
      Option.map_some]

/-- A measurement of movement. -/
theorem above (h : StartupRelated maxLevel self controller)
    (hmode : controller.mode = .startup) (hlevel : self.level = controller.startup.output)
    (hlt : F32.lt measurement F32.CONTROLLER_HANDOVER = false) :
    self.controllerStartupMode maxLevel measurement =
      some (.handover controller.startup.start.output
          (F32.mul self.kFf (F32.ofU16 controller.startup.start.output)),
        { self with
          basePwmArr :=
            Function.update self.basePwmArr self.basePwmArrI controller.startup.start.output
          basePwmArrI := increment self.basePwmArrI
          mode := .pid
          feedFwd := F32.mul self.kFf (F32.ofU16 controller.startup.start.output)
          level := controller.startup.start.output }) ∧
    controller.compute p (.compute measurement) =
      some (.handover controller.startup.start.output
          (F32.mul self.kFf (F32.ofU16 controller.startup.start.output)),
        ⟨.pid (F32.mul self.kFf (F32.ofU16 controller.startup.start.output)),
          controller.startup.start.record controller.startup.start.output⟩) := by
  constructor
  · rw [controllerStartupMode, h.startLevel_eq hlevel, Option.bind_some, hlt]
    rfl
  · simp only [SpeedController.compute, hmode, Controller.compute_handover hlt, Option.map_some,
      Controller.record, Controller.start_bufWriteIdx, Function.update_self, h.kFf]

/-- One call shows the same, and only a level of 0 that is recorded ends the
agreement. -/
theorem step (h : StartupRelated maxLevel self controller) (hmax : maxLevel ≤ 65273)
    (p : Profile) (c : Call F) :
    ∃ o self' controller', self.controllerGeneral maxLevel c = some (o, self') ∧
      controller.compute p c = some (o, controller') ∧
      ((∀ ff, o ≠ .handover 0 ff) → StartupRelated maxLevel self' controller') := by
  cases c with
  | reset => exact ⟨_, _, _, rfl, rfl, fun _ => h.reset⟩
  | compute measurement =>
    obtain ⟨hself, hmode, hlevel⟩ | ⟨hself, hmode⟩ := h.mode
    · cases hlt : F32.lt measurement F32.CONTROLLER_HANDOVER with
      | true =>
        obtain ⟨hc, hrust⟩ := h.below (p := p) hmax hmode hlevel hlt
        refine ⟨_, _, _, (controllerGeneral_startup hself).trans hc, hrust, fun _ => ?_⟩
        refine ⟨⟨?_, ?_⟩, ?_, ?_, ?_, ?_, Or.inl ⟨hself, rfl, rfl⟩, h.filled⟩
        · simpa using h.bounded.nextOutput
        · simpa using h.bounded.levels
        · simpa using h.maxLevel
        · simpa using h.kFf
        · simpa using h.arr
        · simpa using h.idx
      | false =>
        obtain ⟨hc, hrust⟩ := h.above (p := p) hmode hlevel hlt
        refine ⟨_, _, _, (controllerGeneral_startup hself).trans hc, hrust, fun hne => ?_⟩
        have hlevel0 : controller.startup.start.output ≠ 0 :=
          fun h0 => hne _ (by rw [h0])
        have hnext : controller.startup.next p (.compute measurement) =
            some (controller.startup.start.record controller.startup.start.output) := by
          rw [Controller.next, Controller.compute_handover hlt, Option.map_some]
        have hb := h.bounded.of_next hnext
        refine ⟨hb.1, ?_, ?_, ?_, ?_, Or.inr ⟨rfl, rfl⟩, h.filled.update hlevel0⟩
        · rw [hb.2, h.maxLevel]
        · rw [hb.2, h.kFf]
        · simp [Controller.record, h.arr, h.idx]
        · simp [Controller.record, h.idx]
    · refine ⟨.pid, self, controller, ?_, ?_, fun _ => h⟩
      · rw [controllerGeneral, hself]
      · simp only [SpeedController.compute, hmode]

/-- From then on the two firmwares show the same, on every run that records no
level of 0. -/
theorem observe_eq (h : StartupRelated maxLevel self controller) (hmax : maxLevel ≤ 65273)
    {os : List (StartupOutcome F)} {controller' : SpeedController F}
    (hobs : observe (SpeedController.compute p) controller calls = some (os, controller'))
    (hos : ∀ o ∈ os, ∀ ff, o ≠ .handover 0 ff) :
    ∃ self', observe (ControllerParameter.controllerGeneral maxLevel) self calls =
      some (os, self') ∧ StartupRelated maxLevel self' controller' :=
  observe_related (fun _ _ c hs => hs.step hmax p c) calls h hobs hos

end StartupRelated

end

/-- A level of 60 was recorded. -/
def recordedParameter : ControllerParameter ℚ :=
  ⟨.startup, 0, 0, fun i => if i.val = 0 then 60 else 0,
    increment ⟨0, START_OUTPUT_ARR_LEN_pos⟩, 1⟩

def recordedController : SpeedController ℚ :=
  ⟨.startup, ⟨5000, 1⟩, fun i => if i.val = 0 then 60 else 0,
    increment ⟨0, START_OUTPUT_ARR_LEN_pos⟩, 0⟩

theorem startupRelated_recorded :
    StartupRelated 5000 recordedParameter recordedController where
  bounded := ⟨by decide, by decide⟩
  maxLevel := rfl
  kFf := rfl
  arr := rfl
  idx := rfl
  mode := Or.inl ⟨rfl, rfl, rfl⟩
  filled := ⟨by decide, by decide, by decide⟩

/-- The motor starts with two thirds of the level, and moves at the next one. -/
theorem observe_eq_recorded : ∃ self',
    observe (ControllerParameter.controllerGeneral 5000) recordedParameter
      [.compute 0, .compute 8, .compute 0] =
        some ([.driven 40, .handover 60 60, .pid], self') := by
  have hshown : (observe (SpeedController.compute .release) recordedController
      [.compute 0, .compute 8, .compute 0]).map Prod.fst =
        some [.driven 40, .handover 60 60, .pid] := by decide +kernel
  obtain ⟨⟨os, controller'⟩, hrust, rfl⟩ := Option.map_eq_some_iff.mp hshown
  obtain ⟨self', hobserve, -⟩ :=
    StartupRelated.observe_eq startupRelated_recorded (by decide) hrust (by simp)
  exact ⟨self', hobserve⟩

end Rp2040
