/-
The motor outputs while both cores of the C firmware run.

An acknowledgement of core 0 is safe once core 1 is at rest: it has then nothing
to control and drives only the level 0.  A call of the controller is sure to
drive the right output if core 0 changes no target during the call, since core 1
reads the target again each time.

* `AtRest.step`, `Exclusive.step` — what keeps the outputs exclusive;
* `OnCourse.step` — what a call has found and done so far;
* `exists_run_of_packets` — the packets of core 0 within a run of both;
* `motor_outputs_exclusive` — only one of the two outputs is driven;
* `emergency_stop_rests` — when an emergency stop has switched both off;
* `drives_target` — what a call leaves that no target disturbs.
-/
import Rp2040Decoder.MotorCores

namespace Rp2040

open Core0 Transition

namespace Cores

variable {F : Type} [CFloat F] {divZero : UInt16} {self self' : Cores F} {a : Action F}

/-! ### At rest -/

/-- A call that drives no level but 0. -/
def Quiet : Core1Phase → Prop
  | .idle => True
  | .checking _ => True
  | .adjusting level => level = 0
  | .clearing _ level => level = 0
  | .setting _ level => level = 0
  | _ => False

/-- Core 0 has still to write a target. -/
def Targeting : Core0Phase → Prop
  | .target _ => True
  | _ => False

/-- Core 1 has nothing to control, now and until the next target. -/
structure AtRest (cores : Cores F) : Prop where
  endIndex : cores.helper.endIndex = 0
  index : cores.helper.speedTableIndex = 0
  setpoint : cores.helper.setpoint = 0
  quiet : Quiet cores.phase
  core0 : ¬ Targeting cores.core0

/-- The speed helper does not leave the first entry of the table. -/
theorem speedHelper_atRest {table : UInt8 → UInt16} {accelRate decelRate : UInt8}
    {helper : SpeedHelper} (htable : table 0 = 0) (hend : helper.endIndex = 0)
    (hindex : helper.speedTableIndex = 0) (hsetpoint : helper.setpoint = 0) :
    (helper.speedHelper table accelRate decelRate).speedTableIndex = 0 ∧
      (helper.speedHelper table accelRate decelRate).setpoint = 0 := by
  have hadjust : (helper.adjust table 0).setpoint = 0 := by
    rw [SpeedHelper.adjust, htable]
    rfl
  have hup : ¬ (helper.speedTableIndex < helper.endIndex ∧
      helper.speedHelperCounter = accelRate) := by
    rw [hend, hindex]
    exact fun h => UInt8.lt_irrefl 0 h.1
  have hdown : ¬ (helper.endIndex < helper.speedTableIndex ∧
      helper.speedHelperCounter = decelRate) := by
    rw [hend, hindex]
    exact fun h => UInt8.lt_irrefl 0 h.1
  rw [SpeedHelper.speedHelper, if_neg hup, if_neg hdown]
  split
  · exact ⟨rfl, hadjust⟩
  · split
    · rw [hend]
      exact ⟨rfl, hadjust⟩
    · rw [if_neg (fun h => h (hend.trans hindex.symm))]
      exact ⟨hindex, hsetpoint⟩

/-- The targets are those of core 0. -/
theorem speedHelper_targets (table : UInt8 → UInt16) (accelRate decelRate : UInt8)
    (helper : SpeedHelper) :
    (helper.speedHelper table accelRate decelRate).speedStepTarget = helper.speedStepTarget ∧
      (helper.speedHelper table accelRate decelRate).speedStepTargetPrev =
        helper.speedStepTargetPrev := by
  rw [SpeedHelper.speedHelper]
  split_ifs <;> exact ⟨rfl, rfl⟩

theorem AtRest.step (h : self.AtRest) (hs : Step divZero self a self') (ha : ¬ a.Targets)
    (htable : self.speedTable 0 = 0) : self'.AtRest := by
  obtain ⟨hend, hindex, hsetpoint, hquiet, hcore0⟩ := h
  cases hs with
  | speed b _ => exact absurd trivial ha
  | reset _ => exact absurd trivial ha
  | acknowledge _ => exact ⟨hend, hindex, hsetpoint, hquiet, id⟩
  | calibrate _ => exact ⟨hend, hindex, hsetpoint, hquiet, id⟩
  | program _ _ => exact ⟨hend, hindex, hsetpoint, hquiet, hcore0⟩
  | writeTarget b hcore => exact absurd (hcore ▸ trivial) hcore0
  | endFwd _ => exact ⟨hend, hindex, hsetpoint, hquiet, id⟩
  | beginRev _ => exact ⟨hend, hindex, hsetpoint, hquiet, id⟩
  | endRev _ => exact ⟨hend, hindex, hsetpoint, hquiet, id⟩
  | endCalibrate _ => exact ⟨hend, hindex, hsetpoint, hquiet, id⟩
  | helper hphase =>
    obtain ⟨hindex', hsetpoint'⟩ := @speedHelper_atRest _ (self.cvArrayFlash 2)
      (self.cvArrayFlash 3) _ htable hend hindex hsetpoint
    refine ⟨?_, hindex', hsetpoint', hquiet, hcore0⟩
    rw [← hend, SpeedHelper.endIndex, SpeedHelper.endIndex, (speedHelper_targets _ _ _ _).1]
  | controller _ => exact ⟨hend, hindex, hsetpoint, trivial, hcore0⟩
  | idle b _ _ => exact ⟨hend, hindex, hsetpoint, rfl, hcore0⟩
  | control b _ hcontrol => exact absurd (Or.inl hsetpoint) hcontrol
  | measure hphase => exact (hphase ▸ hquiet : Quiet .measuring).elim
  | clearFwd d hphase => exact (hphase ▸ hquiet : Quiet (.clearingFwd d)).elim
  | clearRev d hphase => exact (hphase ▸ hquiet : Quiet (.clearingRev d)).elim
  | adjust level hphase =>
    exact ⟨hend, hindex, hsetpoint, (hphase ▸ hquiet : Quiet (.adjusting level)), hcore0⟩
  | clear d level hphase =>
    exact ⟨hend, hindex, hsetpoint, (hphase ▸ hquiet : Quiet (.clearing d level)), hcore0⟩
  | set d level _ => exact ⟨hend, hindex, hsetpoint, trivial, hcore0⟩
  | sample _ d _ _ hphase _ => exact (hphase ▸ hquiet : Quiet (.sampling d)).elim

/-- The speed table does not change. -/
theorem speedTable_step (hs : Step divZero self a self') (i : UInt8) :
    self'.speedTable i = self.speedTable i := by
  cases hs with
  | sample measurement d level core1 _ hrespond =>
    have htable : core1.speedTable = self.core1.speedTable := by
      rw [← Core1.respond_speedTable divZero (maxLevel self.cvArrayFlash) self.helper.setpoint
        measurement self.core1, hrespond]
    simp only [speedTable, htable]
  | _ => rfl

/-! ### One output at a time -/

/-- Core 0 is at an acknowledgement. -/
def Pulsing : Core0Phase → Prop
  | .pulseFwd => True
  | .pulseGap => True
  | .pulseRev => True
  | _ => False

/-- What the pulses leave off. -/
def PulseLevels (levels : Direction → UInt16) : Core0Phase → Prop
  | .pulseFwd => levels .reverse = 0
  | .pulseGap => ∀ d, levels d = 0
  | .pulseRev => levels .forward = 0
  | _ => True

/-- The outputs are not driven at the same time. -/
structure Exclusive (cores : Cores F) : Prop where
  off : ∃ d, cores.levels d = 0
  pulse : PulseLevels cores.levels cores.core0
  atRest : Pulsing cores.core0 → cores.AtRest
  setting : ∀ d level, ¬ Pulsing cores.core0 → cores.phase = .setting d level →
    cores.levels d.opposite = 0

theorem update_zero {levels : Direction → UInt16} {d' : Direction} (h : levels d' = 0)
    (d : Direction) : Function.update levels d 0 d' = 0 := by
  rw [Function.update_apply]
  split
  · rfl
  · exact h

theorem opposite_ne (d : Direction) : d.opposite ≠ d := by
  cases d <;> exact nofun

/-- An output that is written leaves the other as it is. -/
theorem update_opposite (levels : Direction → UInt16) (d : Direction) (level : UInt16) :
    Function.update levels d level d.opposite = levels d.opposite :=
  Function.update_of_ne (opposite_ne d) _ _

theorem pulseLevels_of_not {core0 : Core0Phase} (h : ¬ Pulsing core0)
    (levels : Direction → UInt16) : PulseLevels levels core0 := by
  cases core0 with
  | pulseFwd => exact absurd trivial h
  | pulseGap => exact absurd trivial h
  | pulseRev => exact absurd trivial h
  | idle => trivial
  | target b => trivial
  | calibrating => trivial

theorem PulseLevels.update_zero {levels : Direction → UInt16} {core0 : Core0Phase}
    (h : PulseLevels levels core0) (d : Direction) :
    PulseLevels (Function.update levels d 0) core0 := by
  cases core0 with
  | pulseFwd => exact Cores.update_zero h d
  | pulseGap => exact fun d' => Cores.update_zero (h d') d
  | pulseRev => exact Cores.update_zero h d
  | idle => trivial
  | target b => trivial
  | calibrating => trivial

omit [CFloat F] in
/-- An output switched off by core 1. -/
theorem Exclusive.clear (h : self.Exclusive) (d : Direction) :
    (∃ d', Function.update self.levels d 0 d' = 0) ∧
      PulseLevels (Function.update self.levels d 0) self.core0 := by
  obtain ⟨d', hd'⟩ := h.off
  exact ⟨⟨d', Cores.update_zero hd' d⟩, h.pulse.update_zero d⟩

theorem Exclusive.step (h : self.Exclusive) (hs : Step divZero self a self')
    (htable : self.speedTable 0 = 0)
    (hacknowledge : a = .acknowledge → self.AtRest ∧ ∀ d, self.levels d = 0) :
    self'.Exclusive := by
  have hrest : Pulsing self.core0 → ¬ a.Targets → self'.AtRest := fun hpulsing ha =>
    (h.atRest hpulsing).step hs ha htable
  have hoff := h.off
  cases hs with
  | speed b hcore =>
    exact ⟨hoff, trivial, nofun, fun d level hp hphase => h.setting d level (hcore ▸ id) hphase⟩
  | reset hcore =>
    exact ⟨hoff, trivial, nofun, fun d level hp hphase => h.setting d level (hcore ▸ id) hphase⟩
  | acknowledge hcore =>
    obtain ⟨hrest', hzero⟩ := hacknowledge rfl
    have hrev := (update_opposite self.levels .forward (maxLevel self.cvArrayFlash)).trans
      (hzero .reverse)
    exact ⟨⟨.reverse, hrev⟩, hrev,
      fun _ => ⟨hrest'.endIndex, hrest'.index, hrest'.setpoint, hrest'.quiet, id⟩,
      fun d level hp => absurd trivial hp⟩
  | calibrate hcore =>
    refine ⟨(h.clear .forward).1, trivial, nofun, fun d level _ hphase => ?_⟩
    exact update_zero (h.setting d level (hcore ▸ id) hphase) .forward
  | program _ hcore => exact ⟨hoff, h.pulse, (fun hp => hrest hp id), h.setting⟩
  | writeTarget b hcore =>
    exact ⟨hoff, trivial, nofun, fun d level _ hphase => h.setting d level (hcore ▸ id) hphase⟩
  | endFwd hcore =>
    have hpulse : self.levels .reverse = 0 := (hcore ▸ h.pulse : PulseLevels _ .pulseFwd)
    refine ⟨(h.clear .forward).1, fun d => ?_, fun _ => hrest (hcore ▸ trivial) id,
      fun d level hp => absurd trivial hp⟩
    cases d with
    | forward => exact Function.update_self Direction.forward 0 self.levels
    | reverse => exact update_zero hpulse .forward
  | beginRev hcore =>
    have hpulse : ∀ d, self.levels d = 0 := (hcore ▸ h.pulse : PulseLevels _ .pulseGap)
    have hfwd := (update_opposite self.levels .reverse (maxLevel self.cvArrayFlash)).trans
      (hpulse .forward)
    exact ⟨⟨.forward, hfwd⟩, hfwd, fun _ => hrest (hcore ▸ trivial) id,
      fun d level hp => absurd trivial hp⟩
  | endRev hcore =>
    have hpulse : self.levels .forward = 0 := (hcore ▸ h.pulse : PulseLevels _ .pulseRev)
    refine ⟨(h.clear .reverse).1, trivial, nofun, fun d level _ _ => ?_⟩
    cases d with
    | forward => exact Function.update_self Direction.reverse 0 self.levels
    | reverse => exact update_zero hpulse .reverse
  | endCalibrate hcore =>
    refine ⟨(h.clear .reverse).1, trivial, nofun, fun d level _ hphase => ?_⟩
    exact update_zero (h.setting d level (hcore ▸ id) hphase) .reverse
  | helper hphase => exact ⟨hoff, h.pulse, fun hp => hrest hp id, h.setting⟩
  | controller hphase => exact ⟨hoff, h.pulse, fun hp => hrest hp id, nofun⟩
  | idle b hphase _ => exact ⟨hoff, h.pulse, fun hp => hrest hp id, nofun⟩
  | control b hphase _ => exact ⟨hoff, h.pulse, fun hp => hrest hp id, nofun⟩
  | measure hphase => exact ⟨hoff, h.pulse, fun hp => hrest hp id, nofun⟩
  | clearFwd d hphase =>
    exact ⟨(h.clear .forward).1, (h.clear .forward).2, fun hp => hrest hp id, nofun⟩
  | clearRev d hphase =>
    exact ⟨(h.clear .reverse).1, (h.clear .reverse).2, fun hp => hrest hp id, nofun⟩
  | adjust level hphase => exact ⟨hoff, h.pulse, fun hp => hrest hp id, nofun⟩
  | clear d level hphase =>
    refine ⟨(h.clear _).1, (h.clear _).2, fun hp => hrest hp id, fun d' level' _ hphase' => ?_⟩
    obtain ⟨rfl, -⟩ := Core1Phase.setting.inj hphase'
    exact Function.update_self _ _ _
  | set d level hphase =>
    by_cases hp : Pulsing self.core0
    · -- at rest the level is 0
      obtain rfl : level = 0 := (hphase ▸ (h.atRest hp).quiet : Quiet (.setting d level))
      exact ⟨(h.clear d).1, (h.clear d).2, fun hp => hrest hp id, nofun⟩
    · refine ⟨⟨d.opposite, ?_⟩, ?_, fun hp' => absurd hp' hp, nofun⟩
      · exact (update_opposite _ _ _).trans (h.setting d level hp hphase)
      · exact pulseLevels_of_not hp _
  | sample measurement d level core1 hphase hrespond =>
    refine ⟨hoff, h.pulse, fun hp => hrest hp id, fun d level' _ hphase' => ?_⟩
    cases level with
    | none => cases hphase'
    | some level => cases hphase'

/-! ### The emergency stop -/

/-- The steps of core 1, and the flash, while core 0 brings no target and gives
no acknowledgement. -/
def Action.OfCore1 : Action F → Prop
  | .program _ => True
  | .helper => True
  | .controller => True
  | .core1 => True
  | .sample _ => True
  | _ => False

/-- Core 0 has brought an emergency stop. -/
def Stopped (self : Cores F) : Prop := self.helper.Emergency ∧ self.core0 = .idle

omit [CFloat F] in
theorem Stopped.endIndex (h : self.Stopped) : self.helper.endIndex = 0 := by
  rcases h.1 with htarget | htarget <;> rw [SpeedHelper.endIndex, htarget] <;> decide

theorem Stopped.step (h : self.Stopped) (hs : Step divZero self a self') (ha : a.OfCore1) :
    self'.Stopped := by
  obtain ⟨hemergency, hcore⟩ := h
  cases hs with
  | helper _ =>
    refine ⟨?_, hcore⟩
    rw [SpeedHelper.Emergency, (speedHelper_targets _ _ _ _).1]
    exact hemergency
  | speed _ _ => exact ha.elim
  | reset _ => exact ha.elim
  | acknowledge _ => exact ha.elim
  | calibrate _ => exact ha.elim
  | writeTarget _ _ => exact ha.elim
  | endFwd _ => exact ha.elim
  | beginRev _ => exact ha.elim
  | endRev _ => exact ha.elim
  | endCalibrate _ => exact ha.elim
  | _ => exact ⟨hemergency, hcore⟩

/-- The speed helper serves the emergency stop. -/
theorem Stopped.atRest (h : self.Stopped) (hs : Step divZero self .helper self')
    (htable : self.speedTable 0 = 0) : self'.AtRest := by
  have hend := h.endIndex
  obtain ⟨hemergency, hcore⟩ := h
  cases hs with
  | helper hphase =>
    have hindex : (self.helper.speedHelper self.speedTable (self.cvArrayFlash 2)
        (self.cvArrayFlash 3)) = self.helper.adjust self.speedTable 0 := if_pos hemergency
    refine ⟨?_, ?_, ?_, hphase ▸ trivial, hcore ▸ id⟩
    · rw [hindex]
      exact hend
    · rw [hindex]
      rfl
    · rw [hindex, SpeedHelper.adjust, htable]
      rfl

omit [CFloat F] in
theorem not_targets {a : Action F} (ha : a.OfCore1) : ¬ a.Targets := by
  cases a <;> first | exact id | exact ha.elim

/-- What a call that began at rest has switched off. -/
def Cleared (levels : Direction → UInt16) : Core1Phase → Prop
  | .idle => ∀ d, levels d = 0
  | .setting d _ => levels d.opposite = 0
  | _ => True

theorem cleared_of_controller (hs : Step divZero self .controller self') :
    Cleared self'.levels self'.phase := by
  cases hs with
  | controller _ => trivial

theorem Cleared.step (h : Cleared self.levels self.phase) (hrest : self.AtRest)
    (hs : Step divZero self a self') (ha : a.OfCore1) : Cleared self'.levels self'.phase := by
  have hquiet := hrest.quiet
  cases hs with
  | program _ _ => exact h
  | helper _ => exact h
  | controller _ => trivial
  | idle _ _ _ => trivial
  | control _ _ _ => trivial
  | measure _ => trivial
  | clearFwd _ _ => trivial
  | clearRev _ _ => trivial
  | adjust _ _ => trivial
  | clear d level _ => exact Function.update_self d.opposite 0 self.levels
  | set d level hphase =>
    rw [hphase] at h hquiet
    have hlevel : level = 0 := hquiet
    intro d'
    by_cases hd : d' = d
    · rw [hd]
      exact (Function.update_self d level self.levels).trans hlevel
    · have hopposite : d' = d.opposite := by
        cases d <;> cases d' <;> first | rfl | exact absurd rfl hd
      rw [hopposite]
      exact (update_opposite self.levels d level).trans h
  | sample _ d _ _ hphase _ => exact (hphase ▸ hquiet : Quiet (.sampling d)).elim
  | _ => exact ha.elim

/-- Nothing is switched on at rest. -/
theorem levels_step (h : ∀ d, self.levels d = 0) (hrest : self.AtRest)
    (hs : Step divZero self a self') (ha : a.OfCore1) (d : Direction) : self'.levels d = 0 := by
  have hquiet := hrest.quiet
  cases hs with
  | clearFwd _ _ => exact update_zero (h d) _
  | clearRev _ _ => exact update_zero (h d) _
  | clear _ _ _ => exact update_zero (h d) _
  | set d' level hphase =>
    obtain rfl : level = 0 := (hphase ▸ hquiet : Quiet (.setting d' level))
    exact update_zero (h d) d'
  | speed _ _ => exact ha.elim
  | reset _ => exact ha.elim
  | acknowledge _ => exact ha.elim
  | calibrate _ => exact ha.elim
  | writeTarget _ _ => exact ha.elim
  | endFwd _ => exact ha.elim
  | beginRev _ => exact ha.elim
  | endRev _ => exact ha.elim
  | endCalibrate _ => exact ha.elim
  | _ => exact h d

/-! ### A call that no target disturbs -/

/-- There is something to control, in a direction that stays. -/
def Controls (self : Cores F) : Prop :=
  ¬ (self.helper.setpoint = 0 ∨ getDirectionOfSpeedStep self.helper.speedStepTarget ≠
    getDirectionOfSpeedStep self.helper.speedStepTargetPrev)

/-- The direction of the target. -/
def direction (self : Cores F) : Direction := directionOfSpeedStep self.helper.speedStepTarget

/-- Only the output of the target's direction is driven, and it is not if there
is nothing to control. -/
structure Drives (cores : Cores F) : Prop where
  opposite : cores.levels cores.direction.opposite = 0
  idle : ¬ cores.Controls → cores.levels cores.direction = 0

/-- What a call has found and done so far. -/
def OnCourse (self : Cores F) : Core1Phase → Prop
  | .idle => True
  | .checking target => target = self.helper.speedStepTarget
  | .measuring => self.Controls
  | .clearingFwd d => self.Controls ∧ d = self.direction
  | .clearingRev d => self.Controls ∧ d = self.direction ∧ self.levels .forward = 0
  | .sampling d => self.Controls ∧ d = self.direction ∧ ∀ d', self.levels d' = 0
  | .adjusting level => ¬ self.Controls → level = 0
  | .clearing d level => (¬ self.Controls → level = 0) ∧ d = self.direction
  | .setting d level =>
    (¬ self.Controls → level = 0) ∧ d = self.direction ∧ self.levels d.opposite = 0

/-- Core 0 writes nothing while core 1 is in a call. -/
def Undisturbed (e : Event (Cores F) (Action F)) : Prop :=
  e.pre.phase ≠ .idle → e.label.OfCore1

/-- A step of a call keeps it on its course, and the last one leaves the outputs
as they should be. -/
theorem OnCourse.step (h : self.OnCourse self.phase) (hs : Step divZero self a self')
    (ha : self.phase ≠ .idle → a.OfCore1) :
    self'.OnCourse self'.phase ∧
      (self.phase ≠ .idle → self'.phase = .idle → self'.Drives) := by
  have hidle (hphase : self.phase = .idle) (hkeep : self'.phase = self.phase) :
      self'.OnCourse self'.phase ∧
        (self.phase ≠ .idle → self'.phase = .idle → self'.Drives) := by
    rw [hkeep, hphase]
    exact ⟨trivial, fun hne => absurd rfl hne⟩
  -- core 0 writes only between the calls
  have hother (hno : ¬ a.OfCore1) (hkeep : self'.phase = self.phase) :
      self'.OnCourse self'.phase ∧
        (self.phase ≠ .idle → self'.phase = .idle → self'.Drives) := by
    by_cases hphase : self.phase = .idle
    · exact hidle hphase hkeep
    · exact absurd (ha hphase) hno
  cases hs with
  | speed _ _ => exact hother id rfl
  | reset _ => exact hother id rfl
  | acknowledge _ => exact hother id rfl
  | calibrate _ => exact hother id rfl
  | writeTarget _ _ => exact hother id rfl
  | endFwd _ => exact hother id rfl
  | beginRev _ => exact hother id rfl
  | endRev _ => exact hother id rfl
  | endCalibrate _ => exact hother id rfl
  | program _ _ => exact ⟨h, fun hne hidle => absurd hidle hne⟩
  | helper hphase => exact hidle hphase rfl
  | controller _ => exact ⟨rfl, nofun⟩
  | idle b _ _ => exact ⟨fun _ => rfl, nofun⟩
  | control b hphase hcontrol =>
    rw [hphase] at h
    obtain rfl : b = self.helper.speedStepTarget := h
    exact ⟨hcontrol, nofun⟩
  | measure hphase =>
    rw [hphase] at h
    exact ⟨⟨h, rfl⟩, nofun⟩
  | clearFwd d hphase =>
    rw [hphase] at h
    exact ⟨⟨h.1, h.2, Function.update_self Direction.forward 0 self.levels⟩, nofun⟩
  | clearRev d hphase =>
    rw [hphase] at h
    obtain ⟨hcontrols, hd, hfwd⟩ := h
    refine ⟨⟨hcontrols, hd, fun d' => ?_⟩, nofun⟩
    cases d' with
    | forward => exact update_zero hfwd .reverse
    | reverse => exact Function.update_self Direction.reverse 0 self.levels
  | adjust level hphase =>
    rw [hphase] at h
    exact ⟨⟨h, rfl⟩, nofun⟩
  | clear d level hphase =>
    rw [hphase] at h
    exact ⟨⟨h.1, h.2, Function.update_self d.opposite 0 self.levels⟩, nofun⟩
  | set d level hphase =>
    rw [hphase] at h
    obtain ⟨hlevel, hd, hopposite⟩ := h
    have hd' : (self.setLevel d level).direction = d := hd.symm
    refine ⟨trivial, fun _ _ => ⟨?_, fun hno => ?_⟩⟩
    · show (self.setLevel d level).levels (self.setLevel d level).direction.opposite = 0
      rw [hd']
      exact (update_opposite self.levels d level).trans hopposite
    · show (self.setLevel d level).levels (self.setLevel d level).direction = 0
      rw [hd']
      exact (Function.update_self d level self.levels).trans (hlevel hno)
  | sample measurement d level core1 hphase hrespond =>
    rw [hphase] at h
    obtain ⟨hcontrols, hd, hzero⟩ := h
    cases level with
    | none => exact ⟨trivial, fun _ _ => ⟨hzero _, fun _ => hzero _⟩⟩
    | some level => exact ⟨fun hno => absurd hcontrols hno, nofun⟩

/-! ### Runs of both cores -/

/-- Runs of the two cores. -/
abbrev CoresRun (divZero : UInt16) :
    Cores F → List (Event (Cores F) (Action F)) → Cores F → Prop :=
  Run fun s a s' => s.next divZero a = some s'

variable {t : List (Event (Cores F) (Action F))} {cvArrayFlash : ℕ → UInt8} {max : UInt16}

/-- The first entry of the table is a stop. -/
theorem speedTable_zero (hrun : CoresRun divZero (boot cvArrayFlash) t self) :
    self.speedTable 0 = 0 := by
  refine (hrun.invariant (I := fun s => s.speedTable 0 = 0) (fun s a s' hnext hs => ?_) rfl).1
  rw [speedTable_step (step_of_next hnext), hs]

theorem leveled_boot (h : maxLevel cvArrayFlash ≤ max) :
    (boot cvArrayFlash : Cores F).Leveled max :=
  ⟨Core1.bounded_init h, UInt16.zero_le, fun _ => UInt16.zero_le, (by decide : 0 < 127)⟩

theorem exclusive_boot : (boot cvArrayFlash : Cores F).Exclusive :=
  ⟨⟨.forward, rfl⟩, trivial, False.elim, nofun⟩

instance (core0 : Core0Phase) : Decidable (Targeting core0) := by
  cases core0 <;> first | exact isTrue trivial | exact isFalse id

instance (phase : Core1Phase) : Decidable (Quiet phase) := by
  cases phase <;> unfold Quiet <;> infer_instance

instance (self : Cores F) : Decidable self.AtRest :=
  decidable_of_iff
    (self.helper.endIndex = 0 ∧ self.helper.speedTableIndex = 0 ∧ self.helper.setpoint = 0 ∧
      Quiet self.phase ∧ ¬ Targeting self.core0)
    ⟨fun ⟨h₁, h₂, h₃, h₄, h₅⟩ => ⟨h₁, h₂, h₃, h₄, h₅⟩,
      fun ⟨h₁, h₂, h₃, h₄, h₅⟩ => ⟨h₁, h₂, h₃, h₄, h₅⟩⟩

instance {p : Direction → Prop} [DecidablePred p] : Decidable (∀ d, p d) :=
  decidable_of_iff (p .forward ∧ p .reverse)
    ⟨fun ⟨h₁, h₂⟩ d => by cases d <;> assumption, fun h => ⟨h _, h _⟩⟩

instance (self : Cores F) : Decidable self.Stopped := inferInstanceAs (Decidable (_ ∧ _))

instance (self : Cores F) : Decidable self.Controls := inferInstanceAs (Decidable (¬ _))

instance (a : Action F) : Decidable (a = .acknowledge) := by
  cases a <;> first | exact isTrue rfl | exact isFalse nofun

instance (a : Action F) : Decidable a.OfCore1 := by
  cases a <;> first | exact isTrue trivial | exact isFalse id

instance (e : Event (Cores F) (Action F)) : Decidable (Undisturbed e) :=
  inferInstanceAs (Decidable (_ → _))

/-- V_min of 8, V_mid and V_max of 100, and 25 kHz. -/
def startCvs (i : ℕ) : UInt8 :=
  if i = 1 then 8 else if i = 4 ∨ i = 5 then 100 else if i = 8 then 150 else 0

/-- A call that measures no movement. -/
def startCall : List (Action ℚ) :=
  [.controller, .core1, .core1, .core1, .core1, .sample 0, .core1, .core1, .core1]

/-- An acknowledgement, speed step 2 forward twice, and two calls. -/
def startActions : List (Action ℚ) :=
  [.acknowledge, .core0, .core0, .core0, .speed 0x83, .core0, .speed 0x83, .core0, .helper] ++
    startCall ++ startCall

theorem exec_startActions : ∃ t s, exec (next 0) (boot startCvs) startActions = some (t, s) ∧
    s.levels .forward = 20 ∧ (∀ e ∈ t, maxLevel e.pre.cvArrayFlash ≤ 5000) ∧
    (∀ e ∈ t, e.label = .acknowledge → e.pre.AtRest ∧ ∀ d, e.pre.levels d = 0) ∧
    ∀ e ∈ t, Undisturbed e :=
  exec_of_decide _ _ _ (fun r => r.2.levels .forward = 20 ∧
    (∀ e ∈ r.1, maxLevel e.pre.cvArrayFlash ≤ 5000) ∧
    (∀ e ∈ r.1, e.label = .acknowledge → e.pre.AtRest ∧ ∀ d, e.pre.levels d = 0) ∧
    ∀ e ∈ r.1, Undisturbed e) (by decide +kernel)

/-- **The motor outputs.**  In every run of the two cores from startup in which
core 0 gives its acknowledgements only while core 1 is at rest and both outputs
are off, one of the outputs is off in every state, no level exceeds what the
values of CV9 allow and what a division by 0 returns for the initial level, and
the speed table is read where it has entries. -/
theorem motor_outputs_exclusive (hf : CFloat.Documented F) (hdiv : divZero ≤ max)
    (hboot : maxLevel cvArrayFlash ≤ max) (hrun : CoresRun divZero (boot cvArrayFlash) t self)
    (hmax : ∀ e ∈ t, maxLevel e.pre.cvArrayFlash ≤ max)
    (hacknowledge : ∀ e ∈ t, e.label = .acknowledge → e.pre.AtRest ∧ ∀ d, e.pre.levels d = 0) :
    (∃ d, self.levels d = 0) ∧ (∀ d, self.levels d ≤ max) ∧
      self.helper.speedTableIndex.toNat < SPEED_TABLE_LEN := by
  have hleveled : self.Leveled max :=
    (hrun.invariant_on (I := Leveled max) (fun e hC hnext hs =>
      hs.step (step_of_next hnext) hf hdiv hC) (leveled_boot hboot) hmax).1
  have hexclusive : self.Exclusive ∧ self.speedTable 0 = 0 := by
    refine (hrun.invariant_on (I := fun s => s.Exclusive ∧ s.speedTable 0 = 0)
      (fun e hC hnext hs => ⟨?_, ?_⟩) ⟨exclusive_boot, rfl⟩ hacknowledge).1
    · exact hs.1.step (step_of_next hnext) hs.2 hC
    · rw [speedTable_step (step_of_next hnext), hs.2]
  exact ⟨hexclusive.1.off, hleveled.levels, hleveled.index⟩

/-- The motor is driven behind an acknowledgement. -/
theorem motor_outputs_exclusive_start : ∃ t s, CoresRun 0 (boot startCvs : Cores ℚ) t s ∧
    s.levels .forward = 20 ∧ (∃ d, s.levels d = 0) ∧ ∀ d, s.levels d ≤ 5000 := by
  obtain ⟨t, s, hexec, hlevel, hmax, hacknowledge, -⟩ := exec_startActions
  have hrun := Run.of_exec (next 0) startActions hexec
  obtain ⟨hoff, hlevels, -⟩ := motor_outputs_exclusive documented_rat (by decide)
    (by decide +kernel) hrun hmax hacknowledge
  exact ⟨t, s, hrun, hlevel, hoff, hlevels⟩

/-- An acknowledgement behind a reset message that core 1 has not served yet
drives both outputs. -/
example : ∃ t s, CoresRun 0 (boot startCvs : Cores ℚ) t s ∧ ∀ d, s.levels d ≠ 0 := by
  obtain ⟨t, s, hexec, hlevels⟩ := exec_of_decide (next 0)
    (boot startCvs : Cores ℚ)
    (startActions ++ [.reset, .core0, .acknowledge, .core0] ++ startCall ++ [.core0])
    (fun r => ∀ d, r.2.levels d ≠ 0) (by decide +kernel)
  exact ⟨t, s, Run.of_exec _ _ hexec, hlevels⟩

/-- **Coming to rest.**  Once core 0 has brought an emergency stop, and until it
brings another target, a call of the speed helper and behind it a call of the
controller switch both outputs off, and they stay off. -/
theorem emergency_stop_rests {t₀ t₁ t₂ t₃ t₄ : List (Event (Cores F) (Action F))}
    {e₁ e₂ e₃ : Event (Cores F) (Action F)}
    (hboot : CoresRun divZero (boot cvArrayFlash) t₀ self)
    (hrun : CoresRun divZero self (t₁ ++ e₁ :: (t₂ ++ e₂ :: (t₃ ++ e₃ :: t₄))) self')
    (hstopped : self.Stopped)
    (hlabels : ∀ e ∈ t₁ ++ e₁ :: (t₂ ++ e₂ :: (t₃ ++ e₃ :: t₄)), e.label.OfCore1)
    (hhelper : e₁.label = .helper) (hcontroller : e₂.label = .controller)
    (hend : e₃.post.phase = .idle) : self'.AtRest ∧ ∀ d, self'.levels d = 0 := by
  have htable := speedTable_zero hboot
  simp only [List.forall_mem_append, List.forall_mem_cons] at hlabels
  obtain ⟨hl₁, he₁, hl₂, he₂, hl₃, he₃, hl₄⟩ := hlabels
  obtain ⟨hrun₁, hstep₁, hrun⟩ := hrun.split
  obtain ⟨hrun₂, hstep₂, hrun⟩ := hrun.split
  obtain ⟨hrun₃, hstep₃, hrun₄⟩ := hrun.split
  -- until the speed helper is called, the emergency stop stands
  have h₁ : e₁.pre.Stopped ∧ e₁.pre.speedTable 0 = 0 := by
    refine (hrun₁.invariant_on (I := fun s => s.Stopped ∧ s.speedTable 0 = 0)
      (fun e hC hnext hs => ⟨?_, ?_⟩) ⟨hstopped, htable⟩ hl₁).1
    · exact hs.1.step (step_of_next hnext) hC
    · rw [speedTable_step (step_of_next hnext), hs.2]
  rw [hhelper] at hstep₁
  -- from then on core 1 is at rest
  let I (s : Cores F) : Prop := s.AtRest ∧ s.speedTable 0 = 0
  have hI : ∀ e : Event (Cores F) (Action F), e.label.OfCore1 →
      e.pre.next divZero e.label = some e.post → I e.pre → I e.post := by
    intro e hC hnext hs
    refine ⟨hs.1.step (step_of_next hnext) (not_targets hC) hs.2, ?_⟩
    rw [speedTable_step (step_of_next hnext), hs.2]
  have h₁' : I e₁.post := by
    refine ⟨h₁.1.atRest (step_of_next hstep₁) h₁.2, ?_⟩
    rw [speedTable_step (step_of_next hstep₁), h₁.2]
  have h₂ : I e₂.pre := (hrun₂.invariant_on hI h₁' hl₂).1
  have h₂' : I e₂.post := hI e₂ he₂ hstep₂ h₂
  -- and the call switches the outputs off
  have hbegin : Cleared e₂.post.levels e₂.post.phase := by
    rw [hcontroller] at hstep₂
    exact cleared_of_controller (step_of_next hstep₂)
  have h₃ : I e₃.pre ∧ Cleared e₃.pre.levels e₃.pre.phase := by
    refine (hrun₃.invariant_on (I := fun s => I s ∧ Cleared s.levels s.phase)
      (fun e hC hnext hs => ?_) ⟨h₂', hbegin⟩ hl₃).1
    exact ⟨hI e hC hnext hs.1, hs.2.step hs.1.1 (step_of_next hnext) hC⟩
  have hoff : Cleared e₃.post.levels e₃.post.phase :=
    h₃.2.step h₃.1.1 (step_of_next hstep₃) he₃
  rw [hend] at hoff
  have h₄ : I self' ∧ ∀ d, self'.levels d = 0 := by
    refine (hrun₄.invariant_on (I := fun s => I s ∧ ∀ d, s.levels d = 0)
      (fun e hC hnext hs => ?_) ⟨hI e₃ he₃ hstep₃ h₃.1, hoff⟩ hl₄).1
    exact ⟨hI e hC hnext hs.1, levels_step hs.2 hs.1.1 (step_of_next hnext) hC⟩
  exact ⟨h₄.1.1, h₄.2⟩

/-- The motor is switched off behind a reset message. -/
theorem emergency_stop_rests_reset : ∃ t₀ s t s', CoresRun 0 (boot startCvs : Cores ℚ) t₀ s ∧
    s.levels .forward = 20 ∧ CoresRun 0 s t s' ∧ s'.AtRest ∧ ∀ d, s'.levels d = 0 := by
  obtain ⟨t₀, s, hexec, hstopped, hlevel, hrest⟩ := exec_of_decide (next 0)
    (boot startCvs : Cores ℚ) (startActions ++ [.reset, .core0])
    (fun r => r.2.Stopped ∧ r.2.levels .forward = 20 ∧
      (exec (next 0) r.2 [.helper, .controller, .core1, .core1, .core1, .core1]).map
        (fun r' => decide (r'.2.phase = .idle)) = some true) (by decide +kernel)
  obtain ⟨t, s', hexec', hphase⟩ := exec_of_decide (next 0) s _
    (fun r => r.2.phase = .idle) hrest
  have hrun := Run.of_exec (next 0) _ hexec'
  obtain ⟨s₁, t₁, h₁, rfl⟩ := exec_cons hexec'
  obtain ⟨s₂, t₂, h₂, rfl⟩ := exec_cons h₁
  obtain ⟨s₃, t₃, h₃, rfl⟩ := exec_cons h₂
  obtain ⟨s₄, t₄, h₄, rfl⟩ := exec_cons h₃
  obtain ⟨s₅, t₅, h₅, rfl⟩ := exec_cons h₄
  obtain ⟨s₆, t₆, h₆, rfl⟩ := exec_cons h₅
  obtain ⟨rfl, rfl⟩ := Prod.mk.inj (Option.some.inj h₆)
  have hsplit : CoresRun 0 s ([] ++ _ :: ([] ++ _ :: ([_, _, _] ++ _ :: []))) s₆ := hrun
  refine ⟨t₀, s, _, s₆, Run.of_exec _ _ hexec, hlevel, hrun,
    emergency_stop_rests (Run.of_exec _ _ hexec) hsplit hstopped ?_ rfl rfl hphase⟩
  intro e he
  simp only [List.nil_append, List.cons_append, List.mem_cons, List.not_mem_nil, or_false] at he
  rcases he with rfl | rfl | rfl | rfl | rfl | rfl <;> exact trivial

/-- **A call of the controller.**  In every run in which core 0 writes nothing
while core 1 is in a call of the controller, every call leaves the output of the
direction opposite to the target off, and leaves both off where the setpoint is
0 or the last two targets differ in direction. -/
theorem drives_target (hrun : CoresRun divZero (boot cvArrayFlash) t self)
    (hundisturbed : ∀ e ∈ t, Undisturbed e) :
    ∀ e ∈ t, e.pre.phase ≠ .idle → e.post.phase = .idle → e.post.Drives := by
  have hcourse := (hrun.invariant_on (I := fun s => s.OnCourse s.phase)
    (fun e hC hnext hs => (hs.step (step_of_next hnext) hC).1) trivial hundisturbed).2
  intro e he
  exact ((hcourse e he).1.step (step_of_next (hrun.step_of_mem e he)) (hundisturbed e he)).2

/-- The calls that start the motor. -/
theorem drives_target_start : ∃ t s, CoresRun 0 (boot startCvs : Cores ℚ) t s ∧
    s.levels .forward = 20 ∧ ∀ e ∈ t, e.pre.phase ≠ .idle → e.post.phase = .idle →
      e.post.Drives := by
  obtain ⟨t, s, hexec, hlevel, -, -, hundisturbed⟩ := exec_startActions
  have hrun := Run.of_exec (next 0) startActions hexec
  exact ⟨t, s, hrun, hlevel, drives_target hrun hundisturbed⟩

/-- A change of direction in the middle of a call drives the motor backward with
what was to drive it forward. -/
example : ∃ t s, CoresRun 0 (boot startCvs : Cores ℚ) t s ∧
    s.phase = .idle ∧ ¬ s.Controls ∧ s.levels .reverse ≠ 0 := by
  obtain ⟨t, s, hexec, hs⟩ := exec_of_decide (next 0)
    (boot startCvs : Cores ℚ)
    (startActions ++ [.controller, .core1, .core1, .core1, .core1, .sample 0, .speed 0x03,
      .core0, .core1, .core1, .core1])
    (fun r => r.2.phase = .idle ∧ ¬ r.2.Controls ∧ r.2.levels .reverse ≠ 0)
    (by decide +kernel)
  exact ⟨t, s, Run.of_exec _ _ hexec, hs⟩

end Cores

end Rp2040
