/-
The whole speed controller (`motor/src/speed/mod.rs`) in the motor task.

The startup controller and the PID controller bound their outputs in different
ways, the one by starting over, the other by the limits of the library it
wraps.  Both bounds are the top of the PWM, so the driver refuses no output.

* `DriveControl.compute` — a computation in either mode;
* `compute_bounded` — it does not panic, and its output is within the bound;
* `BoundedControl` — a controller that carries its bound, as the motor task
  uses it;
* `drive_applied` — in every run the motor is driven with what was computed.
-/
import Rp2040Decoder.MotorOutputs
import Rp2040Decoder.PidBoot
import Rp2040Decoder.StartupPhase

namespace Rp2040

open Rounding FloatRounding Transition Startup Binary32

/-! ### The controller -/

/-- `f32` with its rounding. -/
@[reducible] def f32 (rnd : FloatRounding) : F32 ℚ where
  lt a b := decide (a < b)
  mul a b := rnd.round (a * b)
  ofU16 v := v.toNat
  CONTROLLER_HANDOVER := 15 / 2

/-- `speed::Controller` with its mode. -/
structure DriveControl (P : Type) where
  mode : SpeedMode ℚ
  control : SpeedControl P

namespace DriveControl

variable {P : Type}

def new (control : SpeedControl P) : DriveControl P := ⟨.startup, control⟩

/-- Eg: when stopping / changing directions. -/
def reset (C : Type) [DiscretePid C P] (self : DriveControl P) : DriveControl P :=
  ⟨.startup, { self.control with
    startup := self.control.startup.reset
    pid := self.control.pid.reset C }⟩

/-- `compute`; an error is one of the PID controller, and none a panic. -/
def compute (C : Type) [DiscretePid C P] (p : Profile) (rnd : FloatRounding) (measurement : ℚ)
    (setpoint : UInt32) (timestampMs : ℕ) (self : DriveControl P) :
    Option (Except Unit (Option UInt16) × DriveControl P) :=
  if setpoint = 0 then some (.ok (some 0), self.reset C)
  else
    let measurement := max (rnd.round (measurement - self.control.adcOffset)) 0
    match self.mode with
    | .startup =>
      (@Controller.compute ℚ (f32 rnd) p measurement self.control.startup).map fun
        | (.output out, startup) => (.ok (some out), ⟨.startup, { self.control with startup }⟩)
        | (.handover ff, startup) => (.ok none, ⟨.pid ff, { self.control with startup }⟩)
    | .pid ff =>
      match self.control.pid.compute C rnd measurement (rnd.round setpoint.toNat) timestampMs ff
      with
      | none => some (.error (), self)
      | some (out, pid) => some (.ok (some out), ⟨.pid ff, { self.control with pid }⟩)

end DriveControl

/-- What the library does with its output limits: they are the ones set last,
and an output is within them. -/
structure DiscretePid.Limited (C P : Type) [DiscretePid C P] (outputLimits : C → ℚ × ℚ) :
    Prop where
  setOutputLimits : ∀ lo hi (c c' : C), DiscretePid.setOutputLimits P lo hi c = some c' →
    outputLimits c' = (lo, hi)
  setKp : ∀ k (c c' : C), DiscretePid.setKp P k c = some c' → outputLimits c' = outputLimits c
  setUseDerivativeOnMeasurement : ∀ b (c : C),
    outputLimits (DiscretePid.setUseDerivativeOnMeasurement P b c) = outputLimits c
  setUseStrictCausalIntegrator : ∀ b (c : C),
    outputLimits (DiscretePid.setUseStrictCausalIntegrator P b c) = outputLimits c
  config_newUninit : ∀ c : C, config (newUninit c : P) = c
  config_withConfig : ∀ (c : C) (pid : P), config (withConfig c pid) = c
  config_compute : ∀ m sp ts ff (pid : P),
    (config (DiscretePid.compute C m sp ts ff pid).2 : C) = config pid
  config_resetIntegral : ∀ pid : P, (config (resetIntegral C pid) : C) = config pid
  compute : ∀ m sp ts ff (pid : P),
    (outputLimits (config pid)).1 ≤ (DiscretePid.compute C m sp ts ff pid).1 ∧
      (DiscretePid.compute C m sp ts ff pid).1 ≤ (outputLimits (config pid)).2

/-! ### The bound -/

namespace DriveControl

variable {C P : Type} [DiscretePid C P] {limits : C → ℚ × ℚ} {outputMax : UInt16}
  {self : DriveControl P} {p : Profile} {rnd : FloatRounding}

/-- Both controllers stay within `outputMax`. -/
structure Bounded (limits : C → ℚ × ℚ) (outputMax : UInt16) (control : DriveControl P) :
    Prop where
  startup : control.control.startup.Bounded
  outputMax_eq : control.control.startup.config.outputMax = outputMax
  limits_eq : limits (DiscretePid.config control.control.pid.pid) = (0, (outputMax.toNat : ℚ))

theorem asU16_le {x : ℚ} {n : UInt16} (h : x ≤ n.toNat) : asU16 x ≤ n := by
  have hn := n.toNat_lt
  have hfloor : ⌊x⌋ ≤ (n.toNat : ℤ) := by
    have hcast := Int.floor_le_floor h
    rwa [Int.floor_natCast] at hcast
  rw [UInt16.le_iff_toNat_le, asU16, UInt16.toNat_ofNat_of_lt' (by show _ < 2 ^ 16; omega)]
  omega

/-- What the PID controller returns is within the limits, which it keeps. -/
theorem pid_bounded (h : DiscretePid.Limited C P limits) {pid pid' : Pid.Controller P}
    (hpid : limits (DiscretePid.config pid.pid) = (0, (outputMax.toNat : ℚ)))
    {m sp ff : ℚ} {ts : ℕ} {out : UInt16} (hc : pid.compute C rnd m sp ts ff = some (out, pid')) :
    out ≤ outputMax ∧ limits (DiscretePid.config pid'.pid) = (0, (outputMax.toNat : ℚ)) := by
  simp only [Pid.Controller.compute, Option.bind_eq_bind, Option.bind_eq_some_iff] at hc
  obtain ⟨config, hkp, hc⟩ := hc
  obtain ⟨rfl, rfl⟩ := Prod.mk.inj (Option.some.inj hc)
  have hlimits : limits config = (0, (outputMax.toNat : ℚ)) := (h.setKp _ _ _ hkp).trans hpid
  have hcompute := h.compute m (clamp sp 0 pid.params.maxSetpoint) ts (some ff)
    (DiscretePid.withConfig config pid.pid)
  rw [h.config_withConfig, hlimits] at hcompute
  refine ⟨asU16_le hcompute.2, ?_⟩
  simp only [h.config_compute, h.config_withConfig]
  exact hlimits

theorem Bounded.reset (h : DiscretePid.Limited C P limits) (hb : self.Bounded limits outputMax) :
    (self.reset C).Bounded limits outputMax := by
  refine ⟨⟨?_, hb.startup.levels⟩, hb.outputMax_eq, ?_⟩
  · exact UInt16.zero_le
  · show limits (DiscretePid.config (DiscretePid.resetIntegral C self.control.pid.pid)) = _
    rw [h.config_resetIntegral]
    exact hb.limits_eq

/-- A computation of the startup controller, with the rounding of `f32`. -/
theorem startup_bounded (p : Profile) (rnd : FloatRounding) {startup : Controller ℚ}
    (hb : startup.Bounded)
    (hmax : startup.config.outputMax ≤ 65273) (m : ℚ) :
    ∃ r startup', @Controller.compute ℚ (f32 rnd) p m startup = some (r, startup') ∧
      startup'.Bounded ∧ startup'.config = startup.config ∧
      ∀ out, r = .output out → out ≤ startup.config.outputMax := by
  let _ := f32 rnd
  obtain ⟨startup', hnext, hb', hconfig⟩ := Controller.next_bounded (p := p) hb hmax (.compute m)
  obtain ⟨⟨r, s⟩, hcompute, rfl⟩ := Option.map_eq_some_iff.mp hnext
  refine ⟨r, s, hcompute, hb', hconfig, ?_⟩
  rintro out rfl
  rw [(Controller.level_of_output hcompute).1]
  exact hb.start

/-- A computation does not panic, keeps the bounds, and its output is within
them. -/
theorem compute_bounded (p : Profile) (rnd : FloatRounding) (h : DiscretePid.Limited C P limits)
    (hb : self.Bounded limits outputMax) (hmax : outputMax ≤ 65273) (m : ℚ) (sp : UInt32)
    (ts : ℕ) :
    ∃ r self', self.compute C p rnd m sp ts = some (r, self') ∧
      self'.Bounded limits outputMax ∧ ∀ out, r = .ok (some out) → out ≤ outputMax := by
  rw [compute]
  by_cases hsp : sp = 0
  · rw [if_pos hsp]
    refine ⟨_, _, rfl, hb.reset h, fun out hout => ?_⟩
    cases hout
    exact UInt16.zero_le
  rw [if_neg hsp]
  simp only
  cases hmode : self.mode with
  | startup =>
    obtain ⟨r, startup', hr, hb', hconfig, hle⟩ :=
      startup_bounded p rnd hb.startup (hb.outputMax_eq ▸ hmax)
        (max (rnd.round (m - self.control.adcOffset)) 0)
    simp only [hr, Option.map_some]
    cases r with
    | output out =>
      refine ⟨_, _, rfl, ⟨hb', (congrArg _ hconfig).trans hb.outputMax_eq, hb.limits_eq⟩, ?_⟩
      rintro _ ⟨⟩
      exact hb.outputMax_eq ▸ hle out rfl
    | handover ff =>
      refine ⟨_, _, rfl, ⟨hb', (congrArg _ hconfig).trans hb.outputMax_eq, hb.limits_eq⟩, ?_⟩
      rintro _ ⟨⟩
  | pid ff =>
    simp only
    cases hpid : self.control.pid.compute C rnd (max (rnd.round (m - self.control.adcOffset)) 0)
      (rnd.round sp.toNat) ts ff with
    | none => exact ⟨_, _, rfl, hb, fun out hout => by cases hout⟩
    | some r =>
      obtain ⟨out, pid⟩ := r
      obtain ⟨hle, hlimits⟩ := pid_bounded h hb.limits_eq hpid
      refine ⟨_, _, rfl, ⟨hb.startup, hb.outputMax_eq, hlimits⟩, ?_⟩
      rintro _ ⟨⟩
      exact hle

/-- The controller that `main` constructs. -/
theorem bounded_new (h : DiscretePid.Limited C P limits) {S : Type} [Store S] [ReadableStore S]
    {s : S} {adcOffset : UInt8} {control : SpeedControl P}
    (hcontrol : mainSpeedControl C p binary32 s adcOffset = some control) :
    (new control).Bounded limits
      (mainOutputMax CLK_SYS_FREQ (ReadableStore.cvs s 9)) := by
  rw [mainSpeedControl_eq] at hcontrol
  obtain ⟨pid, hpid, rfl⟩ := Option.map_eq_some_iff.mp hcontrol
  refine ⟨Controller.bounded_new, rfl, ?_⟩
  simp only [Pid.Controller.new, Option.bind_eq_bind, Option.bind_eq_some_iff] at hpid
  obtain ⟨_, -, _, -, _, -, _, -, _, -, c, hlimits, hpid⟩ := hpid
  obtain rfl := Option.some.inj hpid
  simp only [new, h.config_newUninit, h.setUseStrictCausalIntegrator,
    h.setUseDerivativeOnMeasurement]
  exact h.setOutputLimits _ _ _ _ hlimits

end DriveControl

/-! ### In the motor task -/

/-- A speed controller that carries its bound. -/
structure BoundedControl (C P : Type) [DiscretePid C P] (limits : C → ℚ × ℚ)
    (outputMax : UInt16) where
  control : DriveControl P
  limited : DiscretePid.Limited C P limits
  bounded : control.Bounded limits outputMax
  outputMax_le : outputMax ≤ 65273

namespace BoundedControl

variable {C P : Type} [DiscretePid C P] {limits : C → ℚ × ℚ} {outputMax : UInt16}

def reset (self : BoundedControl C P limits outputMax) : BoundedControl C P limits outputMax :=
  ⟨self.control.reset C, self.limited, self.bounded.reset self.limited, self.outputMax_le⟩

theorem isSome_compute (self : BoundedControl C P limits outputMax) (p : Profile)
    (rnd : FloatRounding) (m : ℚ) (sp : UInt32) (ts : ℕ) :
    (self.control.compute C p rnd m sp ts).isSome := by
  obtain ⟨r, self', hcompute, -⟩ := DriveControl.compute_bounded p rnd
    self.limited self.bounded self.outputMax_le m sp ts
  rw [hcompute]
  rfl

/-- What a computation leaves and returns is within the bound. -/
theorem compute_get_bounded (self : BoundedControl C P limits outputMax) (p : Profile)
    (rnd : FloatRounding) (m : ℚ) (sp : UInt32) (ts : ℕ) :
    (((self.control.compute C p rnd m sp ts).get
        (self.isSome_compute p rnd m sp ts)).2.Bounded limits outputMax) ∧
      ∀ out, ((self.control.compute C p rnd m sp ts).get
        (self.isSome_compute p rnd m sp ts)).1 = .ok (some out) → out ≤ outputMax := by
  obtain ⟨r, self', hcompute, hb, hle⟩ := DriveControl.compute_bounded p rnd
    self.limited self.bounded self.outputMax_le m sp ts
  simp only [hcompute, Option.get_some]
  exact ⟨hb, hle⟩

/-- A computation, which does not panic. -/
def compute (p : Profile) (rnd : FloatRounding) (self : BoundedControl C P limits outputMax)
    (m : ℚ) (sp : UInt32) (ts : ℕ) :
    Except Unit (Option UInt16) × BoundedControl C P limits outputMax :=
  (((self.control.compute C p rnd m sp ts).get (self.isSome_compute p rnd m sp ts)).1,
    ⟨((self.control.compute C p rnd m sp ts).get (self.isSome_compute p rnd m sp ts)).2,
      self.limited, (self.compute_get_bounded p rnd m sp ts).1, self.outputMax_le⟩)

/-- The motor task with the speed controller. -/
def setup (limits : C → ℚ × ℚ) (P : Type) [DiscretePid C P] (outputMax : UInt16) (p : Profile)
    (rnd : FloatRounding) (speedTable : Motor.SpeedTable) :
    Motor.Setup (BoundedControl C P limits outputMax) ℚ :=
  ⟨p, speedTable, ⟨reset, compute p rnd⟩⟩

/-- The controller that `main` starts the motor task with. -/
def ofMain {S : Type} [Store S] [ReadableStore S] {p : Profile} {s : S} {adcOffset : UInt8}
    {control : SpeedControl P} (h : DiscretePid.Limited C P limits)
    (hcontrol : mainSpeedControl C p binary32 s adcOffset = some control) :
    BoundedControl C P limits (mainOutputMax CLK_SYS_FREQ (ReadableStore.cvs s 9)) :=
  ⟨.new control, h, DriveControl.bounded_new h hcontrol,
    UInt16.le_trans (mainOutputMax_mem _).2 (by decide)⟩

end BoundedControl

namespace Motor

variable {κ β : Type} {cfg : Setup κ β}

/-- What the speed controller computes from a measurement, if anything. -/
def ControllerTask.computed (cfg : Setup κ β) (c : ControllerTask κ) (bemf : Except Unit β)
    (nowMs : ℕ) : Option UInt16 :=
  match bemf with
  | .error _ => none
  | .ok bemf =>
    match (cfg.speedControl.compute c.speedControl bemf c.lastOutputLevel.setpoint.toUInt32
      nowMs).1 with
    | .ok output => output
    | .error _ => none

/-- The motor is driven at this level in this direction, and the output against
it is off. -/
def RpMotorController.Drives (level : UInt16) (d : Direction) (m : RpMotorController) : Prop :=
  match d with
  | .forward => m.fwd = level ∧ m.rev = 0
  | .reverse => m.rev = level ∧ m.fwd = 0

theorem drives_setOutput {m : RpMotorController} {level : UInt16} {d : Direction}
    (hle : level ≤ m.pwmMaxOutput) (hd : m.opposite d = 0) :
    (m.setOutput d level).2.Drives level d := by
  rw [RpMotorController.setOutput.eq_def, if_pos hle]
  cases d with
  | forward => exact ⟨rfl, hd⟩
  | reverse => exact ⟨rfl, hd⟩

theorem drives_setOutputLevel {m : RpMotorController} {level : UInt16}
    (hle : level ≤ m.pwmMaxOutput) (d : Direction) :
    (m.setOutputLevel level d).2.Drives level d := by
  cases d with
  | forward =>
    exact drives_setOutput (m := { m with dir := .forward }.stopOutput .reverse) (d := .forward)
      hle rfl
  | reverse =>
    exact drives_setOutput (m := { m with dir := .reverse }.stopOutput .forward) (d := .reverse)
      hle rfl

/-- An output the PWM takes is applied to a motor that coasts. -/
theorem drives_finishOutput {c : ControllerTask κ} {bemf : Except Unit β} {nowMs : ℕ}
    (hs : c.motorController.Stopped)
    (hle : ∀ out, c.computed cfg bemf nowMs = some out → out ≤ c.motorController.pwmMaxOutput) :
    (c.finishOutput cfg bemf nowMs).motorController.Drives
      ((c.computed cfg bemf nowMs).getD 0) c.lastOutputLevel.dir := by
  have hoff : ∀ d, c.motorController.Drives 0 d := by
    intro d
    cases d with
    | forward => exact hs
    | reverse => exact ⟨hs.2, hs.1⟩
  cases bemf with
  | error _ => exact hoff _
  | ok bemf =>
    rcases hout : (cfg.speedControl.compute c.speedControl bemf
      c.lastOutputLevel.setpoint.toUInt32 nowMs).1 with _ | _ | out
    · simp only [ControllerTask.computed, ControllerTask.finishOutput, hout]
      exact hoff _
    · simp only [ControllerTask.computed, ControllerTask.finishOutput, hout]
      exact hoff _
    · simp only [ControllerTask.computed, hout, Option.some.injEq, forall_eq'] at hle
      simp only [ControllerTask.computed, ControllerTask.finishOutput, hout, Option.getD_some]
      exact drives_setOutputLevel hle _

theorem controller_of_sampled {s s' : State κ} {bemf : Except Unit β} {nowMs : ℕ}
    (h : s.Step cfg (.sampled bemf nowMs) s') :
    s.controller.phase = .sampling ∧ s'.controller = s.controller.finishOutput cfg bemf nowMs := by
  cases h with
  | sampled hp => exact ⟨hp, rfl⟩

/-- What the bounded controller computes is within its bound. -/
theorem computed_le {C P : Type} [DiscretePid C P] {limits : C → ℚ × ℚ} {outputMax out : UInt16}
    {p : Profile} {rnd : FloatRounding} {speedTable : SpeedTable}
    {c : ControllerTask (BoundedControl C P limits outputMax)} {bemf : Except Unit ℚ} {nowMs : ℕ}
    (h : c.computed (BoundedControl.setup limits P outputMax p rnd speedTable) bemf nowMs =
      some out) : out ≤ outputMax := by
  cases bemf with
  | error _ => cases h
  | ok bemf =>
    have hle := (c.speedControl.compute_get_bounded p rnd bemf
      c.lastOutputLevel.setpoint.toUInt32 nowMs).2 out
    simp only [ControllerTask.computed] at h
    split at h
    · rename_i output hout
      exact hle (hout.trans (congrArg Except.ok h))
    · cases h

/-- **The motor is driven with what was computed.**  From a boot, in whatever
order the tasks run, every computation goes through without a panic and the PWM
refuses no output: after each one the motor is driven with it in the direction
of the level, and not driven if there is none. -/
theorem drive_applied {C P : Type} [DiscretePid C P] {limits : C → ℚ × ℚ} {S : Type} [Store S]
    [ReadableStore S] {p : Profile} {cvStore : S} {adcOffset : UInt8} {control : SpeedControl P}
    (hlimited : DiscretePid.Limited C P limits)
    (hcontrol : mainSpeedControl C p binary32 cvStore adcOffset = some control)
    {speedTable : SpeedTable} {accelConfig : Accel.Config} {commands : List Command}
    {t : List (Event (State _) (Action ℚ))} {s : State _}
    (hrun : Run (fun s a s' => State.next (BoundedControl.setup limits P
        (mainOutputMax CLK_SYS_FREQ (ReadableStore.cvs cvStore 9)) p binary32 speedTable) s a =
          some s')
      (.init accelConfig (mainOutputMax CLK_SYS_FREQ (ReadableStore.cvs cvStore 9))
        (BoundedControl.ofMain hlimited hcontrol) commands) t s) :
    ∀ e ∈ t, ∀ bemf nowMs, e.label = .sampled bemf nowMs →
      e.post.controller.motorController.Drives
        ((e.pre.controller.computed (BoundedControl.setup limits P _ p binary32 speedTable)
          bemf nowMs).getD 0)
        e.pre.controller.lastOutputLevel.dir := by
  intro e he bemf nowMs hlabel
  obtain ⟨hstep, hsafe, hcoasts⟩ := driverInv_run hrun e he
  rw [hlabel] at hstep
  obtain ⟨hphase, hpost⟩ := controller_of_sampled hstep
  rw [hpost]
  refine drives_finishOutput (hcoasts (Or.inr hphase)) fun out hout => ?_
  rw [hsafe.pwmMaxOutput_eq]
  exact computed_le hout

end Motor

/-! ### Examples -/

/-- Output limits, in order. -/
structure ClampConfig where
  lo : ℚ
  hi : ℚ
  lo_le : lo ≤ hi

namespace ClampConfig

def limits (self : ClampConfig) : ℚ × ℚ := (self.lo, self.hi)

/-- The default limits, as long as the argument of a setter is accepted. -/
def check (p : Prop) [Decidable p] (self : ClampConfig) : Option ClampConfig :=
  if p then some self else none

end ClampConfig

/-- A library whose output is the feedforward, within the limits. -/
instance : DiscretePid ClampConfig ClampConfig where
  default := ⟨0, 0, le_rfl⟩
  setKp k c := c.check (0 ≤ k ∧ k < 2 ^ 128)
  setKi k c := c.check (0 ≤ k ∧ k < 2 ^ 128)
  setKd k c := c.check (0 ≤ k ∧ k < 2 ^ 128)
  setFilterTc k c := c.check (0 < k ∧ k < 2 ^ 128)
  setSampleTime ms c := c.check (0 < ms)
  setOutputLimits lo hi _ := if h : lo < hi then some ⟨lo, hi, h.le⟩ else none
  setUseDerivativeOnMeasurement _ c := c
  setUseStrictCausalIntegrator _ c := c
  newUninit c := c
  config c := c
  withConfig c _ := c
  compute _ _ _ feedforward c := (max c.lo (min (feedforward.getD 0) c.hi), c)
  resetIntegral c := c

theorem isSome_check {p : Prop} [Decidable p] (c : ClampConfig) : (c.check p).isSome ↔ p := by
  rw [ClampConfig.check]
  split_ifs with h
  · exact iff_of_true rfl h
  · exact iff_of_false Bool.false_ne_true h

theorem assumed_clampConfig : DiscretePid.Assumed ClampConfig ClampConfig where
  setKp _ c := isSome_check c
  setKi _ c := isSome_check c
  setKd _ c := isSome_check c
  setFilterTc _ c := isSome_check c
  setSampleTime _ c := isSome_check c
  setOutputLimits lo hi _ := by
    simp only [DiscretePid.setOutputLimits]
    split_ifs with h
    · exact iff_of_true rfl h
    · exact iff_of_false Bool.false_ne_true h

theorem limited_clampConfig : DiscretePid.Limited ClampConfig ClampConfig ClampConfig.limits where
  setOutputLimits lo hi c c' h := by
    simp only [DiscretePid.setOutputLimits] at h
    split_ifs at h
    rw [← Option.some.inj h]
    rfl
  setKp k c c' h := by rw [Option.some.inj (Option.ite_none_right_eq_some.mp h).2]
  setUseDerivativeOnMeasurement _ _ := rfl
  setUseStrictCausalIntegrator _ _ := rfl
  config_newUninit _ := rfl
  config_withConfig _ _ := rfl
  config_compute _ _ _ _ _ := rfl
  config_resetIntegral _ := rfl
  compute _ _ _ ff c := ⟨le_max_left _ _, max_le c.lo_le (min_le_right _ _)⟩

namespace Motor

/-- With the default CVs and a linear speed table: the first measurement after a
velocity. -/
theorem drive_applied_default :
    ∃ (control : SpeedControl ClampConfig) (hcontrol : mainSpeedControl ClampConfig .release
        binary32 (flashOf defaultValue) 0 = some control),
      ∃ t s, Run (fun s a s' => State.next (BoundedControl.setup ClampConfig.limits ClampConfig
          (mainOutputMax CLK_SYS_FREQ (ReadableStore.cvs (flashOf defaultValue) 9)) .release
          binary32 linearSetup.speedTable) s a = some s')
        (.init ⟨0, 0, 7000000⟩
          (mainOutputMax CLK_SYS_FREQ (ReadableStore.cvs (flashOf defaultValue) 9))
          (BoundedControl.ofMain limited_clampConfig hcontrol)
          [.setVelocity128 ⟨.num 5, .forward⟩]) t s ∧
        s.controller.lastOutputLevel = ⟨.forward, 40⟩ ∧ s.controller.motorController.rev = 0 := by
  obtain ⟨control, hcontrol⟩ := Option.isSome_iff_exists.mp
    ((isSome_mainSpeedControl_iff assumed_clampConfig .release (flashOf defaultValue) 0).mpr
      ⟨by decide, by decide⟩)
  refine ⟨control, hcontrol, ?_⟩
  have hrun := ((((((((Run.nil.snoc (i := .submit) rfl).snoc (i := .dispatch) rfl).snoc
    (i := .forward) rfl).snoc (i := .accelReceive) rfl).snoc (i := .takeLevel) rfl).snoc
    (i := .settled) rfl).snoc (i := .coasted) rfl).snoc (i := .sampled (.ok 0) 0) rfl :
    Run (fun s a s' => State.next (BoundedControl.setup ClampConfig.limits ClampConfig
          (mainOutputMax CLK_SYS_FREQ (ReadableStore.cvs (flashOf defaultValue) 9)) .release
          binary32 linearSetup.speedTable) s a = some s')
        (.init ⟨0, 0, 7000000⟩
          (mainOutputMax CLK_SYS_FREQ (ReadableStore.cvs (flashOf defaultValue) 9))
          (BoundedControl.ofMain limited_clampConfig hcontrol)
          [.setVelocity128 ⟨.num 5, .forward⟩]) _ _)
  have hdrives := drive_applied limited_clampConfig hcontrol hrun _ List.mem_concat_self _ _ rfl
  refine ⟨_, _, hrun, ?_, hdrives.2⟩
  exact (ControllerTask.finishOutput_frame _ _ _ _).2.2.trans rfl

end Motor

end Rp2040
