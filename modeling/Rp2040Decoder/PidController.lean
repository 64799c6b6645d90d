/-
The PID controller (`motor/src/speed/pid.rs`) over the library it wraps.

The library is a parameter: of its setters no more is assumed than which values
they accept.

* `isSome_new_iff` — which configurations can be constructed;
* `neverFails_iff` — a controller fails in no run of calls if the gain of every
  setpoint is accepted.
-/
import Rp2040Decoder.PidGain
import Rp2040Decoder.Runs

namespace Rp2040

open Binary32 Rounding FloatRounding Transition

/-! ### The library -/

/-- The crate `discrete_pid`: the configuration `C` and the controller `P`.  A
setter that returns an error is none; durations are in milliseconds. -/
class DiscretePid (C P : Type) where
  default : C
  setKp : ℚ → C → Option C
  setKi : ℚ → C → Option C
  setKd : ℚ → C → Option C
  setFilterTc : ℚ → C → Option C
  setSampleTime : ℕ → C → Option C
  setOutputLimits : ℚ → ℚ → C → Option C
  setUseDerivativeOnMeasurement : Bool → C → C
  setUseStrictCausalIntegrator : Bool → C → C
  newUninit : C → P
  config : P → C
  /-- what `config_mut` writes -/
  withConfig : C → P → P
  compute : ℚ → ℚ → ℕ → Option ℚ → P → ℚ × P
  resetIntegral : P → P

/-- The values the setters are assumed to accept.  That a gain of 0 is among them
is part of the assumption: version 0.2.0 of the crate turns a proportional gain
of 0 down. -/
structure DiscretePid.Assumed (C P : Type) [DiscretePid C P] : Prop where
  setKp : ∀ k (c : C), (setKp P k c).isSome ↔ IsGain k
  setKi : ∀ k (c : C), (setKi P k c).isSome ↔ IsGain k
  setKd : ∀ k (c : C), (setKd P k c).isSome ↔ IsGain k
  setFilterTc : ∀ k (c : C), (setFilterTc P k c).isSome ↔ 0 < k ∧ k < 2 ^ 128
  setSampleTime : ∀ ms (c : C), (setSampleTime P ms c).isSome ↔ 0 < ms
  setOutputLimits : ∀ lo hi (c : C), (setOutputLimits P lo hi c).isSome ↔ lo < hi

/-! ### The controller -/

namespace Pid

/-- `Duration::as_secs_f32` -/
def asSecsF32 (rnd : FloatRounding) (ms : ℕ) : ℚ :=
  let secs : ℕ := ms / 1000
  let nanos : ℕ := ms % 1000 * 1000000
  rnd.round (rnd.round secs + rnd.round (rnd.round nanos / 1000000000))

/-- `Config`; durations are in milliseconds. -/
structure Config extends GainConfig where
  sampleTime : ℕ
  filterTc : ℕ
  ki : ℚ
  kd : ℚ
  outputMax : UInt16

structure Controller (P : Type) where
  pid : P
  params : Config
  gains : GainSchedule

/-- A call of one of the two methods. -/
inductive Call
  | compute (measurement setpoint : ℚ) (timestampMs : ℕ) (feedforward : ℚ)
  | reset

/-- Setpoints are numbers of the format. -/
def Call.Finite : Call → Prop
  | .compute _ setpoint _ _ => Representable setpoint
  | .reset => True

namespace Controller

/-- `Controller::new`; none if a setter returns an error. -/
def new (C : Type) {P : Type} [DiscretePid C P] (rnd : FloatRounding) (cfg : Config) :
    Option (Controller P) := do
  let libCfg : C := DiscretePid.default P
  let libCfg ← DiscretePid.setKp P 1 libCfg
  let libCfg ← DiscretePid.setKi P cfg.ki libCfg
  let libCfg ← DiscretePid.setKd P cfg.kd libCfg
  let libCfg ← DiscretePid.setFilterTc P (asSecsF32 rnd cfg.filterTc) libCfg
  let libCfg ← DiscretePid.setSampleTime P cfg.sampleTime libCfg
  let libCfg ← DiscretePid.setOutputLimits P 0 cfg.outputMax.toNat libCfg
  let libCfg := DiscretePid.setUseDerivativeOnMeasurement P true libCfg
  let libCfg := DiscretePid.setUseStrictCausalIntegrator P true libCfg
  pure ⟨DiscretePid.newUninit libCfg, cfg, .new rnd cfg.toGainConfig⟩

/-- `compute`; none if `set_kp` returns an error. -/
def compute (C : Type) {P : Type} [DiscretePid C P] (rnd : FloatRounding)
    (measurement setpoint : ℚ) (timestampMs : ℕ) (feedforward : ℚ) (self : Controller P) :
    Option (UInt16 × Controller P) := do
  let setpoint := clamp setpoint 0 self.params.maxSetpoint
  let kp := self.gains.kpForSetpoint rnd setpoint
  let config : C ← DiscretePid.setKp P kp (DiscretePid.config self.pid)
  let (out, pid) := DiscretePid.compute C measurement setpoint timestampMs (some feedforward)
    (DiscretePid.withConfig config self.pid)
  pure (asU16 out, { self with pid })

def reset (C : Type) {P : Type} [DiscretePid C P] (self : Controller P) : Controller P :=
  { self with pid := DiscretePid.resetIntegral C self.pid }

/-- The controller after a call; none if it returns an error. -/
def next (C : Type) {P : Type} [DiscretePid C P] (rnd : FloatRounding) (self : Controller P) :
    Call → Option (Controller P)
  | .compute measurement setpoint timestampMs feedforward =>
    (self.compute C rnd measurement setpoint timestampMs feedforward).map Prod.snd
  | .reset => some (self.reset C)

end Controller

/-! ### Construction -/

theorem isSome_bind_iff {α β : Type} {x : Option α} {f : α → Option β} {p q : Prop}
    (hx : x.isSome ↔ p) (hf : ∀ a, (f a).isSome ↔ q) : (x >>= f).isSome ↔ p ∧ q := by
  cases x with
  | none => exact ⟨fun h => absurd h Bool.false_ne_true, fun h => hx.mpr h.1⟩
  | some a => exact (hf a).trans ⟨fun hq => ⟨hx.mp rfl, hq⟩, And.right⟩

namespace Controller

variable {C P : Type} [DiscretePid C P] {rnd : FloatRounding} {cfg : Config}
  {self : Controller P}

theorem isSome_new_iff (h : DiscretePid.Assumed C P) :
    (new C (P := P) rnd cfg).isSome ↔ IsGain cfg.ki ∧ IsGain cfg.kd ∧
      (0 < asSecsF32 rnd cfg.filterTc ∧ asSecsF32 rnd cfg.filterTc < 2 ^ 128) ∧
      0 < cfg.sampleTime ∧ (0 : ℚ) < cfg.outputMax.toNat := by
  have hlimits : ∀ c : C, (DiscretePid.setOutputLimits P 0 (cfg.outputMax.toNat : ℚ) c >>= fun c =>
      pure (⟨DiscretePid.newUninit (DiscretePid.setUseStrictCausalIntegrator P true
        (DiscretePid.setUseDerivativeOnMeasurement P true c)), cfg, .new rnd cfg.toGainConfig⟩ :
        Controller P)).isSome ↔ (0 : ℚ) < cfg.outputMax.toNat := by
    intro c
    rw [isSome_bind_iff (h.setOutputLimits 0 cfg.outputMax.toNat c) fun _ => iff_true_intro rfl]
    exact and_iff_left trivial
  refine (isSome_bind_iff (h.setKp 1 _) fun c => ?_).trans (and_iff_right isGain_one)
  refine isSome_bind_iff (h.setKi cfg.ki c) fun c => isSome_bind_iff (h.setKd cfg.kd c) fun c => ?_
  exact isSome_bind_iff (h.setFilterTc _ c) fun c =>
    isSome_bind_iff (h.setSampleTime cfg.sampleTime c) hlimits

theorem eq_of_new (h : new C (P := P) rnd cfg = some self) :
    self.params = cfg ∧ self.gains = .new rnd cfg.toGainConfig := by
  simp only [new, Option.bind_eq_bind, Option.bind_eq_some_iff] at h
  obtain ⟨_, _, _, _, _, _, _, _, _, _, _, _, hself⟩ := h
  obtain rfl := Option.some.inj hself
  exact ⟨rfl, rfl⟩

/-! ### Runs -/

theorem isSome_compute_iff (h : DiscretePid.Assumed C P) {measurement setpoint ff : ℚ}
    {timestampMs : ℕ} : (self.compute C rnd measurement setpoint timestampMs ff).isSome ↔
      IsGain (self.gains.kpForSetpoint rnd (clamp setpoint 0 self.params.maxSetpoint)) := by
  refine (isSome_bind_iff (h.setKp _ _) fun _ => iff_true_intro rfl).trans ?_
  exact and_iff_left trivial

theorem params_of_next {call : Call} {self' : Controller P}
    (h : next C rnd self call = some self') :
    self'.params = self.params ∧ self'.gains = self.gains := by
  cases call with
  | reset =>
    obtain rfl := Option.some.inj h
    exact ⟨rfl, rfl⟩
  | compute measurement setpoint timestampMs ff =>
    obtain ⟨r, hr, rfl⟩ := Option.map_eq_some_iff.mp h
    simp only [compute, Option.bind_eq_bind, Option.bind_eq_some_iff] at hr
    obtain ⟨_, _, hr⟩ := hr
    obtain rfl := Option.some.inj hr
    exact ⟨rfl, rfl⟩

/-- No run of calls returns an error. -/
def NeverFails (C : Type) {P : Type} [DiscretePid C P] (rnd : FloatRounding)
    (self : Controller P) : Prop :=
  ∀ calls : List Call, (∀ c ∈ calls, Call.Finite c) → (exec (next C rnd) self calls).isSome

/-- A controller fails on the first setpoint with a gain that is none. -/
theorem neverFails_iff (h : DiscretePid.Assumed C P) : self.NeverFails C rnd ↔
    ∀ sp, Representable sp →
      IsGain (self.gains.kpForSetpoint rnd (clamp sp 0 self.params.maxSetpoint)) := by
  constructor
  · intro hnever sp hsp
    have hexec := hnever [.compute 0 sp 0 0] (List.forall_mem_singleton.mpr hsp)
    have hnext : (next C rnd self (.compute 0 sp 0 0)).isSome :=
      ((isSome_bind_iff Iff.rfl fun _ => iff_true_intro rfl).mp hexec).1
    exact (isSome_compute_iff h).mp (Option.isSome_map.symm.trans hnext)
  · intro hgain calls hcalls
    have hstep : ∀ (s : Controller P) (c : Call),
        s.params = self.params ∧ s.gains = self.gains → c.Finite →
        ∃ s', next C rnd s c = some s' ∧ s'.params = self.params ∧ s'.gains = self.gains := by
      intro s c hs hc
      have hnext : (next C rnd s c).isSome := by
        cases c with
        | reset => rfl
        | compute measurement setpoint timestampMs ff =>
          rw [next, Option.isSome_map, isSome_compute_iff h, hs.1, hs.2]
          exact hgain setpoint hc
      obtain ⟨s', hs'⟩ := Option.isSome_iff_exists.mp hnext
      obtain ⟨hparams, hgains⟩ := params_of_next hs'
      exact ⟨s', hs', hparams.trans hs.1, hgains.trans hs.2⟩
    obtain ⟨t, s', hexec, -⟩ := exec_of_invariant hstep calls hcalls ⟨rfl, rfl⟩
    rw [hexec]
    rfl

end Controller

end Pid

end Rp2040
