/-
The ramp of the acceleration helper: everything `step` returns on the way to a
target, when it is called over and over.

A ramp has at most two legs.  One in the direction of the motor goes down, to
the target or, before a reversal, to zero; one in the direction of the target
goes up.  A zero rate makes a jump of a leg.

* `Helper.ramp` — the setpoints of both legs with the waits after them;
* `Helper.step_legs` — a call of `step` takes the first step off the legs;
* `returns_eq_ramp` — repeated calls return the ramp, then the target forever.
-/
import Rp2040Decoder.AccelBounds

namespace Rp2040.Accel

/-- `Duration::MAX` in nanoseconds. -/
def MAX_NANOS : ℕ := (2 ^ 64 - 1) * 1000000000 + 999999999

def Duration.toNanos : Duration → ℕ
  | .nanos n => n
  | .max => MAX_NANOS

/-! ### The two legs -/

namespace Config

/-- The index after `i` on the way up to `t`. -/
def above (config : Config) (i t : ℕ) : ℕ := if config.accelRate = 0 then t else i + 1

/-- The index after `i` on the way down to `t`. -/
def below (config : Config) (i t : ℕ) : ℕ := if config.decelRate = 0 then t else i - 1

/-- The indices from `i`, exclusive, up to `t`. -/
def ascent (config : Config) (i t : ℕ) : List ℕ :=
  if i < t then if config.accelRate = 0 then [t] else List.range' (i + 1) (t - i) else []

/-- The indices from `i`, exclusive, down to `t`. -/
def descent (config : Config) (i t : ℕ) : List ℕ :=
  if t < i then if config.decelRate = 0 then [t] else (List.range' t (i - t)).reverse else []

variable {config : Config} {i t : ℕ}

theorem above_le (h : i < t) : config.above i t ≤ t := by
  rw [above]
  split
  · exact Nat.le_refl t
  · exact h

theorem le_below (h : t < i) : t ≤ config.below i t := by
  rw [below]
  split
  · exact Nat.le_refl t
  · exact Nat.le_sub_one_of_lt h

/-- A jump goes to the target, which has to lie below. -/
theorem below_lt (hi : 0 < i) (h : config.decelRate = 0 → t < i) : config.below i t < i := by
  rw [below]
  split
  · rename_i hr
    exact h hr
  · exact Nat.sub_one_lt_of_lt hi

theorem ascent_cons (h : i < t) :
    config.ascent i t = config.above i t :: config.ascent (config.above i t) t := by
  by_cases hr : config.accelRate = 0
  · rw [ascent, if_pos h, if_pos hr, above, if_pos hr, ascent, if_neg (Nat.lt_irrefl t)]
  · rw [ascent, if_pos h, if_neg hr, above, if_neg hr, ascent, if_neg hr,
      show t - i = (t - (i + 1)) + 1 by omega, List.range'_succ]
    split
    · rfl
    · rw [show t - (i + 1) = 0 by omega, List.range'_zero]

theorem descent_cons (h : t < i) :
    config.descent i t = config.below i t :: config.descent (config.below i t) t := by
  by_cases hr : config.decelRate = 0
  · rw [descent, if_pos h, if_pos hr, below, if_pos hr, descent, if_neg (Nat.lt_irrefl t)]
  · rw [descent, if_pos h, if_neg hr, below, if_neg hr, descent, if_neg hr,
      show i - t = (i - 1 - t) + 1 by omega, List.range'_1_concat, List.reverse_concat,
      show t + (i - 1 - t) = i - 1 by omega]
    split
    · rfl
    · rw [show i - 1 - t = 0 by omega, List.range'_zero, List.reverse_nil]

theorem ascent_self : config.ascent t t = [] := if_neg (Nat.lt_irrefl t)

theorem descent_self : config.descent t t = [] := if_neg (Nat.lt_irrefl t)

/-- A step up to index `i`, and the wait after it. -/
def up (config : Config) (d : Direction) (i : ℕ) : VelocitySetpoint × Duration :=
  (⟨.num (.ofNat i), d⟩, .nanos (config.accelRate.toNat * config.loopDelay))

/-- A step down to index `i`, and the wait after it. -/
def down (config : Config) (d : Direction) (i : ℕ) : VelocitySetpoint × Duration :=
  (⟨.num (.ofNat i), d⟩, .nanos (config.decelRate.toNat * config.loopDelay))

variable {d : Direction}

theorem toNat_up (h : i < 256) : (config.up d i).1.speedStep.idx.toNat = i :=
  UInt8.toNat_ofNat_of_lt' h

theorem toNat_down (h : i < 256) : (config.down d i).1.speedStep.idx.toNat = i :=
  UInt8.toNat_ofNat_of_lt' h

theorem direction_up : (config.up d i).1.direction = d := rfl

theorem direction_down : (config.down d i).1.direction = d := rfl

end Config

namespace Helper

/-- All steps from the current setpoint to the target. -/
def legs (h : Helper) : List (VelocitySetpoint × Duration) :=
  let c := h.current.speedStep.idx.toNat
  let t := h.target.speedStep.idx.toNat
  if h.current.direction = h.target.direction then
    if c ≤ t then (h.config.ascent c t).map (h.config.up h.target.direction)
    else (h.config.descent c t).map (h.config.down h.target.direction)
  else
    (if h.config.decelRate = 0 then []
      else (h.config.descent c 0).map (h.config.down h.current.direction)) ++
    (h.config.ascent 0 t).map (h.config.up h.target.direction)

/-- The setpoints to drive on the way to the target; the last one is the
target, and there is nothing to wait for after it. -/
def ramp (h : Helper) : List (VelocitySetpoint × Duration) :=
  h.legs.dropLast ++ [(h.target, .max)]

/-- `step` with the product of a rate and the loop delay checked: a product
that is no `Duration` panics. -/
def stepChecked (p : Profile) (h : Helper) : Option ((VelocitySetpoint × Duration) × Helper) :=
  (h.step p).filter fun r => decide (r.1.2.toNanos ≤ MAX_NANOS)

/-- What the first `n` calls of `step` return. -/
def returns (p : Profile) : ℕ → Helper → Option (List (VelocitySetpoint × Duration))
  | 0, _ => some []
  | n + 1, h => (h.stepChecked p).bind fun r => (returns p n r.2).map (r.1 :: ·)

/-! ### One call -/

variable {p : Profile} {h : Helper}

/-- The legs start with the direction switch that `step` starts with. -/
theorem legs_switchDirection : { h with current := h.switchDirection }.legs = h.legs := by
  rcases h.switchDirection_cases with ⟨hc, -⟩ | ⟨hc, hd, hz⟩
  · rw [hc]
  · rw [hc, legs, legs, if_pos rfl, if_neg hd]
    have hnil : (if h.config.decelRate = 0 then []
        else (h.config.descent h.current.speedStep.idx.toNat 0).map
          (h.config.down h.current.direction)) = [] := by
      split
      · rfl
      · rename_i hdec
        rw [hz.resolve_left hdec]
        exact congrArg (List.map _) Config.descent_self
    rw [hnil, List.nil_append]
    exact if_pos (Nat.zero_le _)

/-- The step made from `v`, and the wait after it. -/
def nextStep (h : Helper) (v : VelocitySetpoint) : VelocitySetpoint × Duration :=
  let t := h.target.speedStep.idx.toNat
  if h.accelerating v then h.config.up v.direction (h.config.above v.speedStep.idx.toNat t)
  else h.config.down v.direction (h.config.below v.speedStep.idx.toNat t)

theorem nextStep_direction (v : VelocitySetpoint) : (h.nextStep v).1.direction = v.direction := by
  rw [nextStep]
  split
  · rfl
  · rfl

theorem nextStep_delay (v : VelocitySetpoint) :
    (h.nextStep v).2 = h.stepDelay (h.accelerating v) := by
  rw [nextStep, stepDelay]
  split
  · rfl
  · rfl

/-- Neither `u8` operation leaves its type: a step down starts above zero. -/
theorem nextSpeedStep_eq {v : VelocitySetpoint} (hstop : h.target.speedStep ≠ .emergencyStop)
    (hpos : h.accelerating v = false → 1 ≤ v.speedStep.idx) :
    h.nextSpeedStep p v = some (h.nextStep v).1.speedStep := by
  rw [nextSpeedStep, if_neg hstop, nextStep]
  cases ha : h.accelerating v with
  | true =>
    have hlt : v.speedStep.idx.toNat < h.target.speedStep.idx.toNat := by
      simp only [accelerating, Bool.and_eq_true, decide_eq_true_eq] at ha
      exact UInt8.lt_iff_toNat_lt.mp ha.1
    have htgt := h.target.speedStep.idx.toNat_lt
    rw [if_pos rfl, if_pos rfl, Config.above]
    by_cases hr : h.config.accelRate = 0
    · rw [if_neg (by simp [hr]), if_pos hr, Config.up, UInt8.ofNat_toNat]
    · rw [if_pos (UInt8.pos_iff_ne_zero.mpr hr), if_neg hr, p.addU8_of_lt (by simp; omega),
        Option.map_some, Config.up, UInt8.ofNat_add, UInt8.ofNat_toNat]
      rfl
  | false =>
    rw [if_neg Bool.false_ne_true, if_neg Bool.false_ne_true, Config.below]
    by_cases hr : h.config.decelRate = 0
    · rw [if_neg (by simp [hr]), if_pos hr, Config.down, UInt8.ofNat_toNat]
    · have h1 := hpos ha
      rw [if_pos (UInt8.pos_iff_ne_zero.mpr hr), if_neg hr, p.subU8_of_le h1,
        Option.map_some, Config.down, ← UInt8.ofNat_toNat (x := v.speedStep.idx - 1),
        UInt8.toNat_sub_of_le _ _ h1]
      rfl

/-- Short of a numbered target, a step that does not go up goes down from the
current setpoint. -/
theorem descending_of_not_accelerating (he : h.current.equivalent h.target = false)
    (ht : 1 ≤ h.target.speedStep.idx) (ha : h.accelerating h.switchDirection = false) :
    h.switchDirection = h.current ∧ 1 ≤ h.current.speedStep.idx ∧
      ((h.current.direction = h.target.direction ∧
          h.target.speedStep.idx < h.current.speedStep.idx) ∨
        (h.current.direction ≠ h.target.direction ∧ h.config.decelRate ≠ 0)) := by
  simp only [UInt8.le_iff_toNat_le, UInt8.lt_iff_toNat_lt, UInt8.reduceToNat] at ht ⊢
  simp only [accelerating, Bool.and_eq_false_iff, decide_eq_false_iff_not,
    UInt8.lt_iff_toNat_lt] at ha
  rcases h.switchDirection_cases with ⟨hc, -⟩ | ⟨hc, -, -⟩
  · rw [hc] at ha
    by_cases hdir : h.current.direction = h.target.direction
    · have hne : h.current.speedStep.idx.toNat ≠ h.target.speedStep.idx.toNat := by
        intro hidx
        rw [VelocitySetpoint.equivalent_iff.mpr ⟨UInt8.toNat_inj.mp hidx, hdir⟩] at he
        cases he
      have hlt := ha.resolve_right fun hn => hn hdir
      exact ⟨hc, by omega, Or.inl ⟨hdir, by omega⟩⟩
    · obtain ⟨hdec, hidx⟩ := (direction_of_switchDirection hc).resolve_left hdir
      rw [Ne, ← UInt8.toNat_inj] at hidx
      simp only [UInt8.reduceToNat] at hidx
      exact ⟨hc, by omega, Or.inr ⟨hdir, hdec⟩⟩
  · rw [hc] at ha
    rcases ha with ha | ha
    · exact absurd ht ha
    · exact absurd rfl ha

/-- The first of the legs is the step that is made. -/
theorem legs_eq_cons (he : h.current.equivalent h.target = false)
    (ht : 1 ≤ h.target.speedStep.idx) :
    h.legs = h.nextStep h.switchDirection ::
      { h with current := (h.nextStep h.switchDirection).1 }.legs := by
  have htgt := h.target.speedStep.idx.toNat_lt
  rw [nextStep]
  cases ha : h.accelerating h.switchDirection with
  | true =>
    rw [← legs_switchDirection, if_pos rfl]
    generalize h.switchDirection = v at ha ⊢
    simp only [accelerating, Bool.and_eq_true, decide_eq_true_eq, UInt8.lt_iff_toNat_lt] at ha
    obtain ⟨hlt, hdir⟩ := ha
    have hle : h.config.above _ _ ≤ _ := Config.above_le hlt
    simp only [legs, Config.toNat_up (Nat.lt_of_le_of_lt hle htgt), Config.direction_up]
    rw [if_pos hdir, if_pos hdir, if_pos (Nat.le_of_lt hlt), if_pos hle, Config.ascent_cons hlt,
      hdir]
    rfl
  | false =>
    obtain ⟨hc, hpos, hcase⟩ := descending_of_not_accelerating he ht ha
    have hcur := h.current.speedStep.idx.toNat_lt
    rw [hc, if_neg Bool.false_ne_true]
    simp only [UInt8.le_iff_toNat_le, UInt8.lt_iff_toNat_lt, UInt8.reduceToNat] at hpos hcase
    have hlt : h.config.below _ h.target.speedStep.idx.toNat < _ := Config.below_lt hpos fun hr =>
      hcase.elim And.right fun hn => absurd hr hn.2
    simp only [legs, Config.toNat_down (Nat.lt_trans hlt hcur), Config.direction_down]
    rcases hcase with ⟨hdir, htc⟩ | ⟨hdir, hdec⟩
    · rw [if_pos hdir, if_pos hdir, if_neg (by omega), Config.descent_cons htc, hdir]
      split
      · rename_i hle
        rw [Nat.le_antisymm hle (Config.le_below htc), Config.ascent_self, Config.descent_self]
        rfl
      · rfl
    · have hbelow : h.config.below h.current.speedStep.idx.toNat h.target.speedStep.idx.toNat =
          h.config.below h.current.speedStep.idx.toNat 0 := by
        rw [Config.below, if_neg hdec, Config.below, if_neg hdec]
      rw [if_neg hdir, if_neg hdir, if_neg hdec, if_neg hdec, Config.descent_cons hpos, hbelow]
      rfl

/-- At the target there is nothing left to do. -/
theorem legs_eq_nil (he : h.current.equivalent h.target = true) : h.legs = [] := by
  obtain ⟨hidx, hdir⟩ := VelocitySetpoint.equivalent_iff.mp he
  rw [legs, if_pos hdir, hidx, if_pos (Nat.le_refl _), Config.ascent_self]
  rfl

/-- Short of the target `step` makes the first step of the legs. -/
theorem step_legs (he : h.current.equivalent h.target = false)
    (ht : 1 ≤ h.target.speedStep.idx) :
    h.step p = some
      (if (h.nextStep h.switchDirection).1.equivalent h.target then (h.target, .max)
        else h.nextStep h.switchDirection,
        { h with current := (h.nextStep h.switchDirection).1 }) := by
  have hstop : h.target.speedStep ≠ .emergencyStop := by
    intro hs
    rw [hs, SpeedStep.idx_emergencyStop] at ht
    exact absurd ht (by decide)
  have hn := nextSpeedStep_eq (p := p) hstop fun ha => by
    obtain ⟨hc, hpos, -⟩ := descending_of_not_accelerating he ht ha
    rw [hc]
    exact hpos
  have hv : (⟨(h.nextStep h.switchDirection).1.speedStep, h.switchDirection.direction⟩ :
      VelocitySetpoint) = (h.nextStep h.switchDirection).1 := by
    rw [← nextStep_direction (h := h)]
  rw [step_of_next he hn, hv, ← nextStep_delay]

end Helper

/-! ### The whole ramp -/

/-- The waits of the configuration are durations shorter than the longest. -/
structure Config.FiniteWaits (config : Config) : Prop where
  accel : config.accelRate.toNat * config.loopDelay < MAX_NANOS
  decel : config.decelRate.toNat * config.loopDelay < MAX_NANOS

namespace Helper

variable {p : Profile} {h : Helper}

theorem nextStep_lt (hc : h.config.FiniteWaits) (v : VelocitySetpoint) :
    (h.nextStep v).2.toNanos < MAX_NANOS := by
  rw [nextStep]
  split
  · exact hc.accel
  · exact hc.decel

theorem lt_of_mem_legs (hc : h.config.FiniteWaits) {r : VelocitySetpoint × Duration}
    (hr : r ∈ h.legs) : r.2.toNanos < MAX_NANOS := by
  have hup : ∀ d l, r ∈ List.map (h.config.up d) l → r.2.toNanos < MAX_NANOS := by
    intro d l hm
    obtain ⟨i, -, rfl⟩ := List.mem_map.mp hm
    exact hc.accel
  have hdown : ∀ d l, r ∈ List.map (h.config.down d) l → r.2.toNanos < MAX_NANOS := by
    intro d l hm
    obtain ⟨i, -, rfl⟩ := List.mem_map.mp hm
    exact hc.decel
  rw [legs] at hr
  split at hr
  · split at hr
    · exact hup _ _ hr
    · exact hdown _ _ hr
  · rcases List.mem_append.mp hr with hr | hr
    · split at hr
      · cases hr
      · exact hdown _ _ hr
    · exact hup _ _ hr

theorem stepChecked_eq {r : VelocitySetpoint × Duration} {h' : Helper}
    (hs : h.step p = some (r, h')) (hr : r.2.toNanos ≤ MAX_NANOS) :
    h.stepChecked p = some (r, h') := by
  rw [stepChecked, hs, Option.filter_some, if_pos (decide_eq_true hr)]

/-- The first return of a ramp, and the ramp after it. -/
theorem ramp_cases (hc : h.config.FiniteWaits) (ht : 1 ≤ h.target.speedStep.idx) :
    (h.ramp = [(h.target, .max)] ∧ ∃ c, h.stepChecked p = some ((h.target, .max),
        { h with current := c }) ∧ { h with current := c }.ramp = h.ramp) ∨
    (∃ r c, r.2.toNanos < MAX_NANOS ∧ h.stepChecked p = some (r, { h with current := c }) ∧
      h.ramp = r :: { h with current := c }.ramp) := by
  cases he : h.current.equivalent h.target with
  | true =>
    have hramp : h.ramp = [(h.target, .max)] := by
      rw [ramp, legs_eq_nil he]
      rfl
    have hs : h.step p = some ((h.target, .max), h) := by rw [step, if_pos he]
    exact Or.inl ⟨hramp, h.current, stepChecked_eq hs (Nat.le_refl _), rfl⟩
  | false =>
    have hs := step_legs (p := p) he ht
    have hlegs := legs_eq_cons he ht
    have hlt := nextStep_lt hc h.switchDirection
    generalize h.nextStep h.switchDirection = r at hs hlegs hlt
    cases he' : r.1.equivalent h.target with
    | true =>
      have hnil : { h with current := r.1 }.legs = [] := legs_eq_nil he'
      rw [he', if_pos rfl] at hs
      have hramp : h.ramp = [(h.target, .max)] := by
        rw [ramp, hlegs, hnil]
        rfl
      refine Or.inl ⟨hramp, r.1, stepChecked_eq hs (Nat.le_refl _), ?_⟩
      rw [hramp, ramp, hnil]
      rfl
    | false =>
      rw [he', if_neg Bool.false_ne_true] at hs
      refine Or.inr ⟨r, r.1, hlt, stepChecked_eq hs (Nat.le_of_lt hlt), ?_⟩
      -- there are further steps, so the first one is not the last
      have hcons : { h with current := r.1 }.legs = _ := legs_eq_cons he' ht
      rw [ramp, hlegs, hcons, List.dropLast_cons_cons, List.cons_append, ← hcons]
      rfl

theorem take_append_replicate {α : Type} (l : List α) (x : α) (n : ℕ) :
    (l ++ List.replicate (n + 1) x).take n = (l ++ List.replicate n x).take n := by
  rw [List.replicate_succ', ← List.append_assoc]
  exact List.take_append_of_le_length (by simp)

/-- **The ramp.**  With waits shorter than `Duration::MAX`, repeated calls of
`step` towards a numbered target return the ramp and then the target, with
`Duration::MAX`, forever; in the ramp only the last return carries
`Duration::MAX`. -/
theorem returns_eq_ramp {t : UInt8} (htarget : h.target.speedStep = .num t) (ht : 1 ≤ t)
    (hc : h.config.FiniteWaits) :
    (∀ n, h.returns p n =
      some ((h.ramp ++ List.replicate n (h.target, Duration.max)).take n)) ∧
    ∀ r ∈ h.ramp.dropLast, r.2.toNanos < Duration.max.toNanos := by
  have hidx : 1 ≤ h.target.speedStep.idx := by
    rw [htarget]
    exact ht
  constructor
  · intro n
    clear htarget ht
    induction n generalizing h with
    | zero => rfl
    | succ n ih =>
      rw [returns]
      rcases ramp_cases (p := p) hc hidx with ⟨hramp, c, hs, hramp'⟩ | ⟨r, c, -, hs, hramp⟩
      · rw [hs, Option.bind_some, ih (h := { h with current := c }) hc hidx, hramp', hramp]
        rfl
      · rw [hs, Option.bind_some, ih (h := { h with current := c }) hc hidx, hramp,
          List.cons_append, List.take_succ_cons, take_append_replicate]
        rfl
  · intro r hr
    rw [ramp, List.dropLast_concat] at hr
    exact lt_of_mem_legs hc ((List.dropLast_sublist _).subset hr)

/-- From step 2 forward to step 1 in reverse, at 70 ms a step. -/
theorem returns_reversal :
    Helper.returns .dev 4 ⟨⟨10, 10, 7000000⟩, ⟨.num 1, .reverse⟩, ⟨.num 2, .forward⟩⟩ =
      some [(⟨.num 1, .forward⟩, .nanos 70000000), (⟨.num 0, .forward⟩, .nanos 70000000),
        (⟨.num 1, .reverse⟩, .max), (⟨.num 1, .reverse⟩, .max)] :=
  ((returns_eq_ramp (p := .dev)
    (h := ⟨⟨10, 10, 7000000⟩, ⟨.num 1, .reverse⟩, ⟨.num 2, .forward⟩⟩) rfl (by decide)
    ⟨by decide, by decide⟩).1 4).trans rfl

/-- With a loop delay of `Duration::MAX` the first of two steps at rate 1 is
returned with `Duration::MAX`, and at rate 2 the product overflows. -/
theorem returns_loopDelay_max :
    (∃ d, ((Helper.new ⟨1, 1, MAX_NANOS⟩).setTarget ⟨.num 2, .forward⟩).returns .release 2 =
        some [(⟨.num 1, .forward⟩, d), (⟨.num 2, .forward⟩, .max)] ∧
      d.toNanos = Duration.max.toNanos) ∧
    ((Helper.new ⟨2, 1, MAX_NANOS⟩).setTarget ⟨.num 2, .forward⟩).returns .release 1 = none :=
  ⟨⟨.nanos (1 * MAX_NANOS), rfl, rfl⟩, rfl⟩

end Helper

end Rp2040.Accel
