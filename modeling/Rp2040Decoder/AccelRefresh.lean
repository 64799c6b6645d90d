/-
Repeated velocities and the acceleration helper, over runs of the application.

A command station repeats a velocity for as long as it holds.  `packet_handler`
drops a velocity that directly follows itself; behind any other operation it
reaches `accel_helper_task`, which takes a step for every velocity it is sent.

* `step_current_ne` — a step short of the target moves the setpoint;
* `timerInv_step` — the accel timer is armed exactly while a ramp is in progress;
* `idempotent_iff` — repeating the velocity leaves the ramp alone exactly when no
  velocity is repeated to the accel task during its ramp.
-/
import Rp2040Decoder.AccelBounds
import Rp2040Decoder.ApplicationReset
import Rp2040Decoder.MotorVelocity

namespace Rp2040

open Functions Transition

/-! ### A step moves the setpoint -/

namespace Accel.Helper

variable {p : Profile} {h h' : Helper}

theorem addU8_one_ne {a b : UInt8} (hb : p.addU8 a 1 = some b) : b ≠ a := by
  have hne : a + 1 ≠ a := fun h => absurd (UInt8.add_eq_left.mp h) (by decide)
  cases p with
  | dev => exact Option.some.inj (Option.ite_none_right_eq_some.mp hb).2 ▸ hne
  | release => exact Option.some.inj hb ▸ hne

theorem subU8_one_ne {a b : UInt8} (hb : p.subU8 a 1 = some b) : b ≠ a := by
  have hne : a - 1 ≠ a := fun h =>
    absurd (UInt8.add_eq_left.mp (UInt8.sub_eq_iff_eq_add.mp h).symm) (by decide)
  cases p with
  | dev => exact Option.some.inj (Option.ite_none_right_eq_some.mp hb).2 ▸ hne
  | release => exact Option.some.inj hb ▸ hne

/-- Without a switch of the direction the next index is another one. -/
theorem nextSpeedStep_idx_ne {s : SpeedStep} (he : h.current.equivalent h.target = false)
    (hc : h.switchDirection = h.current) (hn : h.nextSpeedStep p h.current = some s) :
    s.idx ≠ h.current.speedStep.idx := by
  -- the target is either somewhere else, or behind a reversal of a moving motor
  have hne : h.current.speedStep.idx = h.target.speedStep.idx →
      h.config.decelRate ≠ 0 ∧ h.current.speedStep.idx ≠ 0 := by
    intro hidx
    refine (direction_of_switchDirection hc).resolve_left fun hdir => ?_
    rw [VelocitySetpoint.equivalent_iff.mpr ⟨hidx, hdir⟩] at he
    cases he
  rw [nextSpeedStep] at hn
  split at hn
  · rename_i hstop
    rw [← Option.some.inj hn, SpeedStep.idx_emergencyStop]
    intro h0
    exact (hne (by rw [← h0, hstop, SpeedStep.idx_emergencyStop])).2 h0.symm
  split at hn
  · rename_i ha
    simp only [accelerating, Bool.and_eq_true, decide_eq_true_eq] at ha
    split at hn
    · obtain ⟨b, hb, rfl⟩ := Option.map_eq_some_iff.mp hn
      exact addU8_one_ne hb
    · rw [← Option.some.inj hn, SpeedStep.idx_num]
      intro h0
      rw [h0] at ha
      exact UInt8.lt_irrefl _ ha.1
  · split at hn
    · obtain ⟨b, hb, rfl⟩ := Option.map_eq_some_iff.mp hn
      exact subU8_one_ne hb
    · rename_i hdec
      rw [← Option.some.inj hn, SpeedStep.idx_num]
      intro h0
      exact hdec (UInt8.pos_iff_ne_zero.mpr (hne h0.symm).1)

/-- Short of the target a step changes the current setpoint. -/
theorem step_current_ne {r : VelocitySetpoint × Duration}
    (he : h.current.equivalent h.target = false) (hs : h.step p = some (r, h')) :
    h'.current ≠ h.current := by
  rcases step_cases hs with ⟨he', -⟩ | ⟨-, s, hn, rfl, -⟩
  · rw [he'] at he
    cases he
  · intro hcur
    rcases h.switchDirection_cases with ⟨hc, -⟩ | ⟨hc, hd, -⟩
    · rw [hc] at hn
      exact nextSpeedStep_idx_ne he hc hn (congrArg (fun v => v.speedStep.idx) hcur)
    · have hdir := congrArg VelocitySetpoint.direction hcur
      rw [hc] at hdir
      exact hd hdir.symm

/-- The wait ends exactly if the target is not reached. -/
theorem step_delay_ne_max {v : VelocitySetpoint} {delay : Duration}
    (hs : h.step p = some ((v, delay), h')) :
    delay ≠ .max ↔ h'.current.equivalent h'.target = false := by
  rw [(step_frame hs).2]
  rcases step_cases hs with ⟨he, hr, rfl⟩ | ⟨-, s, -, -, ⟨he, hr⟩ | ⟨he, hr⟩⟩
  · rw [he, (Prod.mk.inj hr).2]
    simp
  · rw [he, (Prod.mk.inj hr).2]
    simp
  · rw [he, (Prod.mk.inj hr).2, stepDelay]
    refine iff_of_true ?_ rfl
    split
    · exact Duration.noConfusion
    · exact Duration.noConfusion

end Accel.Helper

/-! ### The accel task -/

namespace Motor

open Accel

variable {κ β : Type} {cfg : Setup κ β} {s s' : State κ} {a : Action β}

/-- The accel timer is armed exactly while a ramp is in progress. -/
def AccelTask.TimerInv (self : AccelTask) : Prop :=
  self.accelTimer = true ↔ self.accelHelper.current.equivalent self.accelHelper.target = false

namespace AccelTask

/-- After a step the timer is armed exactly if the target is not reached. -/
theorem timerInv_advance {task : AccelTask} {r : AccelTask × Option OutputLevel}
    (h : task.advance cfg = some r) : r.1.TimerInv := by
  obtain ⟨v, delay, helper, hstep, h₁, -⟩ := advance_spec h
  rw [h₁, TimerInv, decide_eq_true_iff]
  exact Helper.step_delay_ne_max hstep

theorem timerInv_serve {task : AccelTask} {c : Command} {r : AccelTask × Option OutputLevel}
    (h : task.serve cfg c = some r) (hi : task.TimerInv) : r.1.TimerInv := by
  cases c with
  | acknowledgeCv =>
    rw [← Option.some.inj h]
    exact hi
  | reset =>
    rw [← Option.some.inj h]
    exact iff_of_false Bool.false_ne_true fun he => Bool.noConfusion (he : true = false)
  | setVelocity128 v => exact timerInv_advance h

/-- A step at the target leaves the setpoint alone. -/
theorem advance_current_eq {task : AccelTask} {r : AccelTask × Option OutputLevel}
    (h : task.advance cfg = some r)
    (he : task.accelHelper.current.equivalent task.accelHelper.target = true) :
    r.1.accelHelper.current = task.accelHelper.current := by
  obtain ⟨v, delay, helper, hstep, h₁, -⟩ := advance_spec h
  rw [Helper.step, if_pos he, Option.some.injEq, Prod.mk.injEq] at hstep
  rw [h₁, ← hstep.2]

/-- A step short of the target changes the setpoint. -/
theorem advance_current_ne {task : AccelTask} {r : AccelTask × Option OutputLevel}
    (h : task.advance cfg = some r)
    (he : task.accelHelper.current.equivalent task.accelHelper.target = false) :
    r.1.accelHelper.current ≠ task.accelHelper.current := by
  obtain ⟨v, delay, helper, hstep, h₁, -⟩ := advance_spec h
  rw [h₁]
  exact Helper.step_current_ne he hstep

end AccelTask

/-- The accel task serves a velocity that is its target already, while its
timer is armed. -/
def Refreshed (s : State κ) (a : Action β) : Prop :=
  a = .accelReceive ∧ s.accel.accelTimer = true ∧
    s.accelHelperChannel.items.head? = some (.setVelocity128 s.accel.accelHelper.target)

/-- The accel timer expires, or the accel task serves a velocity that is not its
target, or a reset, which counts as a move. -/
def MayMove (s : State κ) (a : Action β) : Prop :=
  a = .accelTimer ∨
  (a = .accelReceive ∧ ∃ c ∈ s.accelHelperChannel.items.head?,
    c = .reset ∨ ∃ v, c = .setVelocity128 v ∧ v ≠ s.accel.accelHelper.target)

theorem timerInv_step (h : s.Step cfg a s') (hi : s.accel.TimerInv) : s'.accel.TimerInv := by
  cases h with
  | accelReceive hch hr => exact AccelTask.timerInv_serve hr hi
  | accelTimer hch ht hr => exact AccelTask.timerInv_advance hr
  | _ => exact hi

/-- A velocity repeated during a ramp changes the setpoint. -/
theorem current_ne_of_refreshed (h : s.Step cfg a s') (hi : s.accel.TimerInv)
    (hr : Refreshed s a) :
    s'.accel.accelHelper.current ≠ s.accel.accelHelper.current := by
  obtain ⟨rfl, ht, hhead⟩ := hr
  cases h with
  | @accelReceive c ch r hch hserve =>
    rw [hch, List.head?_cons, Option.some.injEq] at hhead
    subst hhead
    exact AccelTask.advance_current_ne hserve (hi.mp ht)

/-- Anything else leaves the setpoint alone unless it may move it. -/
theorem current_eq_of_not_refreshed (h : s.Step cfg a s') (hi : s.accel.TimerInv)
    (hr : ¬ Refreshed s a) (hm : ¬ MayMove s a) :
    s'.accel.accelHelper.current = s.accel.accelHelper.current := by
  cases h with
  | @accelReceive c ch r hch hserve =>
    cases c with
    | acknowledgeCv =>
      rw [← Option.some.inj hserve]
      rfl
    | reset => exact absurd (Or.inr ⟨rfl, _, by rw [hch]; rfl, Or.inl rfl⟩) hm
    | setVelocity128 v =>
      by_cases hv : v = s.accel.accelHelper.target
      · subst hv
        -- the target is reached, or this would be a repetition during the ramp
        have he : s.accel.accelHelper.current.equivalent s.accel.accelHelper.target = true := by
          by_contra hn
          exact hr ⟨rfl, hi.mpr (Bool.not_eq_true _ ▸ hn), by rw [hch]; rfl⟩
        exact AccelTask.advance_current_eq hserve he
      · exact absurd (Or.inr ⟨rfl, _, by rw [hch]; rfl, Or.inr ⟨v, rfl, hv⟩⟩) hm
  | accelTimer hch ht hr => exact absurd (Or.inl rfl) hm
  | _ => rfl

end Motor

/-! ### Runs of the application -/

namespace Application

variable {T S G P κ β : Type} {cfg : Motor.Setup κ β} {self self' : Application T S G P κ}

/-- The setpoint of the acceleration helper. -/
def current (self : Application T S G P κ) : VelocitySetpoint :=
  self.motor.accel.accelHelper.current

/-- The current target is sent to the accel task once more, during its ramp. -/
def Refreshed (e : Event (Application T S G P κ) (Action β)) : Prop :=
  ∃ a, e.label = .motor a ∧ Motor.Refreshed e.pre.motor a

/-- The setpoint may move: the accel timer expires or the target changes; a reset
of the helper, which sets the setpoint to 0, counts as a move too. -/
def MayMove (e : Event (Application T S G P κ) (Action β)) : Prop :=
  ∃ a, e.label = .motor a ∧ Motor.MayMove e.pre.motor a

section Runs

variable {timer : T} {store : S} {packetHandler : PacketHandler G P} {accelConfig : Accel.Config}
  {pwmMaxOutput : UInt16} {speedControl : κ} {t : List (Event (Application T S G P κ) (Action β))}

theorem timerInv_init :
    (init timer store packetHandler accelConfig pwmMaxOutput speedControl :
      Application T S G P κ).motor.accel.TimerInv :=
  iff_of_false Bool.false_ne_true fun he => Bool.noConfusion (he : true = false)

variable [Timer T] [Store S] [Output G] [PwmOutput P]

/-- Handling a packet does not reach the accel task. -/
theorem packet_accel {c : Handler.Call} (h : self.packet c = some self') :
    self'.motor.accel = self.motor.accel := by
  obtain ⟨-, h⟩ := Option.ite_none_right_eq_some.mp h
  obtain ⟨handler, -, h⟩ := Option.bind_eq_some_iff.mp h
  split at h
  · obtain ⟨-, h⟩ := Option.ite_none_left_eq_some.mp h
    split at h
    · rw [← Option.some.inj h]
      rfl
    · rw [← Option.some.inj h]
  · rw [← Option.some.inj h]

theorem timerInv_next {a : Action β} (h : next cfg self a = some self')
    (hi : self.motor.accel.TimerInv) : self'.motor.accel.TimerInv := by
  cases a with
  | packet c =>
    rw [packet_accel h]
    exact hi
  | motor a => exact Motor.timerInv_step (Motor.step_of_next (motor_next h).1) hi

/-- **Repeated velocities.**  In a run of the application a velocity repeated
during its ramp leaves the setpoint alone, and the speed index moves only on
expiry of the timer or with a change of the target, a reset of the helper
counting as one, if and only if no velocity is repeated to the accel task during
its ramp. -/
theorem idempotent_iff
    (hrun : Run (fun s a s' => next cfg s a = some s')
      (init timer store packetHandler accelConfig pwmMaxOutput speedControl) t self) :
    (∀ e ∈ t, (Refreshed e → e.post.current = e.pre.current) ∧
        (e.post.current.speedStep.idx ≠ e.pre.current.speedStep.idx → MayMove e)) ↔
      ∀ e ∈ t, ¬ Refreshed e := by
  have hinv := (hrun.invariant (I := fun s => s.motor.accel.TimerInv)
    (fun _ _ _ hst hI => timerInv_next hst hI) timerInv_init).2
  constructor
  · rintro h e he ⟨a, hl, hr⟩
    have hstep := hrun.step_of_mem e he
    rw [hl] at hstep
    refine Motor.current_ne_of_refreshed (Motor.step_of_next (motor_next hstep).1)
      (hinv e he).1 hr ?_
    exact (h e he).1 ⟨a, hl, hr⟩
  · intro h e he
    refine ⟨fun hr => absurd hr (h e he), fun hne => ?_⟩
    have hstep := hrun.step_of_mem e he
    by_contra hm
    refine hne (congrArg (fun v : VelocitySetpoint => v.speedStep.idx) ?_)
    cases hl : e.label with
    | packet c =>
      rw [hl] at hstep
      exact congrArg (fun a => a.accelHelper.current) (packet_accel hstep)
    | motor a =>
      rw [hl] at hstep
      exact Motor.current_eq_of_not_refreshed (Motor.step_of_next (motor_next hstep).1)
        (hinv e he).1 (fun hr => h e he ⟨a, hl, hr⟩) fun hm' => hm ⟨a, hl, hm'⟩

end Runs

/-! ### Traces -/

/-- The start of the traces: a lamp, and both rates at 70 ms a step. -/
def rampInit : Application InstantTimer (Flash .release) Gpio PwmChannel Unit :=
  init ⟨none⟩ Flash.defaultFlash (.start lampStore) ⟨10, 10, 7000000⟩ 1000 ()

/-- A velocity sent twice in a row is dropped by `packet_handler`. -/
theorem velocity_sent_twice :
    ∃ t s, Run (fun s a s' => next Motor.linearSetup s a = some s') rampInit t s ∧
      t.filterMap (fun e => match e.label with | .packet c => some c.packet | .motor _ => none) =
        [speedPacket, speedPacket] ∧
      s.current = ⟨.num 2, .forward⟩ ∧
      ∀ e ∈ t, (Refreshed e → e.post.current = e.pre.current) ∧
        (e.post.current.speedStep.idx ≠ e.pre.current.speedStep.idx → MayMove e) := by
  have hrun := Run.of_exec (next Motor.linearSetup)
    [.packet ⟨0, speedPacket⟩, .motor .submit, .motor .dispatch, .motor .forward,
      .motor .accelReceive, .packet ⟨30000, speedPacket⟩, .motor .accelTimer]
    (s := rampInit) rfl
  refine ⟨_, _, hrun, rfl, rfl, (idempotent_iff hrun).mpr ?_⟩
  rintro e he ⟨a, hl, hr⟩
  simp only [List.mem_cons, List.not_mem_nil, or_false] at he
  rcases he with rfl | rfl | rfl | rfl | rfl | rfl | rfl
  all_goals cases hl
  all_goals first | exact Bool.noConfusion hr.2.1 | cases hr.1

/-- Behind a function command the same velocity is served again, and takes a
step of the ramp before the timer has expired. -/
theorem velocity_sent_around_function :
    ∃ t e s, Run (fun s a s' => next Motor.linearSetup s a = some s') rampInit (t ++ [e]) s ∧
      (t.filterMap fun e => match e.label with | .packet c => some c.packet | .motor _ => none) =
        [speedPacket, lampPacket, speedPacket] ∧
      (∀ e ∈ t, e.label ≠ .motor .accelTimer) ∧ Refreshed e ∧
      e.pre.current = ⟨.num 1, .forward⟩ ∧ e.post.current = ⟨.num 2, .forward⟩ ∧ ¬ MayMove e := by
  have hrun := Run.of_exec (next Motor.linearSetup)
    [.packet ⟨0, speedPacket⟩, .motor .submit, .motor .dispatch, .motor .forward,
      .motor .accelReceive, .packet ⟨10000, lampPacket⟩, .packet ⟨20000, speedPacket⟩,
      .motor .submit, .motor .dispatch, .motor .forward, .motor .accelReceive]
    (s := rampInit) rfl
  refine ⟨[_, _, _, _, _, _, _, _, _, _], _, _, hrun, rfl, ?_, ⟨_, rfl, rfl, rfl, rfl⟩, rfl, rfl,
    ?_⟩
  · intro e he hl
    simp only [List.mem_cons, List.not_mem_nil, or_false] at he
    rcases he with rfl | rfl | rfl | rfl | rfl | rfl | rfl | rfl | rfl | rfl <;> cases hl
  · rintro ⟨a, hl, rfl | ⟨-, c, hc, rfl | ⟨v, rfl, hv⟩⟩⟩
    · cases hl
    · cases hc
    · exact hv (Motor.Command.setVelocity128.inj (Option.some.inj hc)).symm

end Application

end Rp2040
