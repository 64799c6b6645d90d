/-
A reset packet against the startup state.

A reset packet reaches the motor tasks only: the accel helper is always reset,
the motor unless older velocities come late, and the functions never.

* `Inv.shows_false` — an output is on for a function only;
* `startup_iff` — a reset leads to the startup state exactly when no function
  was on and the velocities overtaken by it leave no level that drives the motor.
-/
import Rp2040Decoder.Application
import Rp2040Decoder.Latch

namespace Rp2040

open Functions Transition

namespace Application

variable {T S G P κ β : Type} [Output G] [PwmOutput P]

/-- The startup state: no function is on, nor is an output; the accel helper is
at its defaults; the motor is stopped, with its PID timer disarmed. -/
structure Startup (s : Application T S G P κ) : Prop where
  flags : s.packetHandler.fgHandler.flags = 0
  outputs : ∀ d ∈ s.packetHandler.fgHandler.outputDrivers.toList, d.Shows false
  current : s.motor.accel.accelHelper.current = default
  target : s.motor.accel.accelHelper.target = default
  stopped : s.motor.controller.motorController.Stopped
  pidSampleTimer : s.motor.controller.pidSampleTimer = false

variable {cfg : Motor.Setup κ β} {self s : Application T S G P κ}

/-- Without flags no output is on. -/
theorem Inv.shows_false (hi : s.Inv) (hflags : s.packetHandler.fgHandler.flags = 0) :
    ∀ d ∈ s.packetHandler.fgHandler.outputDrivers.toList, d.Shows false := by
  intro d hd
  have h := hi.reflects.shows d hd
  rwa [hflags, decide_eq_false (Config.not_wants_zero _ _ _)] at h

variable [Timer T] [Store S] {timer : T} {store : S} {settings : Settings}
  {accelConfig : Accel.Config} {pwmMaxOutput : UInt16} {speedControl : κ}
  {t₁ t₂ : List (Event (Application T S G P κ) (Action β))}
  {e : Event (Application T S G P κ) (Action β)}

/-- **Reset and the startup state.**  When a reset packet has been handled, and
no packet after it, and the run has come to rest, the application is in its
startup state if and only if no function was on when the packet came, and the
velocities still waiting in `ACCEL_HELPER_CHANNEL` when the motor task took the
`Reset` left no level that drives the motor. -/
theorem startup_iff {c : Handler.Call}
    (hrun : Run (fun s a s' => next cfg s a = some s')
      (init timer store (.start settings) accelConfig pwmMaxOutput speedControl)
      (t₁ ++ e :: t₂) s)
    (hpacket : e.label = .packet c) (hreset : c.packet.isReset = true) (hlast : NoPacket t₂)
    (hq : s.motor.Quiescent) :
    s.Startup ↔ e.pre.packetHandler.fgHandler.flags = 0 ∧
      ∀ e' ∈ motorEvents t₂, Motor.LastResetServed e' →
        Motor.drive (Motor.lateLevel cfg e'.pre) = none := by
  have hi : s.Inv := inv_run hrun
  obtain ⟨hpre, hstep, hpost⟩ := hrun.split
  rw [hpacket] at hstep
  obtain ⟨hhandler, hsending, hmotor⟩ := packet_reset hstep hreset
  have hflags : s.packetHandler.fgHandler = e.pre.packetHandler.fgHandler := by
    rw [fgHandler_run hpost hlast hsending, hhandler]
  -- from here on the motor tasks run on their own, with the `Reset` sent last
  have hmrun := motor_run hpost hlast
  rw [hmotor] at hmrun
  have haccel := Motor.accelReset_run hmrun hq
  have hstop := Motor.stopped_iff_lateLevel hmrun (Motor.resetAhead_queue _)
    (Motor.accelSettled_queue rfl _) (inv_run hpre).controller hq
  rw [← hstop, ← hflags]
  exact ⟨fun h => ⟨h.flags, h.stopped, h.pidSampleTimer⟩, fun ⟨hzero, hstopped, htimer⟩ =>
    ⟨hzero, hi.shows_false hzero, haccel.current, haccel.target, hstopped, htimer⟩⟩

/-! ### Traces -/

/-- FL on, to decoder 3. -/
def lampPacket : Packet := ⟨[0x03, 0x90], by decide⟩

/-- Speed step 6 forward, to decoder 3. -/
def speedPacket : Packet := ⟨[0x03, 0x3F, 0x87], by decide⟩

/-- The start of the traces: a lamp, and no acceleration or deceleration rate. -/
def lampInit : Application InstantTimer (Flash .release) Gpio PwmChannel Unit :=
  init ⟨none⟩ Flash.defaultFlash (.start lampStore) ⟨0, 0, 7000000⟩ 1000 ()

/-- The reset packet stops the motor in time. -/
theorem startup_after_velocity :
    ∃ t s, Run (fun s a s' => next Motor.linearSetup s a = some s') lampInit t s ∧
      s.motor.controller.lastOutputLevel = ⟨.forward, 48⟩ ∧ s.Startup := by
  have hrun := Run.of_exec (next Motor.linearSetup)
    [.packet ⟨0, speedPacket⟩, .motor .submit, .motor .dispatch, .motor .forward,
      .motor .accelReceive, .motor .takeLevel, .motor .settled, .motor .coasted,
      .motor (.sampled (.ok ()) 0), .packet ⟨1000, Handler.resetPacket⟩, .motor .submit,
      .motor .dispatch, .motor .forward, .motor .forward, .motor .accelReceive,
      .motor .controllerReceive]
    (s := lampInit) rfl
  have hsplit : Run _ _ ([_, _, _, _, _, _, _, _, _] ++ _ :: [_, _, _, _, _, _]) _ := hrun
  refine ⟨_, _, hrun, rfl, (startup_iff hsplit rfl rfl ?_ (by decide)).mpr ⟨rfl, ?_⟩⟩
  · intro e he
    simp only [List.mem_cons, List.not_mem_nil, or_false] at he
    rcases he with rfl | rfl | rfl | rfl | rfl | rfl <;> exact ⟨_, rfl⟩
  · intro e he _
    simp only [motorEvents, List.filterMap_cons, List.filterMap_nil, List.mem_cons,
      List.not_mem_nil, or_false] at he
    rcases he with rfl | rfl | rfl | rfl | rfl | rfl <;> rfl

/-- The lamp stays on. -/
theorem lamp_on_after_reset :
    ∃ t₁ e t₂ s, Run (fun s a s' => next Motor.linearSetup s a = some s') lampInit
        (t₁ ++ e :: t₂) s ∧
      e.label = .packet ⟨1000, Handler.resetPacket⟩ ∧ NoPacket t₂ ∧ s.motor.Quiescent ∧
      s.packetHandler.fgHandler.flags = 1 ∧
      s.packetHandler.fgHandler.outputDrivers.gpio0.Driven ∧ ¬ s.Startup := by
  have hrun := Run.of_exec (next Motor.linearSetup)
    [.packet ⟨0, lampPacket⟩, .packet ⟨1000, Handler.resetPacket⟩, .motor .submit,
      .motor .dispatch, .motor .forward, .motor .forward, .motor .accelReceive,
      .motor .controllerReceive] (s := lampInit) rfl
  refine ⟨[_], _, [_, _, _, _, _, _], _, hrun, rfl, ?_, by decide, by decide, by decide,
    fun h => ?_⟩
  · intro e he
    simp only [List.mem_cons, List.not_mem_nil, or_false] at he
    rcases he with rfl | rfl | rfl | rfl | rfl | rfl <;> exact ⟨_, rfl⟩
  · exact absurd h.flags (by decide)

end Application

end Rp2040
