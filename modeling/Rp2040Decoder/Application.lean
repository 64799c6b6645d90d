/-
The application (`application/src/main.rs`): `packet_handler` and the motor tasks.

`packet_handler` handles a packet, sends the command of its operation and
finishes the operation once `MOTOR_CHANNEL` has taken the command; meanwhile it
handles no other packet.  The motor tasks run in between.

* `motor_run` — while no packet is handled, a run is one of the motor tasks;
* `inv_run` — the outputs follow the flags, and the motor task keeps its
  guarantees;
* `packet_reset`, `fgHandler_run` — a reset packet reaches the motor tasks and
  nothing else.
-/
import Rp2040Decoder.Handler
import Rp2040Decoder.MotorReset
import Rp2040Decoder.PacketHandler

namespace Rp2040

open Functions Transition

/-- The tasks behind `PACKET_CHANNEL`.  `sending` is the operation whose command
`packet_handler` waits to send. -/
structure Application (T S G P κ : Type) where
  handler : Handler T S
  packetHandler : PacketHandler G P
  sending : Option Op
  motor : Motor.State κ

namespace Application

/-- A packet is taken from `PACKET_CHANNEL`, or a step of the motor tasks;
`MOTOR_CHANNEL` taking the pending command is one of these. -/
inductive Action (β : Type)
  | packet (c : Handler.Call)
  | motor (a : Motor.Action β)

variable {T S G P κ β : Type}

def init (timer : T) (store : S) (packetHandler : PacketHandler G P) (accelConfig : Accel.Config)
    (pwmMaxOutput : UInt16) (speedControl : κ) : Application T S G P κ :=
  ⟨.new timer store, packetHandler, none, .init accelConfig pwmMaxOutput speedControl []⟩

section Definitions

variable [Timer T] [Store S] [Output G] [PwmOutput P]

/-- The operation up to its send; a reboot does not return. -/
def execute (op : Op) (self : Application T S G P κ) : Option (Application T S G P κ) :=
  if op = .reboot then none
  else
    match self.packetHandler.command op with
    | some command => some { self with sending := some op, motor := self.motor.queue command }
    | none => some { self with packetHandler := self.packetHandler.finish op }

/-- The body of the loop in `packet_handler`; a panic ends the run. -/
def packet (c : Handler.Call) (self : Application T S G P κ) :
    Option (Application T S G P κ) :=
  if self.sending = none then
    (self.handler.next c).bind fun handler =>
      match self.handler.result c with
      | .ok (some op) => { self with handler }.execute op
      -- nothing to do, or an error that is only logged
      | _ => some { self with handler }
  else none

/-- The operation goes on when its command has been sent. -/
def finish (a : Motor.Action β) (self : Application T S G P κ) : Application T S G P κ :=
  match a, self.sending with
  | .submit, some op =>
    { self with sending := none, packetHandler := self.packetHandler.finish op }
  | _, _ => self

def next (cfg : Motor.Setup κ β) (self : Application T S G P κ) :
    Action β → Option (Application T S G P κ)
  | .packet c => self.packet c
  | .motor a => (self.motor.next cfg a).map fun motor => { self.finish a with motor }

end Definitions

variable [Output G] [PwmOutput P] {cfg : Motor.Setup κ β} {self self' : Application T S G P κ}
  {t : List (Event (Application T S G P κ) (Action β))}

/-! ### The motor tasks in a run -/

/-- The events of the motor tasks. -/
def motorEvents (t : List (Event (Application T S G P κ) (Action β))) :
    List (Event (Motor.State κ) (Motor.Action β)) :=
  t.filterMap fun e =>
    match e.label with
    | .packet _ => none
    | .motor a => some ⟨e.pre.motor, a, e.post.motor⟩

/-- No packet is handled. -/
def NoPacket (t : List (Event (Application T S G P κ) (Action β))) : Prop :=
  ∀ e ∈ t, ∃ a, e.label = .motor a

/-- The outputs stand as the flags and the direction want them, and the motor
task keeps its guarantees. -/
structure Inv (s : Application T S G P κ) : Prop where
  reflects : s.packetHandler.fgHandler.Reflects
  controller : s.motor.controller.Inv

theorem inv_init {timer : T} {store : S} {settings : Settings} {accelConfig : Accel.Config}
    {pwmMaxOutput : UInt16} {speedControl : κ} :
    (init timer store (.start settings) accelConfig pwmMaxOutput speedControl :
      Application T S G P κ).Inv :=
  ⟨newHandler_reflects settings, rfl, rfl⟩

theorem inv_execute {op : Op} (h : self.execute op = some self') (hi : self.Inv) : self'.Inv := by
  obtain ⟨-, h⟩ := Option.ite_none_left_eq_some.mp h
  split at h
  · rw [← Option.some.inj h]
    exact ⟨hi.reflects, hi.controller⟩
  · rw [← Option.some.inj h]
    exact ⟨PacketHandler.finish_reflects hi.reflects op, hi.controller⟩

variable [Timer T] [Store S]

/-- A step of the motor tasks leaves `packet_handler` where it is, or lets it
finish the operation it was sending. -/
theorem motor_next {a : Motor.Action β} (h : next cfg self (.motor a) = some self') :
    self.motor.next cfg a = some self'.motor ∧
      (self'.packetHandler = self.packetHandler ∧ self'.sending = self.sending ∨
        ∃ op, self.sending = some op ∧ self'.packetHandler = self.packetHandler.finish op ∧
          self'.sending = none) := by
  obtain ⟨motor, hm, rfl⟩ := Option.map_eq_some_iff.mp h
  refine ⟨hm, ?_⟩
  simp only [finish]
  split
  · rename_i op hsending
    exact Or.inr ⟨op, hsending, rfl, rfl⟩
  · exact Or.inl ⟨rfl, rfl⟩

/-- While no packet is handled the motor tasks run on their own. -/
theorem motor_run (hrun : Run (fun s a s' => next cfg s a = some s') self t self')
    (hmotor : NoPacket t) :
    Run (fun s a s' => s.next cfg a = some s') self.motor (motorEvents t) self'.motor := by
  induction hrun with
  | nil => exact Run.nil
  | @snoc t s s' i _ hstep ih =>
    obtain ⟨a, rfl⟩ := hmotor _ (List.mem_append_right _ (List.mem_singleton.mpr rfl))
    rw [motorEvents, List.filterMap_append]
    exact (ih fun e he => hmotor e (List.mem_append_left _ he)).snoc (motor_next hstep).1

/-! ### What every step keeps -/

theorem inv_step {a : Action β} (h : next cfg self a = some self') (hi : self.Inv) :
    self'.Inv := by
  cases a with
  | packet c =>
    obtain ⟨-, h⟩ := Option.ite_none_right_eq_some.mp h
    obtain ⟨handler, -, h⟩ := Option.bind_eq_some_iff.mp h
    split at h
    · exact inv_execute h ⟨hi.reflects, hi.controller⟩
    · rw [← Option.some.inj h]
      exact ⟨hi.reflects, hi.controller⟩
  | motor a =>
    obtain ⟨hm, hp⟩ := motor_next h
    refine ⟨?_, Motor.motorInv_step (Motor.step_of_next hm) hi.controller⟩
    rcases hp with ⟨hp, -⟩ | ⟨op, -, hp, -⟩ <;> rw [hp]
    · exact hi.reflects
    · exact PacketHandler.finish_reflects hi.reflects op

theorem inv_run {timer : T} {store : S} {settings : Settings} {accelConfig : Accel.Config}
    {pwmMaxOutput : UInt16} {speedControl : κ}
    (hrun : Run (fun s a s' => next cfg s a = some s')
      (init timer store (.start settings) accelConfig pwmMaxOutput speedControl) t self) :
    self.Inv :=
  (hrun.invariant (fun _ _ _ hst hI => inv_step hst hI) inv_init).1

/-! ### A reset packet -/

/-- A reset packet only sends a `Reset` to the motor tasks. -/
theorem packet_reset {c : Handler.Call} (h : self.packet c = some self')
    (hreset : c.packet.isReset = true) :
    self'.packetHandler = self.packetHandler ∧ self'.sending = some .reset ∧
      self'.motor = self.motor.queue .reset := by
  obtain ⟨-, h⟩ := Option.ite_none_right_eq_some.mp h
  obtain ⟨handler, -, h⟩ := Option.bind_eq_some_iff.mp h
  rw [Handler.result_of_isReset hreset] at h
  rw [← Option.some.inj h]
  exact ⟨rfl, rfl, rfl⟩

/-- Finishing a reset does not touch the functions. -/
theorem fgHandler_run (hrun : Run (fun s a s' => next cfg s a = some s') self t self')
    (hmotor : NoPacket t) (hsending : self.sending = some .reset) :
    self'.packetHandler.fgHandler = self.packetHandler.fgHandler := by
  refine (hrun.invariant_on
    (C := fun e : Event (Application T S G P κ) (Action β) => ∃ a, e.label = .motor a)
    (I := fun s => (s.sending = none ∨ s.sending = some .reset) ∧
      s.packetHandler.fgHandler = self.packetHandler.fgHandler)
    ?_ ⟨Or.inr hsending, rfl⟩ hmotor).1.2
  rintro ⟨s, i, s'⟩ ⟨a, rfl⟩ hst ⟨hs, hf⟩
  rcases (motor_next hst).2 with ⟨hp, hsend⟩ | ⟨op, hop, hp, hsend⟩ <;> rw [hp, hsend]
  · exact ⟨hs, hf⟩
  · -- the operation finished is the reset: `finish` leaves `fgHandler` alone for it
    obtain rfl : Op.reset = op := by
      rcases hs with hs | hs <;> rw [hs] at hop <;> cases hop
      rfl
    exact ⟨Or.inl rfl, hf⟩

end Application

end Rp2040
