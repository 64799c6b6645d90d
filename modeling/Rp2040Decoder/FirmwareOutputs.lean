/-
The function outputs of the two firmwares.

Both run on the same board, with the same CVs, and see the same packets: the
Rust firmware in its packet handler, with the motor tasks in between, and the C
firmware in `evaluate_packet`.  They differ in what they do with a PWM level
above the wrap of its slice, which the Rust firmware refuses and the C firmware
sets.

* `OutputDriver.Wired` — which driver a pin has, and what of it never changes;
* `agrees_packet`, `agrees_run` — operations, flags and speed target;
* `outputs_agree_iff` — when a pin is the same in both.
-/
import Rp2040Decoder.Application
import Rp2040Decoder.OperationPackets
import Rp2040Decoder.OutputCvs

namespace Rp2040

open Functions Transition Words

/-- What a pin is set to. -/
inductive PinState
  | gpio (high : Bool)
  | pwm (level top : UInt16)
  deriving DecidableEq, Repr

/-! ### The drivers of the Rust firmware -/

namespace Functions

variable {G P : Type} [Output G] [PwmOutput P]

/-- The slice of a pin, and the half of it. -/
def Settings.level (self : Settings) (pin : ℕ) : UInt16 :=
  let cfg := self.pwmConfiguration ⟨pin / 2 % 8, Nat.mod_lt _ (by decide)⟩
  if pin % 2 = 0 then cfg.aLevel else cfg.bLevel

def Settings.wrap (self : Settings) (pin : ℕ) : UInt16 :=
  (self.pwmConfiguration ⟨pin / 2 % 8, Nat.mod_lt _ (by decide)⟩).wrap

namespace OutputDriver

def state (self : OutputDriver G P) : PinState :=
  match self.inner with
  | .gpio pin => .gpio (Output.isSetHigh pin)
  | .pwm p => .pwm (PwmOutput.dutyCycle p) (PwmOutput.maxDutyCycle p)

/-- The driver is the one that the settings give the pin. -/
def Wired (store : Settings) (self : OutputDriver G P) : Prop :=
  match self.inner with
  | .gpio _ => bit store.pwmEnabledMask self.pin.toNat = false
  | .pwm p => bit store.pwmEnabledMask self.pin.toNat = true ∧
      self.pwmLevel = store.level self.pin.toNat ∧
      PwmOutput.maxDutyCycle p = store.wrap self.pin.toNat

variable {store : Settings} {d : OutputDriver G P}

theorem Wired.setOn (h : d.Wired store) : d.setOn.Wired store := by
  obtain ⟨pin, pwmLevel, inner⟩ := d
  cases inner with
  | gpio g => exact h
  | pwm p => exact ⟨h.1, h.2.1, (PwmOutput.maxDutyCycle_setDutyCycle p _).trans h.2.2⟩

theorem Wired.setOff (h : d.Wired store) : d.setOff.Wired store := by
  obtain ⟨pin, pwmLevel, inner⟩ := d
  cases inner with
  | gpio g => exact h
  | pwm p => exact ⟨h.1, h.2.1, (PwmOutput.maxDutyCycle_setDutyCycle p _).trans h.2.2⟩

/-- What a driver that shows its function is set to. -/
theorem Wired.state_eq (h : d.Wired store) {on : Bool} (hs : d.Shows on) : d.state =
    if bit store.pwmEnabledMask d.pin.toNat then
      .pwm (if on ∧ store.level d.pin.toNat ≤ store.wrap d.pin.toNat then
        store.level d.pin.toNat else 0) (store.wrap d.pin.toNat)
    else .gpio on := by
  obtain ⟨pin, pwmLevel, inner⟩ := d
  cases inner with
  | gpio g =>
    have hpwm : bit store.pwmEnabledMask pin.toNat = false := h
    have hhigh : Output.isSetHigh g = on := hs
    simp only [state, hpwm, hhigh, Bool.false_eq_true, if_false]
  | pwm p =>
    obtain ⟨hpwm, hlevel, htop⟩ := h
    have hduty : PwmOutput.dutyCycle p =
      if on ∧ pwmLevel ≤ PwmOutput.maxDutyCycle p then pwmLevel else 0 := hs
    simp only at hpwm hlevel htop
    rw [htop, hlevel] at hduty
    simp only [state, hpwm, hduty, htop, if_true]

end OutputDriver

/-- A new PWM output has the top it is configured with. -/
def TopConfigured (P : Type) [PwmOutput P] : Prop :=
  ∀ (pin : UInt8) (top : UInt16) (divider : UInt8),
    PwmOutput.maxDutyCycle (PwmOutput.newOutput pin top divider : P) = top

namespace Handler

/-- Every driver is the one of its pin. -/
def Wired (store : Settings) (self : Handler G P) : Prop :=
  ∀ d ∈ self.outputDrivers.toList, d.Wired store

variable {store : Settings} {self : Handler G P}

theorem Wired.updateOutputs (h : self.Wired store) {s : Handler G P}
    (hs : s.outputDrivers = self.outputDrivers) : s.updateOutputs.Wired store := by
  intro d hd
  rw [Handler.updateOutputs, OutputDrivers.toList_map, hs] at hd
  obtain ⟨d, hmem, rfl⟩ := List.mem_map.mp hd
  split
  · exact (h d hmem).setOn
  · exact (h d hmem).setOff

theorem Wired.handle (h : self.Wired store) (functionGroup : FunctionGroup) :
    (self.handle functionGroup).Wired store := by
  rw [Handler.handle]
  split
  · exact h.updateOutputs rfl
  · exact h

theorem Wired.setDirection (h : self.Wired store) (direction : Direction) :
    (self.setDirection direction).Wired store := by
  rw [Handler.setDirection]
  split
  · exact h.updateOutputs rfl
  · exact h

end Handler

theorem wired_fromGpio {store : Settings} {num : UInt8}
    (h : bit store.pwmEnabledMask num.toNat = false) :
    (OutputDriver.fromGpio num (Output.newLow num) : OutputDriver G P).Wired store := h

omit [Output G] in
/-- The driver of a half of a slice. -/
theorem wired_fromPwm (htop : TopConfigured P) {store : Settings} {num : UInt8}
    {slice : Fin 8} (hslice : num.toNat / 2 % 8 = slice.val)
    (h : bit store.pwmEnabledMask num.toNat = true) :
    (OutputDriver.fromPwm num
        (if num.toNat % 2 = 0 then (store.pwmConfiguration slice).aLevel
          else (store.pwmConfiguration slice).bLevel)
        (PwmOutput.newOutput num (store.pwmConfiguration slice).wrap
          (store.pwmConfiguration slice).divider) : OutputDriver G P).Wired store := by
  have hfin : (⟨num.toNat / 2 % 8, Nat.mod_lt _ (by decide)⟩ : Fin 8) = slice := Fin.ext hslice
  refine ⟨h, ?_, ?_⟩
  · show _ = store.level num.toNat
    rw [Settings.level, hfin]
    rfl
  · show _ = store.wrap num.toNat
    rw [Settings.wrap, hfin]
    exact htop _ _ _

/-- The drivers of the two pins of a slice. -/
theorem wired_buildSliceOutputs (htop : TopConfigured P) (store : Settings) {slice : Fin 8}
    {numA numB : UInt8}
    (hA : numA.toNat < 32 ∧ numA.toNat / 2 % 8 = slice.val ∧ numA.toNat % 2 = 0)
    (hB : numB.toNat < 32 ∧ numB.toNat / 2 % 8 = slice.val ∧ ¬ numB.toNat % 2 = 0)
    {outputs : OutputDriver G P × OutputDriver G P}
    (h : buildSliceOutputs store.pwmEnabledMask (store.pwmConfiguration slice) numA numB =
      outputs) : outputs.1.Wired store ∧ outputs.2.Wired store := by
  have hbit {num : UInt8} (hnum : num.toNat < 32) :
      decide (store.pwmEnabledMask &&& 1 <<< num.toUInt32 ≠ 0) =
        bit store.pwmEnabledMask num.toNat := by
    rw [Bool.eq_iff_iff, decide_eq_true_iff, Handler.toUInt32_eq, bit_and_one_shiftLeft hnum]
  have hpwmA := @wired_fromPwm G P _ htop store numA slice hA.2.1
  have hpwmB := @wired_fromPwm G P _ htop store numB slice hB.2.1
  rw [if_pos hA.2.2] at hpwmA
  rw [if_neg hB.2.2] at hpwmB
  simp only [buildSliceOutputs, hbit hA.1, hbit hB.1] at h
  rw [← h]
  -- either pin is a PWM output or not
  cases ha : bit store.pwmEnabledMask numA.toNat <;>
    cases hb : bit store.pwmEnabledMask numB.toNat
  · exact ⟨wired_fromGpio ha, wired_fromGpio hb⟩
  · exact ⟨wired_fromGpio ha, hpwmB hb⟩
  · exact ⟨hpwmA ha, wired_fromGpio hb⟩
  · exact ⟨hpwmA ha, hpwmB hb⟩

theorem wired_newHandler (htop : TopConfigured P) (store : Settings) :
    (newHandler store : Handler G P).Wired store := by
  have hslice (slice : Fin 8) (numA numB : UInt8) hA hB :=
    @wired_buildSliceOutputs G P _ _ htop store slice numA numB hA hB _ rfl
  have h₀ := hslice 0 0 1 (by decide) (by decide)
  have h₁ := hslice 1 2 3 (by decide) (by decide)
  have h₂ := hslice 2 4 5 (by decide) (by decide)
  have h₄ := hslice 4 24 25 (by decide) (by decide)
  have h₅ := hslice 5 26 27 (by decide) (by decide)
  intro d hd
  simp only [newHandler, Handler.new, OutputDrivers.toList, List.mem_cons, List.not_mem_nil,
    or_false] at hd
  rcases hd with rfl | rfl | rfl | rfl | rfl | rfl | rfl | rfl | rfl | rfl
  · exact h₀.1
  · exact h₀.2
  · exact h₁.1
  · exact h₁.2
  · exact h₂.1
  · exact h₂.2
  · exact h₄.1
  · exact h₄.2
  · exact h₅.1
  · exact h₅.2

end Functions

/-! ### The pins of the C firmware -/

namespace Core0

/-- What a pin is set to, with the PWM slices of `init_outputs`. -/
def pinState (slices : PwmSlices) (self : Core0) (pin : ℕ) : PinState :=
  if bit (self.get32bitCV 111) pin then
    .pwm (self.pwmLevel pin) (slices.wrap (pwmGpioToSliceNum pin))
  else .gpio (bit self.gpio pin)

/-- The board after `init_outputs`. -/
def startedBoard (gpioAllowedOutputs : UInt32) (decoderId : UInt8) (self : Core0) : Board :=
  ⟨gpioAllowedOutputs, decoderId, (self.initOutputs gpioAllowedOutputs).levelTable⟩

/-- The evaluation of a packet. -/
def receive (board : Board) (self : Core0) (r : Received) : Core0 :=
  ((evaluatePacket board 0 r.message).run self).2

end Core0

theorem direction_speedStepControl (b : UInt8) : (speedStepControl b).direction =
    if Core0.getDirectionOfSpeedStep b = 1 then .forward else .reverse := by
  have hall : ∀ b : Fin 256, (speedStepControl (UInt8.ofFin b)).direction =
      if Core0.getDirectionOfSpeedStep (UInt8.ofFin b) = 1 then .forward else .reverse := by
    decide +kernel
  exact hall b.toFin

/-! ### The same operations -/

/-- A packet that is no reset packet, is for one of the two addressing forms
only, and has its data byte if it is for the decoder. -/
structure Plain (cvs : ℕ → UInt8) (r : Received) : Prop where
  reset : r.packet.isReset = false
  collides : ¬ Collides cvs r.packet
  complete : Addressed cvs r.packet → r.Complete

/-- The operation of a packet, if it is for the decoder. -/
def opFor (cvs : ℕ → UInt8) (r : Received) : Option Op :=
  if Addressed cvs r.packet then r.packet.op else none

theorem not_accessory_of_addressed {cvs : ℕ → UInt8} {r : Received}
    (h : Addressed cvs r.packet) : ¬ r.Accessory := by
  obtain ⟨d₀, d₁, d₂, rest, hraw, hdata, -⟩ := decode_cases r.decoded
  rintro ⟨b, hb, h₁, h₂⟩
  rw [hraw] at hb
  obtain rfl : d₀ = b := Option.some.inj hb
  rw [addressed_cons hdata] at h
  by_cases hbit : 0b00100000 &&& cvs 29 ≠ 0
  · rw [if_pos hbit] at h
    simp only [UInt8.le_iff_toNat_le, UInt8.reduceToNat] at h h₁ h₂
    omega
  · rw [if_neg hbit] at h
    simp only [UInt8.le_iff_toNat_le, UInt8.reduceToNat] at h h₁ h₂
    omega

theorem addressed_congr {cvs cvs' : ℕ → UInt8} (h : SameCvs cvs' cvs)
    (packet : Packet) : Addressed cvs' packet ↔ Addressed cvs packet := by
  have h₂₉ : cvs' 29 = cvs 29 := h ⟨by decide, by decide⟩
  have h₁₇ : cvs' 17 = cvs 17 := h ⟨by decide, by decide⟩
  have h₁₈ : cvs' 18 = cvs 18 := h ⟨by decide, by decide⟩
  have h₁ : cvs' 1 = cvs 1 := h ⟨by decide, by decide⟩
  rw [Addressed, Addressed, h₂₉, h₁₇, h₁₈, h₁]

/-- The operation does to the flags and the speed what the C firmware does. -/
theorem opFor_eq {cvs : ℕ → UInt8} {r : Received} (h : Plain cvs r) :
    (opFor cvs r).bind Op.functionGroup =
        (if Addressed cvs r.packet then Core0.writtenGroup r.message else none) ∧
      (opFor cvs r).bind Op.velocity =
        (if Addressed cvs r.packet then writtenSpeed r.message else none).map
          speedStepControl := by
  rw [opFor]
  by_cases haddressed : Addressed cvs r.packet
  · rw [if_pos haddressed, if_pos haddressed, if_pos haddressed]
    exact Received.operation_eq (not_accessory_of_addressed haddressed) (h.complete haddressed)
  · rw [if_neg haddressed, if_neg haddressed, if_neg haddressed]
    exact ⟨rfl, rfl⟩

theorem flagsOf_append (ops : List Op) (op : Option Op) :
    flagsOf (ops ++ op.toList) =
      Core0.writeGroup (op.bind Op.functionGroup) (flagsOf ops) := by
  cases op with
  | none => rw [Option.toList_none, List.append_nil]; rfl
  | some op =>
    rw [Option.toList_some, flagsOf_concat, Option.bind_some, Core0.writeGroup]
    cases op.functionGroup <;> rfl

/-- The last velocity of the operations. -/
def lastVelocity (ops : List Op) : Option VelocitySetpoint :=
  (ops.filterMap Op.velocity).getLast?

theorem lastVelocity_append (ops : List Op) (op : Option Op) :
    lastVelocity (ops ++ op.toList) = (op.bind Op.velocity).or (lastVelocity ops) := by
  rw [lastVelocity, lastVelocity, List.filterMap_append]
  cases op with
  | none => simp
  | some op =>
    rw [Option.toList_some, Option.bind_some]
    cases hv : op.velocity with
    | none => simp [List.filterMap_cons_none hv]
    | some v => simp [List.filterMap_cons_some hv]

/-! ### Both firmwares after the same packets -/

namespace Application

variable {S G P κ β : Type} [Store S] [ReadableStore S] [Output G] [PwmOutput P]
  {cfg : Motor.Setup κ β} {board : Board} {store : S} {c₀ c : Core0} {ops : List Op}
  {self self' : Application InstantTimer S G P κ}

/-- The Rust firmware has taken the operations, of which it may be sending the
last, and the C firmware stands where they lead. -/
structure Agrees (board : Board) (store : S) (c₀ : Core0) (ops : List Op)
    (s : Application InstantTimer S G P κ) (c : Core0) : Prop where
  store_eq : s.handler.store = store
  timer : s.handler.enterServiceModeTimer = ⟨none⟩
  wired : s.packetHandler.fgHandler.Wired (cvSettings (ReadableStore.cvs store))
  done : ∃ done, ops = done ++ s.sending.toList ∧
    s.packetHandler.Follows (cvSettings (ReadableStore.cvs store)) done
  flash : c.flash = c₀.flash
  resetMessageFlag : c.resetMessageFlag = false
  shown : c.Shown board
  functions : c.activeFunctions = flagsOf ops
  speed : ∀ v, lastVelocity ops = some v → v = speedStepControl c.speedStepTarget

omit [Store S] [ReadableStore S] in
theorem wired_finish {packetHandler : PacketHandler G P} {settings : Settings}
    (h : packetHandler.fgHandler.Wired settings) (op : Op) :
    (packetHandler.finish op).fgHandler.Wired settings := by
  cases op with
  | velocity128 sp =>
    simp only [PacketHandler.finish]
    split
    · exact h.setDirection _
    · exact h
  | setFunctions fg => exact h.handle fg
  | _ => exact h

/-- A step of the motor tasks lets the packet handler finish at most. -/
theorem agrees_motor {a : Motor.Action β} (h : next cfg self (.motor a) = some self')
    (hs : Agrees board store c₀ ops self c) : Agrees board store c₀ ops self' c := by
  have hhandler : self'.handler = self.handler := by
    obtain ⟨motor, -, rfl⟩ := Option.map_eq_some_iff.mp h
    simp only [finish]
    split <;> rfl
  obtain ⟨done, hops, hfollows⟩ := hs.done
  rcases (motor_next h).2 with ⟨hp, hsending⟩ | ⟨op, hop, hp, hsending⟩
  · refine ⟨hhandler ▸ hs.store_eq, hhandler ▸ hs.timer, hp ▸ hs.wired, ⟨done, ?_, hp ▸ hfollows⟩,
      hs.flash, hs.resetMessageFlag, hs.shown, hs.functions, hs.speed⟩
    rw [hsending]
    exact hops
  · refine ⟨hhandler ▸ hs.store_eq, hhandler ▸ hs.timer, hp ▸ wired_finish hs.wired op,
      ⟨done ++ [op], ?_, hp ▸ PacketHandler.follows_finish hfollows op⟩,
      hs.flash, hs.resetMessageFlag, hs.shown, hs.functions, hs.speed⟩
    rw [hsending, Option.toList_none, List.append_nil, hops, hop, Option.toList_some]

omit [Store S] [ReadableStore S] in
/-- An operation is finished, or its command is still to be sent. -/
theorem follows_execute {op : Op} {settings : Settings} (h : self.execute op = some self')
    (hidle : self.sending = none) (hfollows : self.packetHandler.Follows settings ops)
    (hwired : self.packetHandler.fgHandler.Wired settings) :
    self'.handler = self.handler ∧ self'.packetHandler.fgHandler.Wired settings ∧
      ∃ done, ops ++ [op] = done ++ self'.sending.toList ∧
        self'.packetHandler.Follows settings done := by
  obtain ⟨-, h⟩ := Option.ite_none_left_eq_some.mp h
  split at h
  · obtain rfl := Option.some.inj h
    exact ⟨rfl, hwired, ops, rfl, hfollows⟩
  · obtain rfl := Option.some.inj h
    refine ⟨rfl, wired_finish hwired op, ops ++ [op], ?_, PacketHandler.follows_finish hfollows op⟩
    rw [hidle, Option.toList_none, List.append_nil]

/-- What the Rust firmware does with a plain packet. -/
theorem agrees_handled {now : ℕ} {r : Received} (hplain : Plain (ReadableStore.cvs store) r)
    (h : next cfg self (.packet ⟨now, r.packet⟩) = some self')
    (hs : Agrees board store c₀ ops self c) :
    self'.handler.store = store ∧ self'.handler.enterServiceModeTimer = ⟨none⟩ ∧
      self'.packetHandler.fgHandler.Wired (cvSettings (ReadableStore.cvs store)) ∧
      ∃ done, ops ++ (opFor (ReadableStore.cvs store) r).toList = done ++ self'.sending.toList ∧
        self'.packetHandler.Follows (cvSettings (ReadableStore.cvs store)) done := by
  obtain ⟨hidle, h⟩ := Option.ite_none_right_eq_some.mp h
  obtain ⟨handler, hnext, h⟩ := Option.bind_eq_some_iff.mp h
  have hd : Decoded r.packet := ⟨r.raw, r.decoded⟩
  obtain ⟨hstore, htimer, b, hrecipient, hresult⟩ :=
    Handler.operation_of_next hs.timer hd hplain.reset hnext
  rw [hs.store_eq] at hstore hrecipient
  obtain ⟨done, hops, hfollows⟩ := hs.done
  rw [hidle, Option.toList_none, List.append_nil] at hops
  -- the handler takes the packets that are addressed to the decoder
  have hb : b = true ↔ Addressed (ReadableStore.cvs store) r.packet := by
    obtain ⟨d₀, d₁, d₂, rest, -, hdata, -⟩ := decode_cases r.decoded
    obtain ⟨b', hb', hiff⟩ := isRecipient_eq (ε := HandlerError) hdata store
    rw [hrecipient, Except.ok.injEq] at hb'
    rw [hb', hiff]
    exact or_iff_left hplain.collides
  have hnothing (hop : opFor (ReadableStore.cvs store) r = none)
      (h : some { self with handler } = some self') : self'.handler.store = store ∧
        self'.handler.enterServiceModeTimer = ⟨none⟩ ∧
        self'.packetHandler.fgHandler.Wired (cvSettings (ReadableStore.cvs store)) ∧
        ∃ done, ops ++ (opFor (ReadableStore.cvs store) r).toList = done ++ self'.sending.toList ∧
          self'.packetHandler.Follows (cvSettings (ReadableStore.cvs store)) done := by
    obtain rfl := Option.some.inj h
    refine ⟨hstore, htimer, hs.wired, done, ?_, hfollows⟩
    rw [hop, hidle, hops]
  by_cases haddressed : Addressed (ReadableStore.cvs store) r.packet
  · rw [if_pos (hb.mpr haddressed)] at hresult
    rw [hresult] at h
    cases hcommand : Handler.handleCommand r.packet with
    | error e =>
      rw [hcommand] at h
      exact hnothing (by rw [opFor, if_pos haddressed, Packet.op, hcommand]) h
    | ok op =>
      rw [hcommand] at h
      have hop : opFor (ReadableStore.cvs store) r = op := by
        rw [opFor, if_pos haddressed, Packet.op, hcommand]
      cases op with
      | none => exact hnothing hop h
      | some op =>
        obtain ⟨hhandler, hwired, done', hdone, hfollows'⟩ :=
          follows_execute h hidle hfollows hs.wired
        rw [hop, Option.toList_some, hops]
        exact ⟨hhandler ▸ hstore, hhandler ▸ htimer, hwired, done', hdone, hfollows'⟩
  · have hno : b = false := eq_false_of_ne_true fun hyes => haddressed (hb.mp hyes)
    rw [hno, if_neg Bool.false_ne_true] at hresult
    rw [hresult] at h
    exact hnothing (by rw [opFor, if_neg haddressed]) h

omit [ReadableStore S] in
theorem addressed_message {cvs : ℕ → UInt8} {r : Received}
    (hcvs : SameCvs c.cv cvs) (hcv₁ : cvs 1 ≤ 127) :
    c.addressed r.message = true ↔ Addressed cvs r.packet := by
  have hlen : r.message.length = r.raw.length := List.length_reverse
  have hcv₁' : c.cv 1 ≤ 127 := by
    rw [hcvs ⟨by decide, by decide⟩]
    exact hcv₁
  have haddr := addressEvaluation_iff r.decoded hcv₁'
  rw [← addressed_congr hcvs, ← haddr, Core0.addressed, hlen]
  rfl

/-- Both firmwares after one more packet. -/
theorem agrees_packet {now : ℕ} {r : Received} (hplain : Plain (ReadableStore.cvs store) r)
    (hcvs : SameCvs c₀.cv (ReadableStore.cvs store)) (hcv₁ : ReadableStore.cvs store 1 ≤ 127)
    (h : next cfg self (.packet ⟨now, r.packet⟩) = some self')
    (hs : Agrees board store c₀ ops self c) :
    Agrees board store c₀ (ops ++ (opFor (ReadableStore.cvs store) r).toList) self'
      (c.receive board r) := by
  obtain ⟨hstore, htimer, hwired, hdone⟩ := agrees_handled hplain h hs
  have heval : Core0.Evaluated board r.message c (c.receive board r) :=
    Core0.evaluated_operation 0 (Nat.le_of_succ_le r.length_message) r.errorDetection_message
      hs.resetMessageFlag (r.isReset_message.trans hplain.reset)
  obtain ⟨hgroup, hspeed⟩ := opFor_eq hplain
  -- the CVs of the C firmware are as they were
  have hcvs' : SameCvs c.cv (ReadableStore.cvs store) := by
    intro n hn
    rw [← hcvs hn, Core0.cv, Core0.cv, Core0.cvArrayFlash, Core0.cvArrayFlash, hs.flash]
  have haddressed := addressed_message (r := r) hcvs' hcv₁
  refine ⟨hstore, htimer, hwired, hdone, heval.flash.trans hs.flash, heval.resetMessageFlag,
    heval.shown hs.shown, ?_, ?_⟩
  · rw [heval.activeFunctions, flagsOf_append, hgroup, hs.functions]
    by_cases hyes : Addressed (ReadableStore.cvs store) r.packet
    · rw [if_pos (haddressed.mpr hyes), if_pos hyes]
    · rw [if_neg fun h => hyes (haddressed.mp h), if_neg hyes]
      rfl
  · intro v hv
    rw [lastVelocity_append, hspeed] at hv
    rw [heval.speedStepTarget]
    by_cases hyes : Addressed (ReadableStore.cvs store) r.packet
    · rw [if_pos hyes] at hv
      rw [if_pos (haddressed.mpr hyes)]
      cases hw : writtenSpeed r.message with
      | none =>
        rw [hw] at hv
        exact hs.speed v hv
      | some b =>
        rw [hw] at hv
        exact (Option.some.inj hv).symm
    · rw [if_neg hyes] at hv
      rw [if_neg fun h => hyes (haddressed.mp h)]
      exact hs.speed v hv

/-- The packets that are handled. -/
def packets (t : List (Event (Application InstantTimer S G P κ) (Action β))) : List Packet :=
  t.filterMap fun e =>
    match e.label with
    | .packet c => some c.packet
    | .motor _ => none

variable {t : List (Event (Application InstantTimer S G P κ) (Action β))} {rs : List Received}
  {flash : RpFlash}

theorem agrees_run {s₀ : Application InstantTimer S G P κ}
    (hrun : Run (fun s a s' => next cfg s a = some s') s₀ t self)
    (h₀ : Agrees board store c₀ [] s₀ c₀) (hcvs : SameCvs c₀.cv (ReadableStore.cvs store))
    (hcv₁ : ReadableStore.cvs store 1 ≤ 127) (hpackets : packets t = rs.map Received.packet)
    (hplain : ∀ r ∈ rs, Plain (ReadableStore.cvs store) r) :
    Agrees board store c₀ (rs.filterMap (opFor (ReadableStore.cvs store))) self
      (rs.foldl (Core0.receive board) c₀) := by
  induction hrun generalizing rs with
  | nil =>
    obtain rfl : rs = [] := List.map_eq_nil_iff.mp hpackets.symm
    exact h₀
  | @snoc t s s' a _ hstep ih =>
    rw [packets, List.filterMap_append] at hpackets
    cases a with
    | motor a =>
      rw [List.filterMap_cons_none rfl, List.filterMap_nil, List.append_nil] at hpackets
      exact agrees_motor hstep (ih hpackets hplain)
    | packet call =>
      -- the last of the packets is the one of this step
      change packets t ++ [call.packet] = _ at hpackets
      obtain ⟨rs', rs₁, rfl, hrs', hrs₁⟩ := List.map_eq_append_iff.mp hpackets.symm
      obtain ⟨r, rfl, hr⟩ := List.map_eq_singleton_iff.mp hrs₁
      have hagrees := ih hrs'.symm fun r hmem => hplain r (List.mem_append_left _ hmem)
      rw [List.filterMap_append, List.foldl_append, List.foldl_cons, List.foldl_nil]
      have hmem : r ∈ rs' ++ [r] := List.mem_append_right _ (List.mem_singleton.mpr rfl)
      obtain ⟨now, packet⟩ := call
      obtain rfl : r.packet = packet := hr
      have hout := agrees_packet (hplain r hmem) hcvs hcv₁ hstep hagrees
      have hop : [r].filterMap (opFor (ReadableStore.cvs store)) =
          (opFor (ReadableStore.cvs store) r).toList := by
        cases ho : opFor (ReadableStore.cvs store) r with
        | none => rw [List.filterMap_cons_none ho]; rfl
        | some op => rw [List.filterMap_cons_some ho]; rfl
      rw [hop]
      exact hout

/-- The firmwares as they are started. -/
theorem agrees_init (htop : TopConfigured P) {fgHandler : Functions.Handler G P}
    (hnew : newHandlerOf store = some fgHandler) (accelConfig : Accel.Config)
    (pwmMaxOutput : UInt16) (speedControl : κ) :
    Agrees board store (Core0.boot flash) []
      (init ⟨none⟩ store ⟨none, fgHandler⟩ accelConfig pwmMaxOutput speedControl :
        Application InstantTimer S G P κ) (Core0.boot flash) := by
  rw [newHandlerOf_eq, Option.some.injEq] at hnew
  rw [← hnew]
  refine ⟨rfl, rfl, wired_newHandler htop _, ⟨[], rfl, PacketHandler.follows_start⟩, rfl, rfl,
    Core0.shown_boot board flash, rfl, fun v hv => ?_⟩
  cases hv

/-! ### The pins -/

theorem cvLong_congr {cvs cvs' : ℕ → UInt8} (h : SameCvs cvs' cvs)
    {a : ℕ} (h₁ : 1 ≤ a) (h₂ : a + 3 ≤ CV_SIZE) : cvLong cvs' a = cvLong cvs a := by
  have hat (n : ℕ) (hn : 1 ≤ n ∧ n ≤ CV_SIZE) : cvs' n = cvs n := h hn
  rw [cvLong, cvLong, hat a (by omega), hat (a + 1) (by omega), hat (a + 2) (by omega),
    hat (a + 3) (by omega)]

theorem cvWord_congr {cvs cvs' : ℕ → UInt8} (h : SameCvs cvs' cvs)
    {a : ℕ} (h₁ : 1 ≤ a) (h₂ : a + 1 ≤ CV_SIZE) : cvWord cvs' a = cvWord cvs a := by
  have hat (n : ℕ) (hn : 1 ≤ n ∧ n ≤ CV_SIZE) : cvs' n = cvs n := h hn
  rw [cvWord, cvWord, hat a (by omega), hat (a + 1) (by omega)]

section SameCvs

variable {direction : Direction} {pin : ℕ}
  (hcvs : SameCvs c.cv (ReadableStore.cvs store))

include hcvs

theorem pwmEnabled_eq :
    c.get32bitCV 111 = (cvSettings (ReadableStore.cvs store)).pwmEnabledMask := by
  rw [get32bitCV_eq]
  exact cvLong_congr hcvs (by decide) (by decide)

/-- The C firmware looks up the outputs of a function where the Rust firmware
has read them. -/
theorem functionOutputs_eq
    (hdirection : (speedStepControl c.speedStepTarget).direction = direction) (i : Fin 32) :
    c.functionOutputs i =
      (cvSettings (ReadableStore.cvs store)).functionOutputMask i direction := by
  have hsize : CV_SIZE = 1024 := rfl
  have hi := i.isLt
  rw [Core0.functionOutputs, get32bitCV_eq]
  rw [direction_speedStepControl] at hdirection
  by_cases hforward : Core0.getDirectionOfSpeedStep c.speedStepTarget = 1
  · rw [if_pos hforward] at hdirection
    rw [hforward, ← hdirection]
    show cvLong _ (i.val * 8 + 260 - 4 * 1 + 1) = cvLong _ (257 + 8 * i.val + 0)
    rw [show i.val * 8 + 260 - 4 * 1 + 1 = 257 + 8 * i.val + 0 by omega]
    exact cvLong_congr hcvs (by omega) (by omega)
  · rw [if_neg hforward] at hdirection
    have hle := Core0.getDirectionOfSpeedStep_le c.speedStepTarget
    have hzero : (Core0.getDirectionOfSpeedStep c.speedStepTarget).toNat = 0 := by
      have hne : (Core0.getDirectionOfSpeedStep c.speedStepTarget).toNat ≠ 1 := fun h =>
        hforward (UInt8.toNat_inj.mp h)
      omega
    rw [hzero, ← hdirection]
    show cvLong _ (i.val * 8 + 260 - 4 * 0 + 1) = cvLong _ (257 + 8 * i.val + 4)
    rw [show i.val * 8 + 260 - 4 * 0 + 1 = 257 + 8 * i.val + 4 by omega]
    exact cvLong_congr hcvs (by omega) (by omega)

theorem wants_iff (hdirection : (speedStepControl c.speedStepTarget).direction = direction)
    (functions : UInt32) : c.Wants functions pin ↔
      (cvSettings (ReadableStore.cvs store)).config.Wants direction functions pin := by
  have hmap (i : Fin 32) :
      ((cvSettings (ReadableStore.cvs store)).config.functionMap direction).get i =
        c.functionOutputs i := by
    rw [functionOutputs_eq hcvs hdirection]
    cases direction <;> exact Vector.getElem_ofFn _
  constructor
  · rintro ⟨i, hi, hbit, hpin⟩
    refine ⟨⟨i, hi⟩, hbit, ?_⟩
    rw [hmap]
    exact hpin
  · rintro ⟨i, hbit, hpin⟩
    rw [hmap] at hpin
    exact ⟨i, i.isLt, hbit, hpin⟩

/-- The registers of a PWM output. -/
theorem initOutputs_eq {gpioAllowedOutputs : UInt32} (hpin : pin < 32)
    (hallowed : bit gpioAllowedOutputs pin = true) (hpwm : bit (c.get32bitCV 111) pin = true) :
    (c.initOutputs gpioAllowedOutputs).levelTable pin =
        (cvSettings (ReadableStore.cvs store)).level pin ∧
      (c.initOutputs gpioAllowedOutputs).wrap (Core0.pwmGpioToSliceNum pin) =
        (cvSettings (ReadableStore.cvs store)).wrap pin := by
  have hsize : CV_SIZE = 1024 := rfl
  have hslice : pin / 2 % 8 < 8 := Nat.mod_lt _ (by decide)
  have henabled : bit (c.get32bitCV 111 &&& gpioAllowedOutputs) pin = true := by
    rw [bit_and, hpwm, hallowed, Bool.and_self]
  have hwrap := congrArg Prod.fst (Core0.initOutputs_slice hpin henabled)
  rw [Core0.initOutputs_levelTable hpin henabled]
  simp only at hwrap
  rw [hwrap, Core0.pwmGpioToSliceNum, Core0.pwmGpioToChannel]
  constructor
  · rw [cvWord_congr hcvs (by omega) (by omega)]
    rw [Settings.level]
    simp only [cvSettings, cvPwmConfig]
    by_cases heven : pin % 2 = 0
    · rw [if_pos heven, heven, Nat.mul_zero, Nat.add_zero]
    · rw [if_neg heven, show pin % 2 = 1 by omega]
      congr 1
      omega
  · exact cvWord_congr hcvs (by omega) (by omega)

end SameCvs

/-- Two settings of the same output are the same unless the level is refused. -/
theorem ite_level_eq_iff {wants : Prop} [Decidable wants] {level wrap : UInt16} :
    (if wants ∧ level ≤ wrap then level else 0) = (if wants then level else 0) ↔
      (wants → level ≤ wrap) := by
  by_cases hw : wants
  · by_cases hle : level ≤ wrap
    · simp [hw, hle]
    · have hne : (0 : UInt16) ≠ level := by
        rintro rfl
        exact hle UInt16.zero_le
      simp [hw, hle, hne]
  · simp [hw]

/-- A pin of a Rust firmware that is not sending, against the C firmware. -/
theorem pinState_eq_iff {gpioAllowedOutputs : UInt32} {decoderId : UInt8}
    (hs : Agrees (Core0.startedBoard gpioAllowedOutputs decoderId c₀) store c₀ ops self c)
    (hcvs : SameCvs c₀.cv (ReadableStore.cvs store)) (hsending : self.sending = none)
    {v : VelocitySetpoint} (hv : lastVelocity ops = some v) {d : OutputDriver G P}
    (hd : d ∈ self.packetHandler.fgHandler.outputDrivers.toList)
    (hallowed : bit gpioAllowedOutputs d.pin.toNat = true) :
    d.state = c.pinState (c₀.initOutputs gpioAllowedOutputs) d.pin.toNat ↔
      (bit (cvSettings (ReadableStore.cvs store)).pwmEnabledMask d.pin.toNat = true →
        (cvSettings (ReadableStore.cvs store)).config.Wants v.direction (flagsOf ops)
          d.pin.toNat →
        (cvSettings (ReadableStore.cvs store)).level d.pin.toNat ≤
          (cvSettings (ReadableStore.cvs store)).wrap d.pin.toNat) := by
  obtain ⟨done, hops, hfollows⟩ := hs.done
  rw [hsending, Option.toList_none, List.append_nil] at hops
  subst hops
  have hpin : d.pin.toNat < 32 := hfollows.reflects.pin_lt d hd
  have hdirection : directionOf ops = v.direction := by
    rw [directionOf, show (ops.filterMap Op.velocity).getLast? = some v from hv]
    rfl
  -- the Rust firmware shows its flags and direction
  have hshows := hfollows.reflects.shows d hd
  rw [hfollows.config, hfollows.flags, hfollows.direction, hdirection] at hshows
  rw [(hs.wired d hd).state_eq hshows]
  -- and the C firmware the same ones
  have hcvs' : SameCvs c.cv (ReadableStore.cvs store) := by
    intro n hn
    rw [← hcvs hn, Core0.cv, Core0.cv, Core0.cvArrayFlash, Core0.cvArrayFlash, hs.flash]
  have hwants : c.Wants c.activeFunctions d.pin.toNat ↔
      (cvSettings (ReadableStore.cvs store)).config.Wants v.direction (flagsOf ops)
        d.pin.toNat := by
    rw [hs.functions]
    exact wants_iff hcvs' (congrArg VelocitySetpoint.direction (hs.speed v hv)).symm _
  have hmask := pwmEnabled_eq hcvs'
  have hmask₀ := pwmEnabled_eq hcvs
  rw [Core0.pinState, hmask]
  cases hpwm : bit (cvSettings (ReadableStore.cvs store)).pwmEnabledMask d.pin.toNat with
  | true =>
    obtain ⟨hlevel, hwrap⟩ := initOutputs_eq hcvs hpin hallowed (hmask₀ ▸ hpwm)
    have hc := hs.shown.pwmLevel d.pin.toNat hpin
    rw [hmask, hpwm] at hc
    have hlevel' : (Core0.startedBoard gpioAllowedOutputs decoderId c₀).levelTable d.pin.toNat =
        (cvSettings (ReadableStore.cvs store)).level d.pin.toNat := hlevel
    simp only [true_and, hwants, hlevel'] at hc
    rw [if_pos rfl, if_pos rfl, hwrap, hc, PinState.pwm.injEq]
    simp only [decide_eq_true_eq, and_true, true_implies]
    exact ite_level_eq_iff
  | false =>
    have hc := hs.shown.gpio d.pin.toNat hpin
    have hallowed' : bit (Core0.startedBoard gpioAllowedOutputs decoderId c₀).gpioAllowedOutputs
        d.pin.toNat = true := hallowed
    rw [hmask, hpwm, hallowed', decide_eq_decide.mpr hwants, Bool.not_false, Bool.true_and,
      Bool.true_and] at hc
    rw [if_neg Bool.false_ne_true, if_neg Bool.false_ne_true, hc]
    exact iff_of_true rfl fun h => by cases h

/-- A Rust firmware that is not sending, against the C firmware. -/
theorem outputs_of_agrees {gpioAllowedOutputs : UInt32} {decoderId : UInt8}
    (hallowed : ∀ pin ∈ functionPins, bit gpioAllowedOutputs pin.toNat = true)
    (hs : Agrees (Core0.startedBoard gpioAllowedOutputs decoderId c₀) store c₀ ops self c)
    (hcvs : SameCvs c₀.cv (ReadableStore.cvs store)) (hsending : self.sending = none)
    {v : VelocitySetpoint} (hv : lastVelocity ops = some v) :
    c.activeFunctions = self.packetHandler.fgHandler.flags ∧
    v = speedStepControl c.speedStepTarget ∧
    ∀ d ∈ self.packetHandler.fgHandler.outputDrivers.toList,
      d.state = c.pinState (c₀.initOutputs gpioAllowedOutputs) d.pin.toNat ↔
        (bit (cvSettings (ReadableStore.cvs store)).pwmEnabledMask d.pin.toNat = true →
          (cvSettings (ReadableStore.cvs store)).config.Wants v.direction
            self.packetHandler.fgHandler.flags d.pin.toNat →
          (cvSettings (ReadableStore.cvs store)).level d.pin.toNat ≤
            (cvSettings (ReadableStore.cvs store)).wrap d.pin.toNat) := by
  obtain ⟨done, hops, hfollows⟩ := hs.done
  rw [hsending, Option.toList_none, List.append_nil] at hops
  have hflags : self.packetHandler.fgHandler.flags = flagsOf ops := by
    rw [hfollows.flags, hops]
  refine ⟨hs.functions.trans hflags.symm, hs.speed v hv, fun d hd => ?_⟩
  have hmem : d.pin ∈ functionPins := hfollows.reflects.pins ▸ List.mem_map_of_mem hd
  rw [hflags]
  exact pinState_eq_iff hs hcvs hsending hv hd (hallowed d.pin hmem)

/-- Firmwares that have booted from the same flash. -/
theorem sameCvs_new {p : Profile} (flash : RpFlash) :
    SameCvs (Core0.boot flash).cv (ReadableStore.cvs (Flash.new flash : Flash p)) := by
  rintro n ⟨h₁, h₂⟩
  show (Core0.boot flash).cvArrayFlash (n - 1) = Flash.cvsOf flash.stored n
  rw [Flash.cvsOf_of_mem ⟨h₁, h₂⟩]
  exact dif_pos (by omega)

/-- The address 3, and for function 0 forward the output 0 and the PWM output 1,
with a level of 60 and a wrap of 0. -/
def bulbFlash : RpFlash :=
  ⟨fun i => if i.val = 0 then 3 else if i.val = 114 then 0b10 else if i.val = 121 then 60
    else if i.val = 259 then 0b11 else 0, fun _ => none, 0⟩

theorem bulb_fits : [(0x03 : UInt8), 0x90].length ≤ 6 := by decide

/-- F0 on. -/
def bulbReceived : Received := ⟨[0x03, 0x90, 0x93], ⟨[0x03, 0x90], bulb_fits⟩, rfl, fun _ => 0⟩

/-- Speed step 4 forward. -/
def forwardReceived : Received :=
  ⟨[0x03, 0x3F, 0x85, 0xB9], ⟨[0x03, 0x3F, 0x85], by decide⟩, rfl, fun _ => 0⟩

/-- The C firmware leaves all function pins to the CVs. -/
theorem allowed_functionPins : ∀ pin ∈ functionPins, bit 0x0F00003F pin.toNat = true := by
  decide +kernel

def bulbStore : Flash .release := .new bulbFlash

end Application

end Rp2040
