/-
The functions after a reset message (`reset_message_check` in
`Software/core0.c`).

A reset message is to disable all functions.  It writes zeros to one function
group, F0-F4, and the outputs are set only if that changes anything.

* `outputsClear_iff` — when the outputs are those of the empty set;
* `FunctionInvariant` — what is kept by all that a packet does to the functions;
* `consistent_run`, `settled_run` — the functions of the last update, and the
  outputs while there are none;
* `resetMessage_iff` — when a reset message disables all functions.
-/
import Rp2040Decoder.ResetMessage

namespace Rp2040.Core0

open Transition

variable {self self' : Core0} {board : Board} {packet : Message} {r : Reception}
  {t : List (Event Core0 Reception)}

/-! ### The outputs of no function -/

theorem maskBit_zero (i : ℕ) : maskBit 0 i = false := by
  simp [maskBit]

theorem setOutputs_zero : self.setOutputs board 0 =
    { self with
      gpio := self.gpio &&& ~~~board.gpioAllowedOutputs
      pwmLevel := fun i => if maskBit (self.get32bitCV 111) i then 0 else self.pwmLevel i } := by
  have hnone : ∀ l : List ℕ, l.foldl (fun outputs i =>
      if maskBit 0 i then
        outputs ||| self.get32bitCV
          (i * 8 + 260 - 4 * (getDirectionOfSpeedStep self.speedStepTarget).toNat)
      else outputs) 0 = 0 := by
    intro l
    induction l with
    | nil => rfl
    | cons i l ih => rw [List.foldl_cons, maskBit_zero, if_neg Bool.false_ne_true, ih]
  rw [setOutputs, hnone]
  simp [maskBit_zero]

/-- The outputs are those of the empty function set: setting them for it
changes nothing. -/
def OutputsClear (board : Board) (self : Core0) : Prop := self.setOutputs board 0 = self

theorem outputsClear_iff : self.OutputsClear board ↔
    self.gpio &&& ~~~board.gpioAllowedOutputs = self.gpio ∧
    ∀ i, maskBit (self.get32bitCV 111) i = true → self.pwmLevel i = 0 := by
  rw [OutputsClear, setOutputs_zero]
  constructor
  · intro h
    refine ⟨congrArg Core0.gpio h, fun i hi => ?_⟩
    have hlevel := congrFun (congrArg Core0.pwmLevel h) i
    simpa [hi] using hlevel.symm
  · rintro ⟨hgpio, hlevel⟩
    have hpwm : (fun i => if maskBit (self.get32bitCV 111) i then 0 else self.pwmLevel i) =
        self.pwmLevel := by
      funext i
      split
      · rename_i hi
        exact (hlevel i hi).symm
      · rfl
    rw [hgpio, hpwm]

theorem outputsClear_setOutputs : (self.setOutputs board 0).OutputsClear board := by
  rw [outputsClear_iff, setOutputs_zero]
  refine ⟨?_, fun i hi => ?_⟩
  · show self.gpio &&& ~~~board.gpioAllowedOutputs &&& ~~~board.gpioAllowedOutputs = _
    rw [UInt32.and_assoc, UInt32.and_self]
  · show (if _ then _ else _) = _
    exact if_pos hi

/-- Only the outputs and the CVs of the PWM outputs matter. -/
theorem OutputsClear.congr (h : self.OutputsClear board) (hgpio : self'.gpio = self.gpio)
    (hpwm : self'.pwmLevel = self.pwmLevel) (hcv : self'.get32bitCV 111 = self.get32bitCV 111) :
    self'.OutputsClear board := by
  rw [outputsClear_iff] at h ⊢
  rwa [hgpio, hpwm, hcv]

/-! ### What a packet does to the functions -/

/-- An invariant of every access to the functions and the speed target. -/
structure FunctionInvariant (board : Board) (I : Core0 → Prop) : Prop where
  log : ∀ s l, I s → I (log l s)
  flag : ∀ s resetMessageFlag, I s → I { s with resetMessageFlag }
  target : ∀ s speedStepTarget, I s →
    I { s with speedStepTargetPrev := s.speedStepTarget, speedStepTarget }
  update : ∀ s mask clrBitInd directionChange, I s →
    I (s.updateActiveFunctions board mask clrBitInd directionChange)

section

variable {I : Core0 → Prop} (hI : FunctionInvariant board I)

include hI

theorem byteAt_preserves (i : ℤ) : Proc.Preserves I (byteAt packet i) :=
  .bind (.modify fun s => hI.log s _) fun _ => .pure _

theorem functionGroupInstruction_preserves (command : UInt8) (h : I self) :
    I (functionGroupInstruction board command self) := by
  unfold functionGroupInstruction
  split <;> exact hI.update _ _ _ _ h

theorem instructionEvaluation_preserves :
    Proc.Preserves I (instructionEvaluation board packet) := by
  have hbyte : ∀ i, Proc.Preserves I (byteAt packet i) := byteAt_preserves hI
  refine .bind (.bind (hbyte _) fun _ => .pure _) fun long => .bind (hbyte _) fun command => ?_
  split
  · refine .bind (hbyte _) fun target => .modify fun s hs => ?_
    simp only
    split
    · exact hI.update _ _ _ _ (hI.target s target hs)
    · exact hI.target s target hs
  split
  · exact .modify fun s hs => functionGroupInstruction_preserves hI command hs
  split
  · split
    · exact .bind (hbyte _) fun _ => .modify fun s hs => hI.update _ _ _ _ hs
    · exact .bind (hbyte _) fun _ => .modify fun s hs => hI.update _ _ _ _ hs
    · exact .bind (hbyte _) fun _ => .modify fun s hs => hI.update _ _ _ _ hs
    · exact .pure _
  · exact .pure _

theorem resetMessageCheck_preserves : Proc.Preserves I (resetMessageCheck board packet) := by
  have hbyte : ∀ i, Proc.Preserves I (byteAt packet i) := byteAt_preserves hI
  refine .bind (hbyte _) fun first => ?_
  split
  · refine .bind (hbyte _) fun second => ?_
    split
    · refine .bind (.modify fun s hs => hI.target s _ hs) fun _ => ?_
      exact .bind (.modify fun s hs => hI.update _ _ _ _ hs) fun _ => .pure _
    · exact .pure _
  · exact .pure _

omit hI in
theorem state_of_evaluate (h : evaluate board self r = some self') :
    ((evaluatePacket board r.overallAvgOffset r.packet).run self).2 = self' :=
  congrArg Prod.snd (run_of_evaluate h)

/-- A packet keeps the invariant, unless it is executed in program mode. -/
theorem evaluate_preserves (h : evaluate board self r = some self')
    (hprograms : self.Programs r.packet → I self → I self') (hs : I self) : I self' := by
  have hlen : 2 ≤ r.packet.length := Nat.le_of_succ_le r.length_mem.1
  have hrun := state_of_evaluate h
  obtain ⟨l, haddr, -⟩ := addressEvaluation_run self hlen
  have hlog := hI.log self l hs
  rw [evaluatePacket, if_pos r.sum, Proc.run_bind_of_ok haddr,
    show Rp2040.addressEvaluation _ _ _ = self.addressed r.packet from rfl] at hrun
  cases haddressed : self.addressed r.packet with
  | true =>
    rw [haddressed, if_pos rfl, Proc.run_modify_bind] at hrun
    rw [← hrun]
    exact instructionEvaluation_preserves hI _ (hI.flag _ false hlog)
  | false =>
    rw [haddressed, if_neg Bool.false_ne_true, Proc.run_gets_bind, id,
      log_resetMessageFlag] at hrun
    cases hflag : self.resetMessageFlag with
    | true =>
      rw [if_pos hflag] at hrun
      cases hservice : r.packet.isService with
      | true => exact hprograms ⟨haddressed, hflag, hservice⟩ hs
      | false =>
        rw [programMode_run_of_not_service board r.overallAvgOffset hservice] at hrun
        rw [← hrun]
        exact hI.log _ _ hlog
    | false =>
      rw [hflag, if_neg Bool.false_ne_true] at hrun
      rw [← hrun]
      exact Proc.Preserves.bind (resetMessageCheck_preserves hI)
        (fun flag => .modify fun s hs => hI.flag s flag hs) _ hlog

end

/-! ### The functions of the last update -/

/-- What a packet does to the functions. -/
def functions (self : Core0) : UInt32 × UInt32 × UInt32 × (ℕ → UInt16) :=
  (self.activeFunctions, self.prevActiveFunc, self.gpio, self.pwmLevel)

/-- The program mode leaves the functions alone. -/
theorem functions_of_programs (h : evaluate board self r = some self')
    (hprograms : self.Programs r.packet) : self'.functions = self.functions := by
  have hlen : 2 ≤ r.packet.length := Nat.le_of_succ_le r.length_mem.1
  have hrun := state_of_evaluate h
  obtain ⟨l, heval, -⟩ :=
    evaluatePacket_of_flag board r.overallAvgOffset hlen r.sum hprograms.1 hprograms.2.1
  rw [heval] at hrun
  rw [← hrun]
  exact programMode_keeps ⟨fun _ _ => rfl, fun _ _ => rfl⟩ board r.overallAvgOffset

/-- `prev_active_func` is `active_functions`. -/
def Consistent (self : Core0) : Prop := self.prevActiveFunc = self.activeFunctions

theorem consistent_updateActiveFunctions (mask : UInt32) (clrBitInd : Fin 6)
    (directionChange : Bool) (h : self.Consistent) :
    (self.updateActiveFunctions board mask clrBitInd directionChange).Consistent := by
  rw [updateActiveFunctions]
  split
  · exact h
  · simp only
    split <;> rfl

theorem functionInvariant_consistent : FunctionInvariant board Consistent where
  log _ _ h := h
  flag _ _ h := h
  target _ _ h := h
  update _ mask clrBitInd directionChange h :=
    consistent_updateActiveFunctions mask clrBitInd directionChange h

theorem consistent_run {flash : RpFlash}
    (hrun : Run (fun s r s' => evaluate board s r = some s') (boot flash) t self) :
    self.Consistent := by
  refine (hrun.invariant (I := Consistent) (fun s r s' hstep hs => ?_) rfl).1
  refine evaluate_preserves functionInvariant_consistent hstep (fun hprograms hs => ?_) hs
  have hfunctions := functions_of_programs hstep hprograms
  simp only [functions, Prod.mk.injEq] at hfunctions
  rw [Consistent, hfunctions.1, hfunctions.2.1]
  exact hs

/-- While no function is active, no output is on. -/
structure Settled (board : Board) (s : Core0) : Prop where
  consistent : s.Consistent
  idle : s.activeFunctions = 0 → s.OutputsClear board

/-- The active functions after an update. -/
def updated (mask : UInt32) (clrBitInd : Fin 6) (self : Core0) : UInt32 :=
  (self.activeFunctions &&& clrBitArr clrBitInd) ||| (mask &&& ~~~clrBitArr clrBitInd)

theorem updateActiveFunctions_false (mask : UInt32) (clrBitInd : Fin 6) :
    self.updateActiveFunctions board mask clrBitInd false =
      { (if self.updated mask clrBitInd ^^^ self.prevActiveFunc ≠ 0 then
          ({ self with activeFunctions := self.updated mask clrBitInd } : Core0).setOutputs board
            (self.updated mask clrBitInd)
        else { self with activeFunctions := self.updated mask clrBitInd }) with
        prevActiveFunc := self.updated mask clrBitInd } := by
  rw [updateActiveFunctions, if_neg Bool.false_ne_true]
  rfl

/-- An update that changes nothing. -/
theorem updateActiveFunctions_of_eq {mask : UInt32} {clrBitInd : Fin 6} (h : self.Consistent)
    (hnew : self.updated mask clrBitInd = self.activeFunctions) :
    self.updateActiveFunctions board mask clrBitInd false = self := by
  have hzero : ¬ self.activeFunctions ^^^ self.activeFunctions ≠ 0 :=
    not_not.mpr UInt32.xor_self
  rw [updateActiveFunctions_false, hnew, h, if_neg hzero]
  exact congrArg (fun prev => ({ self with prevActiveFunc := prev } : Core0)) h.symm

/-- Any other one sets the outputs. -/
theorem updateActiveFunctions_of_ne {mask : UInt32} {clrBitInd : Fin 6} (h : self.Consistent)
    (hnew : self.updated mask clrBitInd ≠ self.activeFunctions) :
    self.updateActiveFunctions board mask clrBitInd false =
      { ({ self with activeFunctions := self.updated mask clrBitInd } : Core0).setOutputs board
          (self.updated mask clrBitInd) with
        prevActiveFunc := self.updated mask clrBitInd } := by
  have hchange : self.updated mask clrBitInd ^^^ self.prevActiveFunc ≠ 0 := by
    rw [h]
    exact fun hzero => hnew (UInt32.xor_eq_zero_iff.mp hzero)
  rw [updateActiveFunctions_false, if_pos hchange]

theorem settled_updateActiveFunctions (mask : UInt32) (clrBitInd : Fin 6)
    (directionChange : Bool) (h : self.Settled board) :
    (self.updateActiveFunctions board mask clrBitInd directionChange).Settled board := by
  refine ⟨consistent_updateActiveFunctions mask clrBitInd directionChange h.consistent, ?_⟩
  cases directionChange with
  | true =>
    intro hzero
    have hactive : self.activeFunctions = 0 := hzero
    rw [updateActiveFunctions, if_pos rfl, hactive]
    exact outputsClear_setOutputs
  | false =>
    by_cases hnew : self.updated mask clrBitInd = self.activeFunctions
    · rw [updateActiveFunctions_of_eq h.consistent hnew]
      exact h.idle
    · rw [updateActiveFunctions_of_ne h.consistent hnew]
      intro hzero
      have hactive : self.updated mask clrBitInd = 0 := hzero
      rw [hactive]
      exact outputsClear_setOutputs.congr rfl rfl rfl

theorem functionInvariant_settled : FunctionInvariant board (Settled board) where
  log _ _ h := ⟨h.consistent, fun hzero => (h.idle hzero).congr rfl rfl rfl⟩
  flag _ _ h := ⟨h.consistent, fun hzero => (h.idle hzero).congr rfl rfl rfl⟩
  target _ _ h := ⟨h.consistent, fun hzero => (h.idle hzero).congr rfl rfl rfl⟩
  update _ mask clrBitInd directionChange h :=
    settled_updateActiveFunctions mask clrBitInd directionChange h

/-- The packet does not change the CVs that say which outputs are PWM outputs. -/
def KeepsPwmOutputs (e : Event Core0 Reception) : Prop :=
  e.post.get32bitCV 111 = e.pre.get32bitCV 111

theorem settled_run {flash : RpFlash}
    (hrun : Run (fun s r s' => evaluate board s r = some s') (boot flash) t self)
    (ht : ∀ e ∈ t, KeepsPwmOutputs e) : self.Settled board := by
  have hboot : (boot flash).Settled board := by
    refine ⟨rfl, fun _ => outputsClear_iff.mpr ⟨?_, fun _ _ => rfl⟩⟩
    exact UInt32.zero_and
  refine (hrun.invariant_on (I := Settled board) (C := KeepsPwmOutputs) ?_ hboot ht).1
  intro e hcv hstep hs
  refine evaluate_preserves functionInvariant_settled hstep (fun hprograms hs => ?_) hs
  have hfunctions := functions_of_programs hstep hprograms
  simp only [functions, Prod.mk.injEq] at hfunctions
  obtain ⟨hactive, hprev, hgpio, hpwm⟩ := hfunctions
  refine ⟨?_, fun hzero => ?_⟩
  · rw [Consistent, hactive, hprev]
    exact hs.consistent
  · rw [hactive] at hzero
    exact (hs.idle hzero).congr hgpio hpwm hcv

/-! ### The reset message -/

/-- The emergency stop of the current direction. -/
def emergencyStop (self : Core0) : UInt8 :=
  if getDirectionOfSpeedStep self.speedStepTarget = 1 then SPEED_STEP_FORWARD_EMERGENCY_STOP
  else SPEED_STEP_REVERSE_EMERGENCY_STOP

theorem resetMessageCheck_of_isReset (board : Board) (self : Core0) (h : packet.isReset = true) :
    ∃ s : Core0, (resetMessageCheck board packet).run self =
        (.ok true, s.updateActiveFunctions board 0 0 false) ∧
      s.speedStepTarget = self.emergencyStop ∧ s.activeFunctions = self.activeFunctions ∧
      s.prevActiveFunc = self.prevActiveFunc ∧ s.gpio = self.gpio ∧ s.pwmLevel = self.pwmLevel ∧
      s.flash = self.flash := by
  rw [Message.isReset, Bool.and_eq_true, beq_iff_eq, beq_iff_eq] at h
  rw [resetMessageCheck, run_byteAt_bind, if_pos h.1, run_byteAt_log, if_pos h.2]
  exact ⟨_, rfl, rfl, rfl, rfl, rfl, rfl, rfl⟩

theorem updateActiveFunctions_speedStepTarget (board : Board) (self : Core0) (mask : UInt32)
    (clrBitInd : Fin 6) (directionChange : Bool) :
    (self.updateActiveFunctions board mask clrBitInd directionChange).speedStepTarget =
      self.speedStepTarget := by
  rw [updateActiveFunctions]
  split
  · rfl
  · simp only
    split <;> rfl

/-- What the reset message is to leave behind. -/
structure Stopped (board : Board) (pre post : Core0) : Prop where
  activeFunctions : post.activeFunctions = 0
  speedStepTarget : post.speedStepTarget = pre.emergencyStop
  outputs : post.OutputsClear board

/-- The zeros for the first group leave the others. -/
theorem updated_zero : self.updated 0 0 = self.activeFunctions &&& clrBitArr 0 := by
  rw [updated, UInt32.zero_and, UInt32.or_zero]

theorem resetMessage_step (board : Board) (h : self.Consistent) (hreset : packet.isReset = true) :
    ∃ self', (resetMessageCheck board packet).run self = (.ok true, self') ∧
      (Stopped board self self' ↔ self.activeFunctions &&& clrBitArr 0 = 0 ∧
        (self.activeFunctions = 0 → self.OutputsClear board)) := by
  obtain ⟨s, hrun, htarget, hactive, hprev, hgpio, hpwm, hflash⟩ :=
    resetMessageCheck_of_isReset board self hreset
  have hs : s.Consistent := by rw [Consistent, hactive, hprev, h]
  have hupdated : s.updated 0 0 = self.activeFunctions &&& clrBitArr 0 := by
    rw [updated_zero, hactive]
  have hstop := updateActiveFunctions_speedStepTarget board s 0 0 false
  refine ⟨_, hrun, ?_⟩
  by_cases hnew : s.updated 0 0 = s.activeFunctions
  · -- nothing changes, and the outputs stay
    rw [updateActiveFunctions_of_eq hs hnew]
    have hsame : self.activeFunctions &&& clrBitArr 0 = self.activeFunctions := by
      rw [← hupdated, hnew, hactive]
    have hoff : self.OutputsClear board ↔ s.OutputsClear board := by
      have hcv : s.get32bitCV 111 = self.get32bitCV 111 := by
        simp only [get32bitCV, cvArrayFlash, hflash]
      exact ⟨fun hclear => hclear.congr hgpio hpwm hcv,
        fun hclear => hclear.congr hgpio.symm hpwm.symm hcv.symm⟩
    rw [hsame]
    constructor
    · rintro ⟨hzero, -, hclear⟩
      exact ⟨hactive ▸ hzero, fun _ => hoff.mpr hclear⟩
    · rintro ⟨hzero, hclear⟩
      exact ⟨hactive.trans hzero, htarget, hoff.mp (hclear hzero)⟩
  · -- the outputs are set for what remains
    have hne : self.activeFunctions ≠ 0 := by
      intro hzero
      rw [hupdated, hactive, hzero] at hnew
      exact hnew UInt32.zero_and
    rw [updateActiveFunctions_of_ne hs hnew] at hstop ⊢
    constructor
    · rintro ⟨hzero, -, -⟩
      exact ⟨hupdated.symm.trans hzero, fun hactive => absurd hactive hne⟩
    · rintro ⟨hzero, -⟩
      rw [← hupdated] at hzero
      refine ⟨hzero, hstop.trans htarget, ?_⟩
      rw [hzero]
      exact outputsClear_setOutputs.congr rfl rfl rfl

/-- **Reset messages.**  In every state that a run of packets reaches, a reset
message leaves no function active, the emergency stop as the target and the
outputs off exactly when no function from F5 on was active and, if there was
none at all, the outputs were off already.  They were unless a packet of the
run changed which outputs are PWM outputs. -/
theorem resetMessage_iff {flash : RpFlash}
    (hrun : Run (fun s r s' => evaluate board s r = some s') (boot flash) t self)
    (hreset : packet.isReset = true) :
    ∃ self', (resetMessageCheck board packet).run self = (.ok true, self') ∧
      (Stopped board self self' ↔ self.activeFunctions &&& clrBitArr 0 = 0 ∧
        (self.activeFunctions = 0 → self.OutputsClear board)) ∧
      ((∀ e ∈ t, KeepsPwmOutputs e) →
        (Stopped board self self' ↔ self.activeFunctions &&& clrBitArr 0 = 0)) := by
  obtain ⟨self', hself', hiff⟩ := resetMessage_step board (consistent_run hrun) hreset
  refine ⟨self', hself', hiff, fun ht => ?_⟩
  have hidle := (settled_run hrun ht).idle
  rw [hiff]
  exact and_iff_left hidle

/-- F1 on, for the locomotive with the address 3. -/
def f1Reception : Reception := ⟨⟨[0x82, 0x81, 0x03], fun _ => 0⟩, by decide, by decide, 0⟩

/-- A reset message turns F1 off again. -/
theorem resetMessage_stops_f1 :
    ∃ t self self', Run (fun s r s' => evaluate board₀ s r = some s') addressThree t self ∧
      self.activeFunctions = 2 ∧
      (resetMessageCheck board₀ resetReception.packet).run self = (.ok true, self') ∧
      Stopped board₀ self self' := by
  have hboot : boot ⟨fun i => if i.val = 0 then 3 else 0, fun _ => none, 0⟩ = addressThree := rfl
  have hrun := Run.of_exec (evaluate board₀) [f1Reception] (s := addressThree) rfl
  obtain ⟨self', hself', hiff, -⟩ := resetMessage_iff (hboot ▸ hrun)
    (show resetReception.packet.isReset = true by decide)
  refine ⟨_, _, self', hrun, by decide +kernel, hself', hiff.mpr ⟨by decide +kernel, fun h => ?_⟩⟩
  exact absurd h (by decide +kernel)

/-- F5 on, for the locomotive with the address 3. -/
def f5Reception : Reception := ⟨⟨[0xB2, 0xB1, 0x03], fun _ => 0⟩, by decide, by decide, 0⟩

/-- F5 stays on. -/
theorem not_stopped_f5 :
    ∃ t self self', Run (fun s r s' => evaluate board₀ s r = some s') addressThree t self ∧
      resetReception.packet.isReset = true ∧
      (resetMessageCheck board₀ resetReception.packet).run self = (.ok true, self') ∧
      ¬ Stopped board₀ self self' := by
  have hrun := Run.of_exec (evaluate board₀) [f5Reception] (s := addressThree) rfl
  refine ⟨_, _, _, hrun, by decide, rfl, fun hstopped => ?_⟩
  exact absurd hstopped.activeFunctions (by decide +kernel)

end Rp2040.Core0
