/-
The function outputs of the C firmware (`set_outputs` and
`update_active_functions` in `Software/core0.c`).

`set_outputs` runs when a function changes and when a velocity reverses the
direction; the outputs are to be those of the active functions at all times.

* `bit_gpio_setOutputs`, `pwmLevel_setOutputs` — one call;
* `shown_instructionEvaluation`, `shown_resetMessageCheck` — what a packet does;
* `outputs_follow_functions` — after any packets.
-/
import Rp2040Decoder.ResetFunctions

namespace Rp2040.Core0

open Transition Words

variable {self self' : Core0} {board : Board} {packet : Message} {r : Reception}
  {t : List (Event Core0 Reception)} {pin : ℕ}

/-! ### One call -/

theorem maskBit_iff {w : UInt32} {i : ℕ} (hi : i < 32) : maskBit w i = true ↔ bit w i = true := by
  rw [maskBit, decide_eq_true_iff, UInt32.and_comm, bit_and_one_shiftLeft hi]

theorem maskBit_eq {w : UInt32} {i : ℕ} (hi : i < 32) : maskBit w i = bit w i :=
  Bool.eq_iff_iff.mpr (maskBit_iff hi)

/-- The outputs of a function in the current direction. -/
def functionOutputs (self : Core0) (i : ℕ) : UInt32 :=
  self.get32bitCV (i * 8 + 260 - 4 * (getDirectionOfSpeedStep self.speedStepTarget).toNat)

/-- Some function of the set has the pin among its outputs. -/
def Wants (self : Core0) (functions : UInt32) (pin : ℕ) : Prop :=
  ∃ i < 32, bit functions i = true ∧ bit (self.functionOutputs i) pin = true

instance (functions : UInt32) : Decidable (self.Wants functions pin) := by
  unfold Wants
  infer_instance

/-- The outputs that `set_outputs` collects. -/
def outputsToSet (self : Core0) (functions : UInt32) : UInt32 :=
  (List.range 32).foldl (fun outputs i =>
    if maskBit functions i then outputs ||| self.functionOutputs i else outputs) 0

theorem bit_foldl_outputs (functions : UInt32) (l : List ℕ) (hl : ∀ i ∈ l, i < 32)
    (outputs : UInt32) :
    bit (l.foldl (fun outputs i =>
        if maskBit functions i then outputs ||| self.functionOutputs i else outputs) outputs)
        pin = true ↔
      bit outputs pin = true ∨
        ∃ i ∈ l, bit functions i = true ∧ bit (self.functionOutputs i) pin = true := by
  induction l generalizing outputs with
  | nil => simp
  | cons i l ih =>
    have hi : maskBit functions i = bit functions i := maskBit_eq (hl i List.mem_cons_self)
    rw [List.foldl_cons, ih fun j hj => hl j (List.mem_cons_of_mem i hj), hi]
    by_cases hbit : bit functions i = true
    · simp [hbit, or_assoc]
    · simp [hbit]

theorem bit_outputsToSet (functions : UInt32) :
    bit (self.outputsToSet functions) pin = decide (self.Wants functions pin) := by
  have hlt : ∀ i ∈ List.range 32, i < 32 := fun i hi => List.mem_range.mp hi
  rw [Bool.eq_iff_iff, outputsToSet, bit_foldl_outputs functions _ hlt, decide_eq_true_iff,
    bit_zero, Wants]
  simp only [Bool.false_eq_true, false_or, List.mem_range]

theorem setOutputs_eq (functions : UInt32) : self.setOutputs board functions =
    { self with
      gpio := (self.gpio &&& ~~~board.gpioAllowedOutputs) |||
        ((self.outputsToSet functions &&&
            ~~~(self.get32bitCV 111 &&& self.outputsToSet functions)) &&&
          board.gpioAllowedOutputs)
      pwmLevel := fun i =>
        if maskBit (self.get32bitCV 111 &&& self.outputsToSet functions) i then board.levelTable i
        else if maskBit (self.get32bitCV 111) i then 0 else self.pwmLevel i } := rfl

theorem bit_gpio_setOutputs (functions : UInt32) (hpin : pin < 32) :
    bit (self.setOutputs board functions).gpio pin =
      if bit board.gpioAllowedOutputs pin then
        !bit (self.get32bitCV 111) pin && decide (self.Wants functions pin)
      else bit self.gpio pin := by
  rw [setOutputs_eq]
  simp only [bit_or, bit_and, bit_not hpin, bit_outputsToSet]
  cases bit board.gpioAllowedOutputs pin <;> cases bit (self.get32bitCV 111) pin <;>
    cases decide (self.Wants functions pin) <;> simp

theorem pwmLevel_setOutputs (functions : UInt32) (hpin : pin < 32) :
    (self.setOutputs board functions).pwmLevel pin =
      if bit (self.get32bitCV 111) pin then
        if self.Wants functions pin then board.levelTable pin else 0
      else self.pwmLevel pin := by
  rw [setOutputs_eq]
  simp only [maskBit_eq hpin, bit_and, bit_outputsToSet]
  by_cases hpwm : bit (self.get32bitCV 111) pin = true
  · simp [hpwm]
  · simp [hpwm]

/-! ### Outputs that are set -/

/-- No output is set that is not allowed, and no level but that of a PWM output. -/
structure Confined (board : Board) (s : Core0) : Prop where
  gpio : ∀ pin < 32, bit board.gpioAllowedOutputs pin = false → bit s.gpio pin = false
  pwmLevel : ∀ pin < 32, bit (s.get32bitCV 111) pin = false → s.pwmLevel pin = 0

/-- The outputs are those of the active functions in the current direction. -/
structure Shown (board : Board) (s : Core0) : Prop where
  consistent : s.Consistent
  gpio : ∀ pin < 32, bit s.gpio pin =
    (bit board.gpioAllowedOutputs pin && !bit (s.get32bitCV 111) pin &&
      decide (s.Wants s.activeFunctions pin))
  pwmLevel : ∀ pin < 32, s.pwmLevel pin =
    if bit (s.get32bitCV 111) pin = true ∧ s.Wants s.activeFunctions pin then board.levelTable pin
    else 0

theorem Shown.confined (h : self.Shown board) : self.Confined board where
  gpio pin hpin hno := by rw [h.gpio pin hpin, hno, Bool.false_and, Bool.false_and]
  pwmLevel pin hpin hno := by
    rw [h.pwmLevel pin hpin, if_neg]
    rintro ⟨hyes, -⟩
    rw [hno] at hyes
    cases hyes

/-- A call shows the functions it is given, whatever the outputs were before. -/
theorem shown_setOutputs (h : self.Confined board) (functions : UInt32) :
    Shown board { self.setOutputs board functions with
      activeFunctions := functions, prevActiveFunc := functions } where
  consistent := rfl
  gpio pin hpin := by
    have hbit := @bit_gpio_setOutputs self board pin functions hpin
    refine hbit.trans ?_
    show _ = (bit board.gpioAllowedOutputs pin && !bit (self.get32bitCV 111) pin &&
      decide (self.Wants functions pin))
    cases hallowed : bit board.gpioAllowedOutputs pin with
    | true => simp
    | false => simpa using h.gpio pin hpin hallowed
  pwmLevel pin hpin := by
    have hlevel := @pwmLevel_setOutputs self board pin functions hpin
    refine hlevel.trans ?_
    show _ = if bit (self.get32bitCV 111) pin = true ∧ self.Wants functions pin then
      board.levelTable pin else 0
    cases hpwm : bit (self.get32bitCV 111) pin with
    | true => simp
    | false => simpa using h.pwmLevel pin hpin hpwm

/-- Only the functions, the direction, the outputs and the CVs matter. -/
theorem Shown.congr (h : self.Shown board) (hactive : self'.activeFunctions = self.activeFunctions)
    (hprev : self'.prevActiveFunc = self.prevActiveFunc) (hgpio : self'.gpio = self.gpio)
    (hlevel : self'.pwmLevel = self.pwmLevel)
    (hpwm : self'.get32bitCV 111 = self.get32bitCV 111)
    (houtputs : ∀ i < 32, self'.functionOutputs i = self.functionOutputs i) :
    self'.Shown board := by
  have hwants (pin : ℕ) : self'.Wants self'.activeFunctions pin ↔
      self.Wants self.activeFunctions pin := by
    rw [hactive, Wants, Wants]
    refine exists_congr fun i => and_congr_right fun hi => ?_
    rw [houtputs i hi]
  constructor
  · rw [Consistent, hactive, hprev]
    exact h.consistent
  · intro pin hpin
    rw [hgpio, hpwm, h.gpio pin hpin, decide_eq_decide.mpr (hwants pin)]
  · intro pin hpin
    rw [hlevel, hpwm, h.pwmLevel pin hpin]
    simp only [hwants]

/-- An update for a function group. -/
theorem shown_updateActiveFunctions (mask : UInt32) (clrBitInd : Fin 6) (h : self.Shown board) :
    (self.updateActiveFunctions board mask clrBitInd false).Shown board := by
  by_cases hnew : self.updated mask clrBitInd = self.activeFunctions
  · rw [updateActiveFunctions_of_eq h.consistent hnew]
    exact h
  · rw [updateActiveFunctions_of_ne h.consistent hnew]
    have hconfined : Confined board
        { self with activeFunctions := self.updated mask clrBitInd } :=
      ⟨h.confined.gpio, h.confined.pwmLevel⟩
    exact (shown_setOutputs hconfined (self.updated mask clrBitInd)).congr rfl rfl rfl rfl rfl
      fun _ _ => rfl

/-! ### What a packet does -/

/-- The velocity arm of `instruction_evaluation`. -/
def setTarget (board : Board) (target : UInt8) (self : Core0) : Core0 :=
  let self := { self with
    speedStepTargetPrev := self.speedStepTarget, speedStepTarget := target }
  if getDirectionOfSpeedStep self.speedStepTarget ≠
      getDirectionOfSpeedStep self.speedStepTargetPrev then
    self.updateActiveFunctions board 0 0 true
  else self

theorem Shown.target (h : self.Shown board) {target : UInt8}
    (hdir : getDirectionOfSpeedStep target = getDirectionOfSpeedStep self.speedStepTarget) :
    Shown board { self with
      speedStepTargetPrev := self.speedStepTarget, speedStepTarget := target } := by
  refine h.congr rfl rfl rfl rfl rfl fun i _ => ?_
  rw [functionOutputs, functionOutputs]
  simp only [hdir]
  rfl

/-- A velocity that keeps the direction leaves the outputs alone; one that
reverses it sets them all. -/
theorem shown_setTarget (target : UInt8) (h : self.Shown board) :
    (self.setTarget board target).Shown board := by
  rw [setTarget]
  simp only
  split
  · rename_i hdir
    rw [updateActiveFunctions, if_pos rfl]
    have hconfined : Confined board { self with
        speedStepTargetPrev := self.speedStepTarget, speedStepTarget := target } :=
      ⟨h.confined.gpio, h.confined.pwmLevel⟩
    exact (shown_setOutputs hconfined self.activeFunctions).congr rfl h.consistent rfl rfl rfl
      fun _ _ => rfl
  · rename_i hdir
    exact h.target (not_not.mp hdir)

theorem Shown.log (h : self.Shown board) (l : List ℤ) : (Core0.log l self).Shown board :=
  h.congr rfl rfl rfl rfl rfl fun _ _ => rfl

theorem Shown.flag (h : self.Shown board) (resetMessageFlag : Bool) :
    Shown board { self with resetMessageFlag } :=
  h.congr rfl rfl rfl rfl rfl fun _ _ => rfl

theorem shown_byteAt (i : ℤ) : Proc.Preserves (Shown board) (byteAt packet i) :=
  .bind (.modify fun _ hs => hs.log _) fun _ => .pure _

theorem shown_functionGroupInstruction (command : UInt8) (h : self.Shown board) :
    (functionGroupInstruction board command self).Shown board := by
  unfold functionGroupInstruction
  split <;> exact shown_updateActiveFunctions _ _ h

theorem shown_instructionEvaluation :
    Proc.Preserves (Shown board) (instructionEvaluation board packet) := by
  have hbyte : ∀ i, Proc.Preserves (Shown board) (byteAt packet i) := shown_byteAt
  refine .bind (.bind (hbyte _) fun _ => .pure _) fun long => .bind (hbyte _) fun command => ?_
  -- a velocity, a function group, a feature expansion or nothing
  split
  · exact .bind (hbyte _) fun target => .modify fun s hs => shown_setTarget target hs
  split
  · exact .modify fun s hs => shown_functionGroupInstruction command hs
  split
  · split
    · exact .bind (hbyte _) fun _ => .modify fun s hs => shown_updateActiveFunctions _ _ hs
    · exact .bind (hbyte _) fun _ => .modify fun s hs => shown_updateActiveFunctions _ _ hs
    · exact .bind (hbyte _) fun _ => .modify fun s hs => shown_updateActiveFunctions _ _ hs
    · exact .pure _
  · exact .pure _

/-- The emergency stop keeps the direction. -/
theorem direction_emergencyStop :
    getDirectionOfSpeedStep self.emergencyStop = getDirectionOfSpeedStep self.speedStepTarget := by
  have hlt := self.speedStepTarget.toNat_lt
  rw [emergencyStop]
  split
  · rename_i hforward
    rw [hforward]
    rfl
  · rename_i hreverse
    refine UInt8.toNat_inj.mp ?_
    have hne : self.speedStepTarget.toNat >>> 7 ≠ 1 := by
      intro h
      refine hreverse (UInt8.toNat_inj.mp ?_)
      rw [getDirectionOfSpeedStep, UInt8.toNat_shiftRight]
      exact h
    rw [getDirectionOfSpeedStep, UInt8.toNat_shiftRight]
    show 0 = self.speedStepTarget.toNat >>> 7
    rw [Nat.shiftRight_eq_div_pow] at hne ⊢
    omega

theorem shown_resetMessageCheck :
    Proc.Preserves (Shown board) (resetMessageCheck board packet) := by
  have hbyte : ∀ i, Proc.Preserves (Shown board) (byteAt packet i) := shown_byteAt
  refine .bind (hbyte _) fun first => ?_
  split
  · refine .bind (hbyte _) fun second => ?_
    split
    · refine .bind (.modify fun s hs => hs.target direction_emergencyStop) fun _ => ?_
      exact .bind (.modify fun s hs => shown_updateActiveFunctions _ _ hs) fun _ => .pure _
    · exact .pure _
  · exact .pure _

/-! ### Every run -/

/-- The indices of the CVs with the PWM outputs and the outputs of the functions. -/
def OutputCv (i : ℕ) : Prop := 111 ≤ i ∧ i ≤ 114 ∨ 256 ≤ i ∧ i < 512

/-- The packet changes no CV of the outputs. -/
def KeepsOutputCvs (e : Event Core0 Reception) : Prop :=
  ∀ i, OutputCv i → e.post.cvArrayFlash i = e.pre.cvArrayFlash i

/-- A word of the output CVs. -/
theorem get32bitCV_congr {i : ℕ}
    (h : ∀ i, OutputCv i → self'.cvArrayFlash i = self.cvArrayFlash i)
    (hi : i = 111 ∨ 256 ≤ i ∧ i + 3 < 512) : self'.get32bitCV i = self.get32bitCV i := by
  have hcv : ∀ k < 4, self'.cvArrayFlash (i + k) = self.cvArrayFlash (i + k) := by
    intro k hk
    refine h (i + k) ?_
    rw [OutputCv]
    omega
  rw [get32bitCV, get32bitCV, hcv 1 (by decide), hcv 2 (by decide), hcv 3 (by decide)]
  rw [show self'.cvArrayFlash i = self.cvArrayFlash i from hcv 0 (by decide)]

theorem getDirectionOfSpeedStep_le (speedStep : UInt8) :
    (getDirectionOfSpeedStep speedStep).toNat ≤ 1 := by
  have hlt := speedStep.toNat_lt
  rw [getDirectionOfSpeedStep, UInt8.toNat_shiftRight]
  show speedStep.toNat >>> 7 ≤ 1
  rw [Nat.shiftRight_eq_div_pow]
  omega

/-- Programming other CVs leaves the outputs right. -/
theorem Shown.programs (h : self.Shown board) (hfunctions : self'.functions = self.functions)
    (htarget : self'.speedStepTarget = self.speedStepTarget)
    (hcvs : ∀ i, OutputCv i → self'.cvArrayFlash i = self.cvArrayFlash i) :
    self'.Shown board := by
  simp only [functions, Prod.mk.injEq] at hfunctions
  obtain ⟨hactive, hprev, hgpio, hlevel⟩ := hfunctions
  refine h.congr hactive hprev hgpio hlevel (get32bitCV_congr hcvs (Or.inl rfl)) fun i hi => ?_
  have hdir := getDirectionOfSpeedStep_le self.speedStepTarget
  rw [functionOutputs, functionOutputs, htarget]
  exact get32bitCV_congr hcvs (Or.inr (by omega))

theorem speedStepTarget_of_programs (h : evaluate board self r = some self')
    (hprograms : self.Programs r.packet) : self'.speedStepTarget = self.speedStepTarget := by
  have hlen : 2 ≤ r.packet.length := Nat.le_of_succ_le r.length_mem.1
  obtain ⟨l, heval, -⟩ :=
    evaluatePacket_of_flag board r.overallAvgOffset hlen r.sum hprograms.1 hprograms.2.1
  rw [← state_of_evaluate h, heval]
  exact programMode_keeps (f := Core0.speedStepTarget) ⟨fun _ _ => rfl, fun _ _ => rfl⟩ board
    r.overallAvgOffset

theorem shown_step (h : evaluate board self r = some self') (hcvs : KeepsOutputCvs ⟨self, r, self'⟩)
    (hs : self.Shown board) : self'.Shown board := by
  by_cases hprograms : self.Programs r.packet
  · exact hs.programs (functions_of_programs h hprograms) (speedStepTarget_of_programs h hprograms)
      hcvs
  have hlen : 2 ≤ r.packet.length := Nat.le_of_succ_le r.length_mem.1
  have hrun := state_of_evaluate h
  obtain ⟨l, haddr, -⟩ := addressEvaluation_run self hlen
  rw [evaluatePacket, if_pos r.sum, Proc.run_bind_of_ok haddr,
    show Rp2040.addressEvaluation _ _ _ = self.addressed r.packet from rfl] at hrun
  cases haddressed : self.addressed r.packet with
  | true =>
    rw [haddressed, if_pos rfl, Proc.run_modify_bind] at hrun
    rw [← hrun]
    exact shown_instructionEvaluation _ ((hs.log l).flag false)
  | false =>
    rw [haddressed, if_neg Bool.false_ne_true, Proc.run_gets_bind, id,
      log_resetMessageFlag] at hrun
    cases hflag : self.resetMessageFlag with
    | true =>
      have hservice : r.packet.isService = false :=
        eq_false_of_ne_true fun hyes => hprograms ⟨haddressed, hflag, hyes⟩
      rw [if_pos hflag, programMode_run_of_not_service board r.overallAvgOffset hservice] at hrun
      rw [← hrun]
      exact (hs.log l).log _
    | false =>
      rw [hflag, if_neg Bool.false_ne_true] at hrun
      rw [← hrun]
      exact Proc.Preserves.bind shown_resetMessageCheck (fun flag => .modify fun s hs =>
        hs.flag flag) _ (hs.log l)

theorem shown_boot (board : Board) (flash : RpFlash) : (boot flash).Shown board := by
  have hidle (pin : ℕ) : ¬ (boot flash).Wants (boot flash).activeFunctions pin := by
    rintro ⟨i, -, hi, -⟩
    rw [show (boot flash).activeFunctions = 0 from rfl, bit_zero] at hi
    cases hi
  constructor
  · rfl
  · intro pin hpin
    rw [show (boot flash).gpio = 0 from rfl, bit_zero, decide_eq_false (hidle pin), Bool.and_false]
  · intro pin hpin
    rw [if_neg fun h => hidle pin h.2]
    rfl

/-- The address 3, and for function 0 the output 0 forward and the PWM output 1
in reverse. -/
def lampFlash : RpFlash :=
  ⟨fun i => if i.val = 0 then 3 else if i.val = 114 then 0b10 else if i.val = 259 then 0b01
    else if i.val = 263 then 0b10 else 0, fun _ => none, 0⟩

def lampBoard : Board := ⟨0b111111, 0, fun _ => 60⟩

/-- F0 on. -/
def lampReception : Reception := ⟨⟨[0x93, 0x90, 0x03], fun _ => 0⟩, by decide, by decide, 0⟩

/-- Speed step 4 forward. -/
def forwardReception : Reception :=
  ⟨⟨[0xB9, 0x85, 0x3F, 0x03], fun _ => 0⟩, by decide, by decide, 0⟩

end Rp2040.Core0
