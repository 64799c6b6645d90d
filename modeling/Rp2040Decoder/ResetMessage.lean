/-
The reset message before a CV write (`reset_message_flag` in `Software/core0.c`).

A reset message sets the flag, a packet for the decoder clears it, and while it
is set every other packet goes to the program mode.  A packet for another
locomotive does not clear it.

* `flash_eq_of_not_programs` — CVs change in the program mode only;
* `preceded_step`, `preceded_run` — the flag is as old as the last reset
  message;
* `cv_change_preceded` — a CV change follows a reset message and service mode
  packets, unless the exchange was interrupted.
-/
import Rp2040Decoder.Core0Steps
import Rp2040Decoder.Runs

namespace Rp2040

open Transition

/-- A packet with a correct checksum, as `detect_dcc_packet` delivers it, and
what an ADC calibration would measure while it is evaluated. -/
structure Reception where
  packet : Message
  length_mem : 3 ≤ packet.length ∧ packet.length ≤ 5
  sum : Core0.errorDetection packet = true
  overallAvgOffset : UInt8

namespace Core0

variable {self self' : Core0} {board : Board} {r : Reception}
  {t : List (Event Core0 Reception)}

/-- The state after the packet, unless the power was lost. -/
def evaluate (board : Board) (self : Core0) (r : Reception) : Option Core0 :=
  match (evaluatePacket board r.overallAvgOffset r.packet).run self with
  | (.ok (), self') => some self'
  | (.error _, _) => none

theorem run_of_evaluate (h : evaluate board self r = some self') :
    (evaluatePacket board r.overallAvgOffset r.packet).run self = (.ok (), self') := by
  rw [evaluate] at h
  split at h
  · rename_i hrun
    rw [hrun, Option.some.inj h]
  · cases h

/-- The packet is executed in program mode. -/
def Programs (self : Core0) (packet : Message) : Prop :=
  self.addressed packet = false ∧ self.resetMessageFlag = true ∧ packet.isService = true

/-- CVs change in the program mode only. -/
theorem flash_eq_of_not_programs (h : ¬ self.Programs r.packet) :
    ((evaluatePacket board r.overallAvgOffset r.packet).run self).2.flash = self.flash := by
  have hlen : 2 ≤ r.packet.length := Nat.le_of_succ_le r.length_mem.1
  cases haddr : self.addressed r.packet with
  | true =>
    obtain ⟨l, self', hrun, -, hbut⟩ :=
      evaluatePacket_of_addressed board r.overallAvgOffset hlen r.sum haddr
    rw [hrun]
    exact hbut.flash
  | false =>
    cases hflag : self.resetMessageFlag with
    | true =>
      obtain ⟨l, hrun, -⟩ := evaluatePacket_of_flag board r.overallAvgOffset hlen r.sum haddr hflag
      rw [hrun, programMode_run_of_not_service board r.overallAvgOffset
        (eq_false_of_ne_true fun hs => h ⟨haddr, hflag, hs⟩)]
      rfl
    | false =>
      obtain ⟨l, self', hrun, -, hbut⟩ :=
        evaluatePacket_of_not_flag board r.overallAvgOffset hlen r.sum haddr hflag
      rw [hrun]
      exact hbut.flash

/-- A set flag was set by the packet, or was set before a packet for another
decoder. -/
theorem resetMessageFlag_step (h : evaluate board self r = some self')
    (hflag : self'.resetMessageFlag = true) :
    r.packet.isReset = true ∨
      self.resetMessageFlag = true ∧ self.addressed r.packet = false := by
  have hlen : 2 ≤ r.packet.length := Nat.le_of_succ_le r.length_mem.1
  have hrun := run_of_evaluate h
  -- a packet for this decoder clears the flag
  cases haddr : self.addressed r.packet with
  | true =>
    obtain ⟨l, s, hrun', -, hbut⟩ :=
      evaluatePacket_of_addressed board r.overallAvgOffset hlen r.sum haddr
    obtain rfl : s = self' := congrArg Prod.snd (hrun'.symm.trans hrun)
    rw [hbut.resetMessageFlag] at hflag
    cases hflag
  | false =>
    cases hold : self.resetMessageFlag with
    | true => exact Or.inr ⟨rfl, rfl⟩
    | false =>
      obtain ⟨l, s, hrun', -, hbut⟩ :=
        evaluatePacket_of_not_flag board r.overallAvgOffset hlen r.sum haddr hold
      obtain rfl : s = self' := congrArg Prod.snd (hrun'.symm.trans hrun)
      rw [hbut.resetMessageFlag] at hflag
      exact Or.inl hflag

/-! ### Runs -/

/-- A reset message was evaluated, and only service mode packets since. -/
def Preceded (t : List (Event Core0 Reception)) : Prop :=
  ∃ t₁ e t₂, t = t₁ ++ e :: t₂ ∧ e.label.packet.isReset = true ∧
    ∀ e' ∈ t₂, e'.label.packet.isService = true

/-- While the flag is set, a packet for another locomotive does not interrupt
the exchange. -/
def Uninterrupted (self : Core0) (packet : Message) : Prop :=
  self.resetMessageFlag = true →
    packet.isService = true ∨ packet.isReset = true ∨ self.addressed packet = true

theorem preceded_step (h : evaluate board self r = some self')
    (hC : self.Uninterrupted r.packet) (hinv : self.resetMessageFlag = true → Preceded t)
    (hflag : self'.resetMessageFlag = true) : Preceded (t ++ [⟨self, r, self'⟩]) := by
  -- the flag is new, or a service packet extends the exchange
  rcases resetMessageFlag_step h hflag with hreset | ⟨hold, haddr⟩
  · exact ⟨t, _, [], rfl, hreset, by simp⟩
  rcases hC hold with hservice | hreset | haddr'
  · obtain ⟨t₁, e, t₂, rfl, hreset, hall⟩ := hinv hold
    refine ⟨t₁, e, t₂ ++ [⟨self, r, self'⟩], by simp, hreset, fun e' he' => ?_⟩
    rcases List.mem_append.mp he' with he' | he'
    · exact hall e' he'
    · rw [List.mem_singleton.mp he']
      exact hservice
  · exact ⟨t, _, [], rfl, hreset, by simp⟩
  · rw [haddr] at haddr'
    cases haddr'

theorem preceded_run {flash : RpFlash}
    (hrun : Run (fun s r s' => evaluate board s r = some s') (boot flash) t self)
    (hC : ∀ e ∈ t, e.pre.Uninterrupted e.label.packet) :
    self.resetMessageFlag = true → Preceded t := by
  induction hrun with
  | nil => exact fun h => by cases h
  | snoc _ hstep ih =>
    exact preceded_step hstep (hC _ (List.mem_append_right _ (List.mem_singleton.mpr rfl)))
      (ih fun e he => hC e (List.mem_append_left _ he))

/-- **A CV write follows a reset message.**  In a run of valid packets in which
none for another locomotive comes while the flag is set, a packet that changes a
CV is a service mode packet, and so is every packet since the last reset
message. -/
theorem cv_change_preceded {flash : RpFlash}
    (hrun : Run (fun s r s' => evaluate board s r = some s') (boot flash) t self)
    (hC : ∀ e ∈ t, e.pre.Uninterrupted e.label.packet) (r : Reception)
    (hchange : ((evaluatePacket board r.overallAvgOffset r.packet).run self).2.flash.stored ≠
      self.flash.stored) :
    (∃ t₁ e t₂, t = t₁ ++ e :: t₂ ∧ e.label.packet.isReset = true ∧
      ∀ e' ∈ t₂, e'.label.packet.isReset = false ∧ e'.label.packet.isService = true) ∧
    r.packet.isService = true := by
  have hprograms : self.Programs r.packet := by
    by_contra hno
    exact hchange (congrArg RpFlash.stored (flash_eq_of_not_programs hno))
  obtain ⟨t₁, e, t₂, ht, hreset, hall⟩ := preceded_run hrun hC hprograms.2.1
  exact ⟨⟨t₁, e, t₂, ht, hreset, fun e' he' =>
    ⟨Message.isReset_of_isService (hall e' he'), hall e' he'⟩⟩, hprograms.2.2⟩

/-! ### A run -/

def resetReception : Reception := ⟨⟨[0, 0, 0], fun _ => 0⟩, by decide, by decide, 0⟩

/-- The write of 20 to CV3. -/
def writeReception : Reception := ⟨⟨[0x6A, 0x14, 0x02, 0x7C], fun _ => 0⟩, by decide, by decide, 0⟩

/-- A speed step for the locomotive with the address 5. -/
def foreignReception : Reception :=
  ⟨⟨[0xBF, 0x85, 0x3F, 0x05], fun _ => 0⟩, by decide, by decide, 0⟩

/-- The same for the locomotive with the address 124. -/
def speedReception : Reception :=
  ⟨⟨[0xC6, 0x85, 0x3F, 0x7C], fun _ => 0⟩, by decide, by decide, 0⟩

/-- A write right after a reset message. -/
theorem cv_change_after_reset :
    ∃ t h, Run (fun s r s' => evaluate board₀ s r = some s') addressThree t h ∧
      (∃ t₁ e t₂, t = t₁ ++ e :: t₂ ∧ e.label.packet.isReset = true ∧
        ∀ e' ∈ t₂, e'.label.packet.isReset = false ∧ e'.label.packet.isService = true) ∧
      writeReception.packet.isService = true := by
  have hrun := Run.of_exec (evaluate board₀) [resetReception] (s := addressThree) rfl
  refine ⟨_, _, hrun, cv_change_preceded hrun ?_ writeReception fun h => ?_⟩
  · exact List.forall_mem_singleton.mpr fun h => by cases h
  · exact absurd (congrFun h ⟨2, by decide⟩) (by decide +kernel)

/-- A speed step for another locomotive writes CV64: the flag outlives the
packet for a third one. -/
theorem cv_change_by_foreign_packet :
    ∃ t h, Run (fun s r s' => evaluate board₀ s r = some s') addressThree t h ∧
      ((evaluatePacket board₀ 0 speedReception.packet).run h).2.flash.stored ≠ h.flash.stored ∧
      ¬ ∃ t₁ e t₂, t = t₁ ++ e :: t₂ ∧ e.label.packet.isReset = true ∧
        ∀ e' ∈ t₂, e'.label.packet.isReset = false ∧ e'.label.packet.isService = true := by
  have hrun := Run.of_exec (evaluate board₀) [resetReception, foreignReception]
    (s := addressThree) rfl
  refine ⟨_, _, hrun, fun h => absurd (congrFun h ⟨63, by decide⟩) (by decide +kernel), ?_⟩
  rintro ⟨t₁, e, t₂, ht, hreset, hall⟩
  -- the packet for the third locomotive came after the only reset message
  match t₁ with
  | [] =>
    obtain ⟨-, rfl⟩ := List.cons.inj ht
    exact absurd (hall _ (List.mem_singleton.mpr rfl)).2 (by decide)
  | [_] =>
    obtain ⟨rfl, -⟩ := List.cons.inj (List.cons.inj ht).2
    exact absurd hreset (by decide)
  | _ :: _ :: t₁ => simp at ht

end Core0

end Rp2040
