/-
Reading back what was programmed.

Over a reliable store, what the confirmed instructions answer is a matter of
the CVs alone, so a history of calls can be read as one of reads and writes.
Calls that do not execute an instruction leave the store as it is.

* `ServiceInstruction.Spares` — the instructions that leave a CV alone;
* `cvs_of_spared` — a run of such instructions leaves it alone;
* `readBack` — the laws of reading back in a run of the handler.
-/
import Rp2040Decoder.ServiceInstruction

namespace Rp2040

open ReadableStore ReliableStore

/-- The instruction leaves CV `n` alone. -/
def ServiceInstruction.Spares (n : ℕ) : ServiceInstruction → Prop
  | verifyByte _ _ => True
  | verifyBit _ _ _ => True
  | writeByte a value =>
    a ≠ n ∧ (a = 1 → n ≠ 29 ∧ n ≠ 19) ∧ (a = 7 → n ≠ 172) ∧ ¬ (a = 8 ∧ value = 8)
  | writeBit a _ _ => a ≠ n

/-! ### One instruction -/

section Execute

variable {S : Type} [Store S] [ReliableStore S] {s s' : S} {packet : Packet} {a n : ℕ}
  {value : UInt8} {r : Except (Fault HandlerError) (Option Op)}

/-- An accepted byte write is acknowledged. -/
theorem run_writeByte_accepted (hs : Good s) (h : packet.Carries (.writeByte a value))
    (h₁ : 1 ≤ a) (h₂ : a ≤ CV_SIZE) (ha : WriteAccepted (cvs s) a value) :
    ∃ s', (executeServicePacket packet).run s = (.ok (some .acknowledgeCv), s') ∧
      cvs s' a = value ∧ (a = 1 → cvs s' 29 = cvs s 29 &&& ~~~0b00100000 ∧ cvs s' 19 = 0) ∧
      ∀ n, n ≠ a → (a = 1 → n ≠ 29 ∧ n ≠ 19) → cvs s' n = cvs s n := by
  by_cases hne : a = 1
  · subst hne
    obtain ⟨s', hrun, hcvs⟩ := run_writeByte_primary hs h ha
    refine ⟨s', hrun, ?_⟩
    rw [hcvs]
    refine ⟨?_, fun _ => ⟨?_, Function.update_self _ _ _⟩, fun n hn hclear => ?_⟩
    · rw [Function.update_of_ne (by decide), Function.update_of_ne (by decide),
        Function.update_self]
    · rw [Function.update_of_ne (by decide), Function.update_self]
    · obtain ⟨h29, h19⟩ := hclear rfl
      rw [Function.update_of_ne h19, Function.update_of_ne h29, Function.update_of_ne hn]
  · obtain ⟨s', hrun, hcvs⟩ := run_writeByte_plain hs h h₁ h₂ hne ha
    refine ⟨s', hrun, ?_⟩
    rw [hcvs]
    exact ⟨Function.update_self _ _ _, fun h => absurd h hne,
      fun n hn _ => Function.update_of_ne hn _ _⟩

/-- What an acknowledged byte write did. -/
theorem cvs_of_acknowledged (hs : Good s) (h : packet.Carries (.writeByte a value)) (h₁ : 1 ≤ a)
    (h₂ : a ≤ CV_SIZE)
    (hr : (executeServicePacket packet).run s = (.ok (some .acknowledgeCv), s')) :
    cvs s' a = value ∧ (a = 1 → cvs s' 29 = cvs s 29 &&& ~~~0b00100000 ∧ cvs s' 19 = 0) ∧
      ∀ n, n ≠ a → (a = 1 → n ≠ 29 ∧ n ≠ 19) → cvs s' n = cvs s n := by
  have ha : WriteAccepted (cvs s) a value := by
    by_contra hn
    exact not_acknowledged h hr hn rfl
  obtain ⟨s₁, hrun, hcvs⟩ := run_writeByte_accepted hs h h₁ h₂ ha
  rw [hrun, Prod.mk.injEq] at hr
  rwa [hr.2] at hcvs

/-- A bit write is acknowledged, and changes its bit and nothing else. -/
theorem run_writeBit {b : Fin 8} {v : Bool} (hs : Good s) (h : packet.Carries (.writeBit a b v))
    (h₁ : 1 ≤ a) (h₂ : a ≤ CV_SIZE) :
    ∃ s', (executeServicePacket packet).run s = (.ok (some .acknowledgeCv), s') ∧
      cvs s' = Function.update (cvs s) a (setBit (cvs s a) b v) := by
  obtain ⟨s', hrun, -, hcvs⟩ := writeCv_run (setBit (cvs s a) b v) hs h₁ h₂
  exact ⟨s', by rw [execute_writeBit h h₁ h₂, Proc.run_bind_of_ok hrun, Proc.run_pure], hcvs⟩

theorem cvs_of_spares_writeByte (hs : Good s) (h : packet.Carries (.writeByte a value))
    (h₁ : 1 ≤ a) (h₂ : a ≤ CV_SIZE) (hn : (ServiceInstruction.writeByte a value).Spares n)
    (hr : (executeServicePacket packet).run s = (r, s')) : cvs s' n = cvs s n := by
  obtain ⟨hne, hclear, h7, h8⟩ := hn
  by_cases ha : WriteAccepted (cvs s) a value
  · obtain ⟨s₁, hrun, -, -, hframe⟩ := run_writeByte_accepted hs h h₁ h₂ ha
    rw [hrun, Prod.mk.injEq] at hr
    rw [← hr.2]
    exact hframe n hne.symm hclear
  rcases not_writeAccepted_iff.mp ha with hrej | rfl | rfl | hign
  · rw [execute_writeByte_rejected h hrej, Prod.mk.injEq] at hr
    rw [← hr.2]
  · obtain ⟨s₁, hrun, hcvs⟩ := run_writeByte_version hs h
    rw [hrun, Prod.mk.injEq] at hr
    rw [← hr.2, hcvs]
    split
    · exact Function.update_of_ne (h7 rfl) _ _
    · rfl
  · obtain ⟨s₁, hrun, hcvs⟩ := run_writeByte_id hs h
    rw [hrun, Prod.mk.injEq] at hr
    rw [← hr.2, hcvs, if_neg fun hv => h8 ⟨rfl, hv⟩]
  · rw [execute_writeByte_ignored h hign, Prod.mk.injEq] at hr
    rw [← hr.2]

theorem cvs_of_spares {i : ServiceInstruction} (hs : Good s) (h : packet.Carries i)
    (h₁ : 1 ≤ i.cvAddr) (h₂ : i.cvAddr ≤ CV_SIZE) (hn : i.Spares n)
    (hr : (executeServicePacket packet).run s = (r, s')) : cvs s' n = cvs s n := by
  cases i with
  | verifyByte a value =>
    rw [execute_verifyByte h h₁ h₂, Prod.mk.injEq] at hr
    rw [← hr.2]
  | verifyBit a b v =>
    rw [execute_verifyBit h h₁ h₂, Prod.mk.injEq] at hr
    rw [← hr.2]
  | writeByte a value => exact cvs_of_spares_writeByte hs h h₁ h₂ hn hr
  | writeBit a b v =>
    obtain ⟨s₁, hrun, hcvs⟩ := run_writeBit hs h h₁ h₂
    rw [hrun, Prod.mk.injEq] at hr
    rw [← hr.2, hcvs, Function.update_of_ne (Ne.symm hn)]

end Execute

/-! ### Runs -/

namespace Handler

open Transition

variable {T S : Type} [Timer T] [Store S] {self self' : Handler T S}
  {e w : Event (Handler T S) Call} {t t₁ t₂ t₃ : List (Event (Handler T S) Call)}
  {i : ServiceInstruction} {a n : ℕ}

/-- The call executes a packet that carries the instruction. -/
def Executed (e : Event (Handler T S) Call) (i : ServiceInstruction) : Prop :=
  e.pre.Executes e.label ∧ e.label.packet.Carries i

/-- The call returns `AcknowledgeCv`. -/
def Acknowledged (e : Event (Handler T S) Call) : Prop :=
  e.pre.result e.label = .ok (some .acknowledgeCv)

/-- Every packet executed carries an instruction that leaves CV `n` alone. -/
def Spared (t : List (Event (Handler T S) Call)) (n : ℕ) : Prop :=
  ∀ e ∈ t, e.pre.Executes e.label → ∃ i : ServiceInstruction,
    e.label.packet.Carries i ∧ (1 ≤ i.cvAddr ∧ i.cvAddr ≤ CV_SIZE) ∧ i.Spares n

theorem run_of_executes (hstep : e.pre.next e.label = some e.post)
    (h : e.pre.Executes e.label) :
    (executeServicePacket e.label.packet).run e.pre.store =
      (e.pre.result e.label, e.post.store) := by
  rcases store_of_step (step_of_next hstep) with ⟨-, hrun⟩ | ⟨hno, -⟩
  · exact hrun
  · exact absurd h hno

/-- What the call returns and leaves, from what its instruction does. -/
theorem of_executes {r : Except (Fault HandlerError) (Option Op)} {s : S}
    (hstep : e.pre.next e.label = some e.post) (h : e.pre.Executes e.label)
    (hrun : (executeServicePacket e.label.packet).run e.pre.store = (r, s)) :
    e.pre.result e.label = r ∧ e.post.store = s :=
  Prod.mk.inj ((run_of_executes hstep h).symm.trans hrun)

/-- A comparison is acknowledged if it comes out true. -/
theorem acknowledged_iff {p : Prop} [Decidable p] {s : S}
    (hstep : e.pre.next e.label = some e.post) (h : e.pre.Executes e.label)
    (hrun : (executeServicePacket e.label.packet).run e.pre.store =
      (.ok (if p then some .acknowledgeCv else none), s)) : Acknowledged e ↔ p := by
  rw [Acknowledged, (of_executes hstep h hrun).1]
  by_cases hp : p
  · rw [if_pos hp]
    exact iff_of_true rfl hp
  · rw [if_neg hp]
    exact iff_of_false (fun hn => by cases hn) hp

variable [ReliableStore S]

theorem cvs_of_next (hstep : e.pre.next e.label = some e.post) (hs : Good e.pre.store)
    (h : e.pre.Executes e.label → ∃ i : ServiceInstruction, e.label.packet.Carries i ∧
      (1 ≤ i.cvAddr ∧ i.cvAddr ≤ CV_SIZE) ∧ i.Spares n) :
    cvs e.post.store n = cvs e.pre.store n := by
  rcases store_of_step (step_of_next hstep) with ⟨hx, hrun⟩ | ⟨-, hstore⟩
  · obtain ⟨i, hcarries, ⟨h₁, h₂⟩, hspares⟩ := h hx
    exact cvs_of_spares hs hcarries h₁ h₂ hspares hrun
  · rw [hstore]

/-- A run of instructions that leave CV `n` alone leaves it alone. -/
theorem cvs_of_spared (hrun : Run (fun h c h' => next h c = some h') self t self')
    (hs : Good self.store) (ht : Spared t n) :
    cvs self'.store n = cvs self.store n ∧ ∀ e ∈ t, cvs e.pre.store n = cvs self.store n := by
  have hinv := hrun.invariant_on
    (I := fun h => Good h.store ∧ cvs h.store n = cvs self.store n)
    (C := fun e : Event (Handler T S) Call => e.pre.Executes e.label → ∃ i : ServiceInstruction,
      e.label.packet.Carries i ∧ (1 ≤ i.cvAddr ∧ i.cvAddr ≤ CV_SIZE) ∧ i.Spares n)
    (fun e hC hstep hI =>
      ⟨(change_of_next hstep hI.1).1, (cvs_of_next hstep hI.1 hC).trans hI.2⟩) ⟨hs, rfl⟩ ht
  exact ⟨hinv.1.2, fun e he => (hinv.2 e he).1.2⟩

theorem acknowledged_verifyByte {value : UInt8} (hstep : e.pre.next e.label = some e.post)
    (h : Executed e (.verifyByte a value)) (h₁ : 1 ≤ a) (h₂ : a ≤ CV_SIZE) :
    Acknowledged e ↔ value = cvs e.pre.store a :=
  acknowledged_iff hstep h.1 (execute_verifyByte h.2 h₁ h₂)

theorem acknowledged_verifyBit {b : Fin 8} {v : Bool} (hstep : e.pre.next e.label = some e.post)
    (h : Executed e (.verifyBit a b v)) (h₁ : 1 ≤ a) (h₂ : a ≤ CV_SIZE) :
    Acknowledged e ↔ (cvs e.pre.store a).toNat.testBit b = v :=
  acknowledged_iff hstep h.1 (execute_verifyBit h.2 h₁ h₂)

/-- The laws of reading CV `a` back in the calls `t`. -/
structure ReadBack (t : List (Event (Handler T S) Call)) (a : ℕ) : Prop where
  /-- a byte write, and a byte verify with nothing between them that changes the CV -/
  writeByte : ∀ t₁ w t₂ r t₃ d value, t = t₁ ++ w :: (t₂ ++ r :: t₃) →
    Executed w (.writeByte a d) → Acknowledged w → Spared t₂ a →
    Executed r (.verifyByte a value) → (Acknowledged r ↔ value = d)
  /-- a bit write, and a byte verify -/
  writeBit : ∀ t₁ w t₂ r t₃ b v value, t = t₁ ++ w :: (t₂ ++ r :: t₃) →
    Executed w (.writeBit a b v) → Acknowledged w → Spared t₂ a →
    Executed r (.verifyByte a value) → (Acknowledged r ↔ value = setBit (cvs w.pre.store a) b v)
  verifyBit : ∀ e ∈ t, ∀ b v, Executed e (.verifyBit a b v) →
    (Acknowledged e ↔ (cvs e.pre.store a).toNat.testBit b = v)
  /-- a byte verify and the bit verifies of its eight bits -/
  eightBits : Spared t a → ∀ r ∈ t, ∀ value, Executed r (.verifyByte a value) →
    ∀ bits : Fin 8 → Event (Handler T S) Call,
      (∀ b, bits b ∈ t ∧ Executed (bits b) (.verifyBit a b (value.toNat.testBit b))) →
      (Acknowledged r ↔ ∀ b, Acknowledged (bits b))
  /-- what else a byte write changes -/
  writeByte_frame : ∀ e ∈ t, ∀ d, Executed e (.writeByte a d) → Acknowledged e →
    (∀ n, n ≠ a → (a = 1 → n ≠ 29 ∧ n ≠ 19) → cvs e.post.store n = cvs e.pre.store n) ∧
    (a = 1 → cvs e.post.store 29 = cvs e.pre.store 29 &&& ~~~0b00100000)
  writeBit_frame : ∀ e ∈ t, ∀ b v, Executed e (.writeBit a b v) →
    ∀ n, n ≠ a → cvs e.post.store n = cvs e.pre.store n
  verify_frame : ∀ e ∈ t, (∃ value, Executed e (.verifyByte a value)) ∨
    (∃ b v, Executed e (.verifyBit a b v)) → e.post.store = e.pre.store

/-- The call after the write and the run between them. -/
theorem between
    (hrun : Run (fun h c h' => next h c = some h') self (t₁ ++ w :: (t₂ ++ e :: t₃)) self')
    (hs : Good self.store) (ht : Spared t₂ n) :
    w.pre.next w.label = some w.post ∧ Good w.pre.store ∧ e.pre.next e.label = some e.post ∧
      cvs e.pre.store n = cvs w.post.store n := by
  have hgood := (hrun.invariant (I := fun h => Good h.store)
    (fun h c h' hstep hg => (change_of_next hstep hg).1) hs).2
  obtain ⟨-, hw, hrest⟩ := hrun.split
  obtain ⟨hmid, he, -⟩ := hrest.split
  have hwmem : w ∈ t₁ ++ w :: (t₂ ++ e :: t₃) :=
    List.mem_append_right _ List.mem_cons_self
  exact ⟨hw, (hgood w hwmem).1, he, (cvs_of_spared hmid (hgood w hwmem).2 ht).1⟩

/-- **Read-back.**  In every run of the handler over a reliable store, the
programmed CVs are read back as the laws say. -/
theorem readBack (hrun : Run (fun h c h' => next h c = some h') self t self')
    (hs : Good self.store) (h₁ : 1 ≤ a) (h₂ : a ≤ CV_SIZE) : ReadBack t a := by
  have hgood := (hrun.invariant (I := fun h => Good h.store)
    (fun h c h' hstep hg => (change_of_next hstep hg).1) hs).2
  have hstep := hrun.step_of_mem
  constructor
  case writeByte =>
    rintro t₁ w t₂ r t₃ d value rfl hw hack hmid hr
    obtain ⟨hnext, hg, hnext', hcv⟩ := between hrun hs hmid
    have hrunw := run_of_executes hnext hw.1
    rw [hack] at hrunw
    rw [acknowledged_verifyByte hnext' hr h₁ h₂, hcv,
      (cvs_of_acknowledged hg hw.2 h₁ h₂ hrunw).1]
  case writeBit =>
    rintro t₁ w t₂ r t₃ b v value rfl hw - hmid hr
    obtain ⟨hnext, hg, hnext', hcv⟩ := between hrun hs hmid
    obtain ⟨s', hrunw, hcvs⟩ := run_writeBit hg hw.2 h₁ h₂
    rw [acknowledged_verifyByte hnext' hr h₁ h₂, hcv, (of_executes hnext hw.1 hrunw).2, hcvs,
      Function.update_self]
  case verifyBit =>
    intro e he b v hx
    exact acknowledged_verifyBit (hstep e he) hx h₁ h₂
  case eightBits =>
    intro hspared r hr value hx bits hbits
    have hcv := (cvs_of_spared hrun hs hspared).2
    have hbit : ∀ b, Acknowledged (bits b) ↔
        (cvs self.store a).toNat.testBit b = value.toNat.testBit b := by
      intro b
      rw [acknowledged_verifyBit (hstep _ (hbits b).1) (hbits b).2 h₁ h₂, hcv _ (hbits b).1]
    rw [acknowledged_verifyByte (hstep r hr) hx h₁ h₂, hcv r hr]
    constructor
    · rintro rfl b
      exact (hbit b).mpr rfl
    · intro h
      exact (eq_of_testBit fun b => (hbit b).mp (h b)).symm
  case writeByte_frame =>
    intro e he d hx hack
    have hrune := run_of_executes (hstep e he) hx.1
    rw [hack] at hrune
    obtain ⟨-, hclear, hframe⟩ := cvs_of_acknowledged (hgood e he).1 hx.2 h₁ h₂ hrune
    exact ⟨hframe, fun h => (hclear h).1⟩
  case writeBit_frame =>
    intro e he b v hx n hn
    obtain ⟨s', hrune, hcvs⟩ := run_writeBit (hgood e he).1 hx.2 h₁ h₂
    rw [(of_executes (hstep e he) hx.1 hrune).2, hcvs, Function.update_of_ne hn]
  case verify_frame =>
    rintro e he (⟨value, hx⟩ | ⟨b, v, hx⟩)
    · exact (of_executes (hstep e he) hx.1 (execute_verifyByte hx.2 h₁ h₂)).2
    · exact (of_executes (hstep e he) hx.1 (execute_verifyBit hx.2 h₁ h₂)).2

/-- 20 is written to CV3 and verified, each packet sent twice. -/
theorem readBack_accelerationRate :
    ∃ t h, Run (fun h c h' => next h c = some h') programming t h ∧
      t.map (fun e => (e.label.packet, e.pre.result e.label)) =
        [((ServiceInstruction.writeByte 3 20).packet, .ok none),
          ((ServiceInstruction.writeByte 3 20).packet, .ok (some .acknowledgeCv)),
          ((ServiceInstruction.verifyByte 3 20).packet, .ok none),
          ((ServiceInstruction.verifyByte 3 20).packet, .ok (some .acknowledgeCv))] ∧
      ReadBack t 3 := by
  have hrun := Run.of_exec next
    [⟨1000, (ServiceInstruction.writeByte 3 20).packet⟩,
      ⟨2000, (ServiceInstruction.writeByte 3 20).packet⟩,
      ⟨3000, (ServiceInstruction.verifyByte 3 20).packet⟩,
      ⟨4000, (ServiceInstruction.verifyByte 3 20).packet⟩] (s := programming) rfl
  exact ⟨_, _, hrun, rfl, readBack hrun (fun _ => rfl) (by decide) (by decide)⟩

end Handler

end Rp2040
