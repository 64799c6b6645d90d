/-
Service-mode instructions whose writes fail.

A store may refuse any of its writes, and leaves the CVs alone when it does.
An instruction with one write then fails clean.  The write to CV1 is the one
instruction with more: it is followed by a read and two writes, each with a `?`.

* `AtomicStore` — the stores;
* `HalfApplied` — a short address is taken and a later step fails;
* `executeServicePacket_failsClean_iff` — no other instruction leaves a trace
  of its failure;
* `failed_calls_clean_iff` — the same over runs of the handler.
-/
import Rp2040Decoder.ServiceInstruction

namespace Rp2040

/-- A store whose writes either succeed or fail without changing any CV. -/
class AtomicStore (S : Type) [Store S] where
  cvs : S → ℕ → UInt8
  writeByte_ok {s s' : S} {a : ℕ} {v : UInt8} : 1 ≤ a → a ≤ CV_SIZE →
    (Store.writeByte a v).run s = (.ok (), s') → cvs s' = Function.update (cvs s) a v
  writeByte_error {s s' : S} {a : ℕ} {v : UInt8} {e : StoreError} :
    (Store.writeByte a v).run s = (.error (.error e), s') → cvs s' = cvs s
  writeBytes_error {s s' : S} {a : ℕ} {v : List UInt8} {force : Bool} {e : StoreError} :
    (Store.writeBytes a v force).run s = (.error (.error e), s') → cvs s' = cvs s

namespace AtomicStore

open Proc

section Steps

variable {S : Type} {s s' : S}

theorem ok_of_withStore {α : Type} {x : Proc S StoreError α} {a : α}
    (h : (withStore x).run s = (.ok a, s')) : x.run s = (.ok a, s') := by
  obtain ⟨t, hrun, rfl⟩ := ok_of_zoom h
  exact hrun

theorem error_of_withStore {α : Type} {x : Proc S StoreError α} {e : HandlerError}
    (h : (withStore x).run s = (.error (.error e), s')) :
    ∃ e', x.run s = (.error (.error e'), s') := by
  rw [withStore, run_zoom, Prod.mk.injEq] at h
  obtain ⟨hr, hs⟩ := h
  cases hx : x.run s with
  | mk r s₁ =>
    rw [id, hx] at hr hs
    cases r with
    | ok _ => cases hr
    | error f =>
      cases f with
      | panic => cases hr
      | error e' => exact ⟨e', Prod.ext rfl hs⟩

variable [Store S]

theorem readCv_bind_of_ok {α : Type} {a : ℕ} {v : UInt8} {k : UInt8 → Proc S HandlerError α}
    (h : Store.readByte s a = .ok v) : (readCv a >>= k).run s = (k v).run s :=
  run_bind_of_ok (withStore_run (by rw [run_read, h]))

theorem readCv_bind_of_error {α : Type} {a : ℕ} {e : Fault StoreError}
    {k : UInt8 → Proc S HandlerError α} (h : Store.readByte s a = .error e) :
    (readCv a >>= k).run s = (.error (e.map .store), s) :=
  run_bind_of_error (by rw [readCv, withStore, run_zoom, run_read, id, h]; rfl)

/-- One of the steps of a write to CV1 returned the error. -/
theorem error_of_writePrimaryAddress {value : UInt8} {e : HandlerError}
    (h : (writePrimaryAddress value).run s = (.error (.error e), s')) :
    (∃ e', (Store.writeByte 1 value).run s = (.error (.error e'), s')) ∨
    ∃ s₁, (Store.writeByte 1 value).run s = (.ok (), s₁) ∧
      ((s' = s₁ ∧ ∃ e', Store.readByte s₁ 29 = .error (.error e')) ∨
      ∃ cv29, Store.readByte s₁ 29 = .ok cv29 ∧
        ((∃ e', (Store.writeByte 29 (cv29 &&& ~~~0b00100000)).run s₁ =
          (.error (.error e'), s')) ∨
        ∃ s₂, (Store.writeByte 29 (cv29 &&& ~~~0b00100000)).run s₁ = (.ok (), s₂) ∧
          ∃ e', (Store.writeByte 19 0).run s₂ = (.error (.error e'), s'))) := by
  rw [writePrimaryAddress_eq] at h
  rcases error_of_bind h with h₁ | ⟨_, s₁, h₁, h⟩
  · exact Or.inl (error_of_withStore h₁)
  refine Or.inr ⟨s₁, ok_of_withStore h₁, ?_⟩
  rcases error_of_bind h with hread | ⟨cv29, s₁', hread, h⟩
  · obtain ⟨e', hread⟩ := error_of_withStore hread
    rw [run_read, Prod.mk.injEq] at hread
    exact Or.inl ⟨hread.2.symm, e', hread.1⟩
  have hread' := ok_of_withStore hread
  rw [run_read, Prod.mk.injEq] at hread'
  obtain ⟨hcv29, rfl⟩ := hread'
  refine Or.inr ⟨cv29, hcv29, ?_⟩
  rcases error_of_bind h with h₂ | ⟨_, s₂, h₂, h⟩
  · exact Or.inl (error_of_withStore h₂)
  refine Or.inr ⟨s₂, ok_of_withStore h₂, ?_⟩
  rcases error_of_bind h with h₃ | ⟨_, s₃, -, h⟩
  · exact error_of_withStore h₃
  · cases h

end Steps

section Execute

variable {S : Type} [Store S] [AtomicStore S] {s s' : S} {packet : Packet} {value : UInt8}

/-- The store takes the write to CV1 and fails on a step that follows, and a
CV has changed by then. -/
inductive HalfApplied (s : S) (value : UInt8) : Prop
  | read {s₁ : S} {e : StoreError} : (Store.writeByte 1 value).run s = (.ok (), s₁) →
      Store.readByte s₁ 29 = .error (.error e) → value ≠ cvs s 1 → HalfApplied s value
  | configuration {s₁ s₂ : S} {cv29 : UInt8} {e : StoreError} :
      (Store.writeByte 1 value).run s = (.ok (), s₁) → Store.readByte s₁ 29 = .ok cv29 →
      (Store.writeByte 29 (cv29 &&& ~~~0b00100000)).run s₁ = (.error (.error e), s₂) →
      value ≠ cvs s 1 → HalfApplied s value
  | consist {s₁ s₂ s₃ : S} {cv29 : UInt8} {e : StoreError} :
      (Store.writeByte 1 value).run s = (.ok (), s₁) → Store.readByte s₁ 29 = .ok cv29 →
      (Store.writeByte 29 (cv29 &&& ~~~0b00100000)).run s₁ = (.ok (), s₂) →
      (Store.writeByte 19 0).run s₂ = (.error (.error e), s₃) →
      ¬ (value = cvs s 1 ∧ cv29 &&& ~~~0b00100000 = cvs s 29) → HalfApplied s value

/-! ### The steps of an instruction -/

theorem failsClean_ofPacket_bind {α : Type} {x : Except (Fault PacketError) α}
    {k : α → Proc S HandlerError (Option Op)} (h : ∀ a, x = .ok a → FailsClean cvs (k a) s) :
    FailsClean cvs (ofPacket x >>= k) s :=
  FailsClean.bind rfl fun a ha => h a (ok_of_ofResult ha).1

theorem failsClean_readCv_bind {a : ℕ} {k : UInt8 → Proc S HandlerError (Option Op)}
    (h : ∀ v, FailsClean cvs (k v) s) : FailsClean cvs (readCv a >>= k) s :=
  FailsClean.bind rfl fun v _ => h v

theorem failsClean_writeCv {a : ℕ} : FailsClean cvs (writeCv a value) s := by
  intro e s' h
  obtain ⟨e', h'⟩ := error_of_withStore h
  exact writeByte_error h'

theorem failsClean_reset :
    FailsClean cvs (resetToFactoryDefaults : Proc S HandlerError Unit) s := by
  intro e s' h
  obtain ⟨e', h'⟩ := error_of_withStore h
  exact writeBytes_error h'

/-! ### The instructions -/

/-- The write to CV1 fails clean unless it is half applied. -/
theorem failsClean_writePrimaryAddress_iff :
    FailsClean cvs (writePrimaryAddress value) s ↔ ¬ HalfApplied s value := by
  constructor
  · rintro hclean (⟨h₁, hread, hne⟩ | ⟨h₁, hread, h₂, hne⟩ | ⟨h₁, hread, h₂, h₃, hne⟩)
    · have hcvs := hclean (.store _) _ (by
        rw [writePrimaryAddress_eq, writeCv_bind_of_ok h₁, readCv_bind_of_error hread]; rfl)
      rw [writeByte_ok (by decide) (by decide) h₁, Function.update_eq_self_iff] at hcvs
      exact hne hcvs
    · have hcvs := hclean (.store _) _ (by
        rw [writePrimaryAddress_eq, writeCv_bind_of_ok h₁, readCv_bind_of_ok hread,
          writeCv_bind_of_error h₂]; rfl)
      rw [writeByte_error h₂, writeByte_ok (by decide) (by decide) h₁,
        Function.update_eq_self_iff] at hcvs
      exact hne hcvs
    · have hcvs := hclean (.store _) _ (by
        rw [writePrimaryAddress_eq, writeCv_bind_of_ok h₁, readCv_bind_of_ok hread,
          writeCv_bind_of_ok h₂, writeCv_bind_of_error h₃]; rfl)
      rw [writeByte_error h₃, writeByte_ok (by decide) (by decide) h₂,
        writeByte_ok (by decide) (by decide) h₁] at hcvs
      refine hne ⟨?_, ?_⟩
      · rw [← hcvs, Function.update_of_ne (by decide), Function.update_self]
      · rw [← hcvs, Function.update_self]
  · intro hhalf e s' h
    rcases error_of_writePrimaryAddress h with ⟨e', h₁⟩ | ⟨s₁, h₁, h⟩
    · exact writeByte_error h₁
    have hcvs₁ := writeByte_ok (by decide) (by decide) h₁
    rcases h with ⟨rfl, e', hread⟩ | ⟨cv29, hread, ⟨e', h₂⟩ | ⟨s₂, h₂, e', h₃⟩⟩
    · rw [hcvs₁, Function.update_eq_self_iff]
      exact not_not.mp fun hne => hhalf (.read h₁ hread hne)
    · rw [writeByte_error h₂, hcvs₁, Function.update_eq_self_iff]
      exact not_not.mp fun hne => hhalf (.configuration h₁ hread h₂ hne)
    · obtain ⟨hv, hcv29⟩ := not_not.mp fun hne => hhalf (.consist h₁ hread h₂ h₃ hne)
      rw [writeByte_error h₃, writeByte_ok (by decide) (by decide) h₂, hcvs₁, hv,
        Function.update_eq_self, hcv29, Function.update_eq_self]

theorem failsClean_verifyByte : FailsClean cvs (verifyByte packet) s :=
  failsClean_ofPacket_bind fun _ _ => failsClean_ofPacket_bind fun _ _ =>
    failsClean_readCv_bind fun _ => FailsClean.pure _

theorem failsClean_manipulateBit : FailsClean cvs (manipulateBit packet) s := by
  refine failsClean_ofPacket_bind fun packed _ => ?_
  split
  · exact FailsClean.fail _
  refine failsClean_ofPacket_bind fun a _ => failsClean_readCv_bind fun current => ?_
  split
  · exact failsClean_writeCv.bind_pure _
  · exact FailsClean.pure _

/-- The packet writes a short address in range. -/
def WritesPrimaryAddress (packet : Packet) (value : UInt8) : Prop :=
  packet.instructionType = .ok .writeByte ∧ packet.cvAddress = .ok 1 ∧
    packet.cvData = .ok value ∧ 1 ≤ value ∧ value ≤ 127

theorem failsClean_writeByte (h : ∀ value, packet.cvAddress = .ok 1 → packet.cvData = .ok value →
    1 ≤ value ∧ value ≤ 127 → FailsClean cvs (writePrimaryAddress value) s) :
    FailsClean cvs (writeByte packet) s := by
  refine failsClean_ofPacket_bind fun a ha => ?_
  split
  · exact FailsClean.pure _
  split
  · rename_i hcv
    obtain rfl : 1 = a := Cv.number_of_tryFrom hcv
    refine failsClean_ofPacket_bind fun value hvalue => ?_
    split
    · exact FailsClean.fail _
    · rename_i hv
      exact h value ha hvalue (not_not.mp hv)
  · refine failsClean_ofPacket_bind fun value _ => ?_
    split
    · exact failsClean_reset.bind_pure _
    · exact FailsClean.pure _
  · refine failsClean_ofPacket_bind fun value _ => ?_
    split
    · exact failsClean_writeCv.bind_pure _
    · exact FailsClean.pure _
  · refine failsClean_ofPacket_bind fun value _ => failsClean_readCv_bind fun cv18 => ?_
    split
    · exact FailsClean.fail _
    · exact failsClean_writeCv.bind_pure _
  · refine failsClean_ofPacket_bind fun value _ => failsClean_readCv_bind fun cv17 => ?_
    split
    · exact FailsClean.fail _
    · exact failsClean_writeCv.bind_pure _
  · exact failsClean_ofPacket_bind fun value _ => failsClean_writeCv.bind_pure _

/-- A confirmed packet fails clean unless it half applies a short address. -/
theorem executeServicePacket_failsClean_iff : FailsClean cvs (executeServicePacket packet) s ↔
    ∀ value, WritesPrimaryAddress packet value → ¬ HalfApplied s value := by
  constructor
  · rintro hclean value ⟨htype, ha, hvalue, hv⟩
    rw [← failsClean_writePrimaryAddress_iff]
    have hne : packet.data ≠ [0b01111111, 0b00001000] := by
      intro hd
      simp [Packet.cvData, hd] at hvalue
    intro e s' h
    refine hclean e s' ?_
    rw [executeServicePacket, if_neg hne, ofPacket_ok_bind htype]
    show (writeByte packet).run s = _
    rw [writeByte, ofPacket_ok_bind ha, if_neg (by omega)]
    show (ofPacket packet.cvData >>= _).run s = _
    rw [ofPacket_ok_bind hvalue, if_neg (not_not.mpr hv), h]
  · intro h
    rw [executeServicePacket]
    split
    · exact failsClean_reset.bind_pure _
    refine failsClean_ofPacket_bind fun t ht => ?_
    cases t with
    | manipulateBit => exact failsClean_manipulateBit
    | verifyByte => exact failsClean_verifyByte
    | writeByte =>
      exact failsClean_writeByte fun value ha hvalue hv =>
        failsClean_writePrimaryAddress_iff.mpr (h value ⟨ht, ha, hvalue, hv⟩)

end Execute

end AtomicStore

/-! ### Runs -/

namespace Handler

open Transition AtomicStore

variable {T S : Type} [Timer T] [Store S] [AtomicStore S]

/-- The call executes a write to CV1 that is half applied. -/
def HalfApplies (e : Event (Handler T S) Call) : Prop :=
  e.pre.Executes e.label ∧
    ∃ value, WritesPrimaryAddress e.label.packet value ∧ HalfApplied e.pre.store value

/-- The call returns an error only if it leaves the CVs as they were. -/
def FailedClean (e : Event (Handler T S) Call) : Prop :=
  ∀ err, e.pre.result e.label = .error (.error err) → cvs e.post.store = cvs e.pre.store

theorem failedClean_iff {e : Event (Handler T S) Call} (hstep : e.pre.next e.label = some e.post) :
    FailedClean e ↔ ¬ HalfApplies e := by
  rcases store_of_step (step_of_next hstep) with ⟨hexec, hrun⟩ | ⟨hno, hstore⟩
  · have hclean : FailedClean e ↔
        Proc.FailsClean cvs (executeServicePacket e.label.packet) e.pre.store := by
      constructor
      · intro h err s' h'
        rw [hrun, Prod.mk.injEq] at h'
        rw [← h'.2]
        exact h err h'.1
      · intro h err h'
        exact h err _ (by rw [hrun, h'])
    rw [hclean, executeServicePacket_failsClean_iff]
    constructor
    · rintro h ⟨-, value, hw, hhalf⟩
      exact h value hw hhalf
    · intro h value hw hhalf
      exact h ⟨hexec, value, hw, hhalf⟩
  · exact iff_of_true (fun err _ => by rw [hstore]) fun h => hno h.1

/-- **Failed instructions.**  In a run of the handler over an atomic store,
every call that returns an error leaves all CVs as they were if and only if no
call half applies a write to CV1. -/
theorem failed_calls_clean_iff {timer : T} {store : S} {t : List (Event (Handler T S) Call)}
    {self : Handler T S}
    (hrun : Run (fun h c h' => next h c = some h') (Handler.new timer store) t self) :
    (∀ e ∈ t, FailedClean e) ↔ ∀ e ∈ t, ¬ HalfApplies e :=
  forall₂_congr fun e he => failedClean_iff (hrun.step_of_mem e he)

end Handler

/-! ### Traces -/

/-- CVs in memory; `faults n` is the error that write number `n` returns. -/
structure MemoryStore where
  cvs : ℕ → UInt8
  faults : ℕ → Option StoreError
  writes : ℕ

namespace MemoryStore

def write (f : (ℕ → UInt8) → ℕ → UInt8) : Proc MemoryStore StoreError Unit :=
  ExceptT.mk fun self =>
    match self.faults self.writes with
    | none => (.ok (), { self with cvs := f self.cvs, writes := self.writes + 1 })
    | some e => (.error (.error e), { self with writes := self.writes + 1 })

instance : Store MemoryStore where
  readByte self a := .ok (self.cvs a)
  readBytes self a n := .ok ((List.range n).map fun i => self.cvs (a + i))
  writeByte a v := write fun cvs => Function.update cvs a v
  writeBytes a v _ := write fun cvs => overwrite cvs a v

variable {self self' : MemoryStore} {f : (ℕ → UInt8) → ℕ → UInt8}

theorem cvs_of_write_ok (h : (write f).run self = (.ok (), self')) : self'.cvs = f self.cvs := by
  simp only [write, Proc.run, ExceptT.run_mk, StateT.run] at h
  split at h
  · rw [← (Prod.mk.inj h).2]
  · cases h

theorem cvs_of_write_error {e : StoreError} (h : (write f).run self = (.error (.error e), self')) :
    self'.cvs = self.cvs := by
  simp only [write, Proc.run, ExceptT.run_mk, StateT.run] at h
  split at h
  · cases h
  · rw [← (Prod.mk.inj h).2]

instance : AtomicStore MemoryStore where
  cvs := cvs
  writeByte_ok _ _ h := cvs_of_write_ok h
  writeByte_error h := cvs_of_write_error h
  writeBytes_error h := cvs_of_write_error h

end MemoryStore

namespace Handler

open Transition AtomicStore

/-- A handler at startup with the factory defaults; write number `n` fails. -/
def failing (n : ℕ) : Handler InstantTimer MemoryStore :=
  Handler.new ⟨none⟩ ⟨defaultValue, fun k => if k = n then some .io else none, 0⟩

theorem not_halfApplied_failing {value : UInt8} : ¬ HalfApplied (failing 0).store value := by
  rintro (⟨h₁, -⟩ | ⟨h₁, -⟩ | ⟨h₁, -⟩)
  · cases h₁
  · cases h₁
  · cases h₁

/-- The address 42 is programmed, and the write to CV1 fails. -/
theorem failed_write_clean :
    ∃ t h, Run (fun h c h' => next h c = some h') (failing 0) t h ∧
      t.map (fun e => e.pre.result e.label) =
        [.ok (some .reset), .ok none, .error (.error (.store .io))] ∧
      ∀ e ∈ t, FailedClean e := by
  have hrun := Run.of_exec next [⟨0, resetPacket⟩,
    ⟨1000, (ServiceInstruction.writeByte 1 42).packet⟩,
    ⟨2000, (ServiceInstruction.writeByte 1 42).packet⟩] (s := failing 0) rfl
  refine ⟨_, _, hrun, rfl, (failed_calls_clean_iff hrun).mpr ?_⟩
  refine List.forall_mem_cons.mpr ⟨?_, List.forall_mem_cons.mpr ⟨?_,
    List.forall_mem_cons.mpr ⟨?_, List.forall_mem_nil _⟩⟩⟩
  · exact fun h => not_halfApplied_failing h.2.choose_spec.2
  · exact fun h => not_halfApplied_failing h.2.choose_spec.2
  · exact fun h => not_halfApplied_failing h.2.choose_spec.2

/-- The address 42 is programmed, and the write to CV29 that follows fails. -/
theorem failed_write_half_applied :
    ∃ t e h, Run (fun h c h' => next h c = some h') (failing 1) (t ++ [e]) h ∧
      e.pre.result e.label = .error (.error (.store .io)) ∧
      cvs e.pre.store 1 = 3 ∧ cvs e.post.store 1 = 42 ∧ ¬ FailedClean e := by
  have hrun := Run.of_exec next [⟨0, resetPacket⟩,
    ⟨1000, (ServiceInstruction.writeByte 1 42).packet⟩,
    ⟨2000, (ServiceInstruction.writeByte 1 42).packet⟩] (s := failing 1) rfl
  refine ⟨[_, _], _, _, hrun, rfl, rfl, rfl, fun hclean => ?_⟩
  exact absurd (congrFun (hclean _ rfl) 1) (by decide)

end Handler

end Rp2040
