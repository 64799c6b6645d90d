/-
The handler over the flash store does not panic.

`Guarded` flash is a store that panics on every CV number outside 1..=1024.
The handler over it runs in lockstep with the handler over plain flash, so a
call that does not panic has passed no other CV number to the store.

* `writeBytes_powered` — a write in range does not panic;
* `executeServicePacket_lockstep`, `handle_lockstep` — nor does a call on a
  decoded packet, and the guard does not fire;
* `handle_never_panics` — over every run.
-/
import Rp2040Decoder.Latch
import Rp2040Decoder.Lockstep
import Rp2040Decoder.PacketSafety

namespace Rp2040

open Proc

/-! ### The guarded store -/

/-- Every CV number in the range is one the store has. -/
def InRange (address len : ℕ) : Prop :=
  1 ≤ address ∧ address ≤ CV_SIZE ∧ address + len ≤ CV_SIZE + 1

instance (address len : ℕ) : Decidable (InRange address len) := by
  unfold InRange
  infer_instance

/-- A store that panics when it is asked for a CV it does not have. -/
structure Guarded (S : Type) where
  store : S

namespace Guarded

variable {S : Type} [Store S]

/-- A store operation behind the guard. -/
def guarded {α : Type} (address len : ℕ) (x : Proc S StoreError α) :
    Proc (Guarded S) StoreError α :=
  if InRange address len then Proc.zoom Guarded.store (fun store _ => ⟨store⟩) id x
  else Proc.read fun _ => .error .panic

instance : Store (Guarded S) where
  readByte self address :=
    if InRange address 1 then Store.readByte self.store address else .error .panic
  readBytes self start len :=
    if InRange start len then Store.readBytes self.store start len else .error .panic
  writeByte address value := guarded address 1 (Store.writeByte address value)
  writeBytes address value force :=
    guarded address value.length (Store.writeBytes address value force)

end Guarded

/-! ### The flash store -/

namespace Flash

variable {p : Profile}

/-- The power stays on. -/
def Powered (self : Flash p) : Prop := ∀ n, self.flash.faults n ≠ some .powerLoss

def PoweredFlash (self : RpFlash) : Prop := ∀ n, self.faults n ≠ some .powerLoss

/-- With the power on an operation succeeds or returns an error. -/
theorem operation_powered {sector : (Fin ERASE_SIZE → UInt8) → Fin ERASE_SIZE → UInt8}
    {self : RpFlash} (h : PoweredFlash self) :
    Lockstep PoweredFlash id (RpFlash.operation sector) (RpFlash.operation sector) self := by
  cases hf : self.faults self.operations with
  | none =>
    have hrun := @RpFlash.operation_run_of_none self sector hf
    exact ⟨_, _, hrun, nofun, h, hrun⟩
  | some fault =>
    cases fault with
    | powerLoss => exact absurd hf (h _)
    | kept | erased =>
      have hne : ((RpFlash.operation sector).run self).1 ≠ .error .panic := by
        simp [RpFlash.operation, Proc.run, ExceptT.run_mk, StateT.run, hf]
      have hkeeps : PoweredFlash ((RpFlash.operation sector).run self).2 := by
        simpa [PoweredFlash, RpFlash.operation, Proc.run, ExceptT.run_mk, StateT.run, hf] using h
      exact ⟨_, _, rfl, hne, hkeeps, rfl⟩

variable {self : Flash p}

theorem syncCvs_powered (h : self.Powered) :
    Lockstep (Powered (p := p)) id syncCvs syncCvs self := by
  refine Lockstep.bind ?_ fun _ s₁ _ h₁ => Lockstep.bind (Lockstep.gets h₁ rfl) ?_
  · exact Lockstep.zoom (operation_powered h) rfl (fun _ => rfl) fun _ => id
  · exact fun cache s₂ _ h₂ =>
      Lockstep.zoom (operation_powered h₂) rfl (fun _ => rfl) fun _ => id

theorem validRange_of_inRange {address len : ℕ} (h : InRange address len) :
    ValidRange address len := ⟨h.1, h.2.2⟩

theorem writeBytes_powered {address : ℕ} {value : List UInt8} (force : Bool) (h : self.Powered)
    (hrange : InRange address value.length) :
    Lockstep (Powered (p := p)) id (writeBytes address value force)
      (writeBytes address value force) self := by
  refine Lockstep.bind (Lockstep.ofResult h ?_) fun range s₁ _ h₁ =>
    Lockstep.bind (Lockstep.gets h₁ rfl) fun cache s₂ _ h₂ => ?_
  · rw [writeRange_of_valid (validRange_of_inRange hrange)]
    nofun
  · split
    · exact Lockstep.pure h₂ ()
    · exact Lockstep.bind (Lockstep.modify h₂ rfl) fun _ s₃ _ h₃ => syncCvs_powered h₃

end Flash

section Guard

variable {p : Profile} {self : Flash p}

/-- The operation on plain flash and on guarded flash. -/
abbrev GuardSafe {ε α : Type} (x : Proc (Flash p) ε α) (y : Proc (Guarded (Flash p)) ε α)
    (self : Flash p) : Prop :=
  Lockstep (Flash.Powered (p := p)) Guarded.mk x y self

theorem guardSafe_guarded {α : Type} {address len : ℕ} {x : Proc (Flash p) StoreError α}
    (h : Lockstep (Flash.Powered (p := p)) id x x self) (hrange : InRange address len) :
    GuardSafe x (Guarded.guarded address len x) self := by
  obtain ⟨r, self', hx, hne, hI, -⟩ := h
  refine ⟨r, self', hx, hne, hI, ?_⟩
  rw [Guarded.guarded, if_pos hrange, run_zoom, hx, Handler.mapError_id]

theorem guardSafe_readByte {address : ℕ} (h : self.Powered) (hrange : InRange address 1) :
    GuardSafe (Proc.read fun s => Store.readByte s address)
      (Proc.read fun s => Store.readByte s address) self := by
  refine Lockstep.read h ?_ (if_pos hrange)
  rw [ReadableStore.readByte_eq self hrange.1 hrange.2.1]
  exact Fault.ok_ne_panic _

theorem guardSafe_withStore {α : Type} {x : Proc (Flash p) StoreError α}
    {y : Proc (Guarded (Flash p)) StoreError α} (h : GuardSafe x y self) :
    GuardSafe (withStore x) (withStore y) self :=
  Lockstep.zoom h rfl (fun _ => rfl) fun _ => id

theorem guardSafe_readCv {address : ℕ} (h : self.Powered) (hrange : InRange address 1) :
    GuardSafe (readCv address) (readCv address) self :=
  guardSafe_withStore (guardSafe_readByte h hrange)

theorem guardSafe_writeCv {address : ℕ} (value : UInt8) (h : self.Powered)
    (hrange : InRange address 1) : GuardSafe (writeCv address value) (writeCv address value) self :=
  guardSafe_withStore (guardSafe_guarded (Flash.writeBytes_powered false h hrange) hrange)

theorem guardSafe_reset (h : self.Powered) :
    GuardSafe resetToFactoryDefaults resetToFactoryDefaults self := by
  have hrange : InRange 1 DEFAULT_VALUES.length := by
    rw [length_DEFAULT_VALUES]
    exact ⟨Nat.le_refl 1, by decide, Nat.le_of_eq (Nat.add_comm 1 CV_SIZE)⟩
  have hwrite : GuardSafe (Store.writeBytes 1 DEFAULT_VALUES true)
      (Guarded.guarded 1 DEFAULT_VALUES.length (Store.writeBytes 1 DEFAULT_VALUES true)) self :=
    guardSafe_guarded (Flash.writeBytes_powered true h hrange) hrange
  exact guardSafe_withStore hwrite

/-! ### Service-mode instructions -/

variable {packet : Packet}

theorem cvData_ne_panic : packet.cvData ≠ .error .panic := by
  rw [Packet.cvData]
  split
  · exact Fault.ok_ne_panic _
  · exact Fault.error_ne_panic _

theorem cvAddress_ne_panic : packet.cvAddress ≠ .error .panic := by
  rw [Packet.cvAddress]
  split
  · exact Fault.ok_ne_panic _
  · exact Fault.error_ne_panic _

theorem instructionType_ne_panic : packet.instructionType ≠ .error .panic := by
  rw [Packet.instructionType]
  split
  · exact Fault.error_ne_panic _
  · split
    · exact Fault.ok_ne_panic _
    · exact Fault.ok_ne_panic _
    · exact Fault.ok_ne_panic _
    · exact Fault.error_ne_panic _

theorem inRange_of_cvAddress {address : ℕ} (h : packet.cvAddress = .ok address) :
    InRange address 1 :=
  ⟨(Packet.cvAddress_mem h).1, (Packet.cvAddress_mem h).2,
    Nat.succ_le_succ (Packet.cvAddress_mem h).2⟩

/-- A field of the packet, read with `?`. -/
theorem guardSafe_ofPacket {α β : Type} {x : Except (Fault PacketError) α}
    {k : α → Proc (Flash p) HandlerError β} {l : α → Proc (Guarded (Flash p)) HandlerError β}
    (h : self.Powered) (hx : x ≠ .error .panic)
    (hk : ∀ a, x = .ok a → GuardSafe (k a) (l a) self) :
    GuardSafe (ofPacket x >>= k) (ofPacket x >>= l) self := by
  refine Lockstep.bind (Lockstep.ofResult h hx) fun a self' hrun _ => ?_
  obtain ⟨hok, rfl⟩ := ok_of_ofResult hrun
  exact hk a hok

theorem guardSafe_verifyByte (h : self.Powered) :
    GuardSafe (verifyByte packet) (verifyByte packet) self :=
  guardSafe_ofPacket h cvData_ne_panic fun _ _ =>
    guardSafe_ofPacket h cvAddress_ne_panic fun _ ha =>
      Lockstep.bind (guardSafe_readCv h (inRange_of_cvAddress ha)) fun _ _ _ h' =>
        Lockstep.pure h' _

theorem guardSafe_writePrimaryAddress (value : UInt8) (h : self.Powered) :
    GuardSafe (writePrimaryAddress value) (writePrimaryAddress value) self := by
  refine Lockstep.bind (guardSafe_writeCv value h (by decide)) fun _ _ _ h₁ => ?_
  refine Lockstep.bind (guardSafe_readCv h₁ (by decide)) fun cv29 _ _ h₂ => ?_
  refine Lockstep.bind (guardSafe_writeCv _ h₂ (by decide)) fun _ _ _ h₃ => ?_
  refine Lockstep.bind (guardSafe_writeCv 0 h₃ (by decide)) fun _ _ _ h₄ => ?_
  exact Lockstep.pure h₄ _

theorem guardSafe_writeByte (h : self.Powered) :
    GuardSafe (writeByte packet) (writeByte packet) self := by
  refine guardSafe_ofPacket h cvAddress_ne_panic fun address ha => ?_
  split
  · exact Lockstep.pure h _
  split
  · refine guardSafe_ofPacket h cvData_ne_panic fun value _ => ?_
    split
    · exact Lockstep.fail h _
    · exact guardSafe_writePrimaryAddress value h
  · refine guardSafe_ofPacket h cvData_ne_panic fun value _ => ?_
    split
    · exact Lockstep.bind (guardSafe_reset h) fun _ _ _ h' => Lockstep.pure h' _
    · exact Lockstep.pure h _
  · refine guardSafe_ofPacket h cvData_ne_panic fun value _ => ?_
    split
    · exact Lockstep.bind (guardSafe_writeCv 255 h (by decide)) fun _ _ _ h' =>
        Lockstep.pure h' _
    · exact Lockstep.pure h _
  -- the two bytes of the long address each read the other one first
  · refine guardSafe_ofPacket h cvData_ne_panic fun value _ =>
      Lockstep.bind (guardSafe_readCv h (by decide)) fun cv18 _ _ h₁ => ?_
    split
    · exact Lockstep.fail h₁ _
    · exact Lockstep.bind (guardSafe_writeCv value h₁ (by decide)) fun _ _ _ h' =>
        Lockstep.pure h' _
  · refine guardSafe_ofPacket h cvData_ne_panic fun value _ =>
      Lockstep.bind (guardSafe_readCv h (by decide)) fun cv17 _ _ h₁ => ?_
    split
    · exact Lockstep.fail h₁ _
    · exact Lockstep.bind (guardSafe_writeCv value h₁ (by decide)) fun _ _ _ h' =>
        Lockstep.pure h' _
  · refine guardSafe_ofPacket h cvData_ne_panic fun value _ => ?_
    exact Lockstep.bind (guardSafe_writeCv value h (inRange_of_cvAddress ha)) fun _ _ _ h' =>
      Lockstep.pure h' _

theorem guardSafe_manipulateBit (h : self.Powered) :
    GuardSafe (manipulateBit packet) (manipulateBit packet) self := by
  refine guardSafe_ofPacket h cvData_ne_panic fun packed _ => ?_
  split
  · exact Lockstep.fail h _
  refine guardSafe_ofPacket h cvAddress_ne_panic fun address ha =>
    Lockstep.bind (guardSafe_readCv h (inRange_of_cvAddress ha)) fun current _ _ h₁ => ?_
  split
  · exact Lockstep.bind (guardSafe_writeCv _ h₁ (inRange_of_cvAddress ha)) fun _ _ _ h' =>
      Lockstep.pure h' _
  · exact Lockstep.pure h₁ _

/-- A confirmed service-mode packet does not panic, and asks the store for CVs
it has only. -/
theorem executeServicePacket_lockstep (h : self.Powered) :
    GuardSafe (executeServicePacket packet) (executeServicePacket packet) self := by
  rw [executeServicePacket, executeServicePacket]
  split
  · exact Lockstep.bind (guardSafe_reset h) fun _ _ _ h' => Lockstep.pure h' _
  · refine guardSafe_ofPacket h instructionType_ne_panic fun t _ => ?_
    cases t with
    | manipulateBit => exact guardSafe_manipulateBit h
    | verifyByte => exact guardSafe_verifyByte h
    | writeByte => exact guardSafe_writeByte h

end Guard

/-! ### Decoded packets -/

/-- The codec produced the packet. -/
def Decoded (packet : Packet) : Prop := ∃ raw, DccCodec.decode raw = .ok (some packet)

section Decoded

variable {packet : Packet}

theorem data_of_decoded (h : Decoded packet) : ∃ d₀ d₁ rest, packet.data = d₀ :: d₁ :: rest := by
  obtain ⟨raw, hraw⟩ := h
  obtain ⟨d₀, d₁, d₂, rest, -, hdata, -⟩ := decode_cases hraw
  exact ⟨d₀, d₁, _, hdata⟩

theorem addr_ne_panic (h : Decoded packet) : packet.addr ≠ .error .panic := by
  obtain ⟨d₀, d₁, rest, hdata⟩ := data_of_decoded h
  rw [addr_cons hdata]
  split_ifs
  · exact Fault.ok_ne_panic _
  · exact Fault.ok_ne_panic _
  · exact Fault.error_ne_panic _

theorem addressLength_ne_panic (h : Decoded packet) : packet.addressLength ≠ .error .panic := by
  obtain ⟨d₀, d₁, rest, hdata⟩ := data_of_decoded h
  rw [addressLength_cons hdata]
  split_ifs
  · exact Fault.ok_ne_panic _
  · exact Fault.ok_ne_panic _
  · exact Fault.error_ne_panic _

theorem tryFrom_ne_panic (h : Decoded packet) :
    OperationModeInstruction.tryFrom packet ≠ .error .panic := by
  rw [OperationModeInstruction.tryFrom]
  cases hlen : packet.addressLength with
  | error e =>
    rintro he
    have hpanic : e = .panic := Except.error.inj he
    exact addressLength_ne_panic h (hpanic ▸ hlen)
  | ok n =>
    simp only [bind, Except.bind]
    -- past the address every failure is an error of the parser
    split
    · exact Fault.error_ne_panic _
    · split
      · split
        · split
          · exact Fault.error_ne_panic _
          · exact Fault.ok_ne_panic _
        · exact Fault.error_ne_panic _
      · exact Fault.ok_ne_panic _
      · exact Fault.ok_ne_panic _
      · split
        · exact Fault.error_ne_panic _
        · split
          · exact Fault.ok_ne_panic _
          · exact Fault.error_ne_panic _
      · exact Fault.error_ne_panic _

theorem handleCommand_ne_panic (h : Decoded packet) :
    Handler.handleCommand packet ≠ .error .panic := by
  rw [Handler.handleCommand]
  split
  · exact Fault.ok_ne_panic _
  · exact Fault.ok_ne_panic _
  · rename_i e he
    cases e with
    | error e => exact Fault.error_ne_panic _
    | panic => exact absurd he (tryFrom_ne_panic h)

theorem isBroadcast_ne_panic {ε : Type} (h : Decoded packet) :
    (isBroadcast packet : Except (Fault ε) Bool) ≠ .error .panic := by
  rw [isBroadcast]
  split
  · rename_i he
    exact absurd he (addr_ne_panic h)
  · exact Fault.ok_ne_panic _
  · exact Fault.ok_ne_panic _

theorem isRecipient_ne_panic {ε S : Type} [Store S] [ReadableStore S] (h : Decoded packet)
    (store : S) : (isRecipient packet store : Except (Fault ε) Bool) ≠ .error .panic := by
  obtain ⟨d₀, d₁, rest, hdata⟩ := data_of_decoded h
  obtain ⟨b, hb, -⟩ := isRecipient_eq (ε := ε) hdata store
  rw [hb]
  exact Fault.ok_ne_panic b

end Decoded

/-! ### The handler -/

namespace Handler

open Transition

variable {T : Type} {p : Profile}

/-- The handler over the guarded store. -/
def overGuard (self : Handler T (Flash p)) : Handler T (Guarded (Flash p)) :=
  ⟨self.enterServiceModeTimer, ⟨self.store⟩, self.pendingServicePacket⟩

/-- The power of the store stays on. -/
def StorePowered (self : Handler T (Flash p)) : Prop := self.store.Powered

variable {self : Handler T (Flash p)} {c : Call}

theorem handleServiceMode_lockstep (h : self.StorePowered) :
    Lockstep StorePowered overGuard (handleServiceMode c.packet) (handleServiceMode c.packet)
      self := by
  refine Lockstep.bind (Lockstep.gets h rfl) fun pending s₁ _ h₁ => ?_
  split
  · exact Lockstep.bind (Lockstep.modify h₁ rfl) fun _ _ _ h₂ => Lockstep.pure h₂ _
  · refine Lockstep.bind (Lockstep.modify h₁ rfl) fun _ s₂ _ h₂ => ?_
    exact Lockstep.zoom (executeServicePacket_lockstep h₂) rfl (fun _ => rfl) fun _ => id

variable [Timer T]

theorem inServiceMode_ne_panic (h : Decoded c.packet) :
    self.inServiceMode c.now c.packet ≠ .error .panic := by
  obtain ⟨d₀, d₁, rest, hdata⟩ := data_of_decoded h
  rw [inServiceMode, Packet.serviceModeCandidate, hdata]
  split
  · split
    · exact Fault.ok_ne_panic _
    · exact Fault.ok_ne_panic _
  · exact Fault.ok_ne_panic _

/-- A call on a decoded packet does not panic, and asks the store for CVs it
has only. -/
theorem handle_lockstep (h : self.StorePowered) (hc : Decoded c.packet) :
    Lockstep StorePowered overGuard (handle c.now c.packet) (handle c.now c.packet) self := by
  rw [handle, handle]
  -- reset packet, service mode, own address, broadcast, or a packet for others
  split
  · exact Lockstep.bind (Lockstep.modify h rfl) fun _ _ _ h₁ => Lockstep.pure h₁ _
  refine Lockstep.bind (Lockstep.read h (inServiceMode_ne_panic hc) rfl) fun service s₁ _ h₁ => ?_
  split
  · exact Lockstep.bind (Lockstep.modify h₁ rfl) fun _ _ _ h₂ => handleServiceMode_lockstep h₂
  refine Lockstep.bind (Lockstep.read h₁ (isRecipient_ne_panic hc _) rfl)
    fun recipient s₂ _ h₂ => ?_
  split
  · exact Lockstep.bind (Lockstep.modify h₂ rfl) fun _ _ _ h₃ =>
      Lockstep.ofResult h₃ (handleCommand_ne_panic hc)
  refine Lockstep.bind (Lockstep.read h₂ (isBroadcast_ne_panic hc) rfl)
    fun broadcast s₃ _ h₃ => ?_
  split
  · exact Lockstep.ofResult h₃ (handleCommand_ne_panic hc)
  · exact Lockstep.pure h₃ _

theorem storePowered_next {self' : Handler T (Flash p)} (h : self.StorePowered)
    (hc : Decoded c.packet) (hnext : self.next c = some self') : self'.StorePowered := by
  have hkeeps := (handle_lockstep h hc).keeps
  rwa [(run_of_next hnext).1] at hkeeps

/-- **The packet path does not panic.**  Decoding panics on no raw slice.  In
every run over decoded packets, whatever the timer reads, no further call on a
decoded packet panics, and with a store that panics on a CV number outside
1..=1024 it does the same.  The checks of parsing that the model leaves out
never fail either. -/
theorem handle_never_panics {timer : T} {store : Flash p}
    {t : List (Event (Handler T (Flash p)) Call)} (hpower : store.Powered)
    (hrun : Run (fun h c h' => next h c = some h') (Handler.new timer store) t self)
    (hdecoded : ∀ e ∈ t, Decoded e.label.packet) :
    (∀ raw, DccCodec.decodeChecked p raw = (DccCodec.decode raw).mapError .error) ∧
    (∀ packet, Decoded packet →
      packet.addr ≠ .error .panic ∧
      OperationModeInstruction.tryFromChecked p packet ≠ .error .panic ∧
      OperationModeInstruction.tryFromChecked p packet =
        OperationModeInstruction.tryFrom packet ∧
      packet.cvAddressChecked p ≠ .error .panic ∧
      packet.cvAddressChecked p = packet.cvAddress) ∧
    (∀ current packed : UInt8,
      (withBitChecked p current packed : Except (Fault HandlerError) UInt8) =
        .ok (withBit current packed) ∧
      (bitChecked p current packed : Except (Fault HandlerError) UInt8) =
        .ok ((current >>> (packed &&& 0b00000111)) &&& 1)) ∧
    ∀ c : Call, Decoded c.packet →
      ((handle c.now c.packet).run self).1 ≠ .error .panic ∧
      (handle c.now c.packet).run self.overGuard =
        (((handle c.now c.packet).run self).1, ((handle c.now c.packet).run self).2.overGuard) := by
  -- the handler reached still has a powered store
  have hstore : self.StorePowered :=
    (hrun.invariant_on (I := StorePowered) (C := fun e => Decoded e.label.packet)
      (fun _ hd hstep hI => storePowered_next hI hd hstep) hpower hdecoded).1
  refine ⟨decodeChecked_eq, fun packet hd => ?_, fun current packed => ?_, fun c hc => ?_⟩
  · rw [tryFromChecked_eq, cvAddressChecked_eq]
    exact ⟨addr_ne_panic hd, tryFrom_ne_panic hd, rfl, cvAddress_ne_panic, rfl⟩
  · exact ⟨withBitChecked_eq current packed, bitChecked_eq current packed⟩
  · exact ⟨(handle_lockstep hstore hc).ne_panic, (handle_lockstep hstore hc).run_eq⟩

/-- A reset packet, and a write sent twice and then once more. -/
theorem write_never_panics :
    ∃ t h, Run (fun h c h' => next h c = some h') startup t h ∧ t.length = 3 ∧
      ((handle 3000 writePacket).run h).1 ≠ .error .panic ∧
      (handle 3000 writePacket).run h.overGuard =
        (((handle 3000 writePacket).run h).1, ((handle 3000 writePacket).run h).2.overGuard) := by
  have hreset : Decoded resetPacket := ⟨[0, 0, 0], by decide⟩
  have hwrite : Decoded writePacket := ⟨[0x7C, 0x02, 0x14, 0x6A], by decide⟩
  have hrun := Run.of_exec next
    [⟨0, resetPacket⟩, ⟨1000, writePacket⟩, ⟨2000, writePacket⟩] (s := startup) rfl
  have hsafe := handle_never_panics (fun _ h => by cases h) hrun
    (List.forall_mem_cons.mpr ⟨hreset, List.forall_mem_cons.mpr ⟨hwrite,
      List.forall_mem_singleton.mpr hwrite⟩⟩)
  exact ⟨_, _, hrun, rfl, hsafe.2.2.2 ⟨3000, writePacket⟩ hwrite⟩

end Handler

end Rp2040
