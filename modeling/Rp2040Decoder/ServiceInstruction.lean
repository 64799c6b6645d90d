/-
Service-mode instructions as a programmer sends them, and what a confirmed one
does.

A packet carries the kind of the instruction in two bits, the CV number less
one in ten, and a byte: the value of the CV, or `111KDBBB` for one of its bits.

* `testBit_setBit`, `eq_of_testBit` — a byte and its bits;
* `ServiceInstruction.bytes` — the packets, and the fields read back from them;
* `Handler.Confirmed` — the two calls that execute a packet;
* `execute_verifyByte`, `execute_verifyBit`, `execute_writeBit`,
  `execute_writeByte_ignored` and so on — what the instructions do, by CV number.
-/
import Mathlib.Data.Set.Function
import Mathlib.Order.Interval.Set.Defs
import Rp2040Decoder.AddressRange

namespace Rp2040

open ReadableStore

/-! ### Bits of a byte -/

/-- The byte with bit `b` set to `v`. -/
def setBit (x : UInt8) (b : Fin 8) (v : Bool) : UInt8 :=
  if v then x ||| 1 <<< UInt8.ofNat b else x &&& ~~~(1 <<< UInt8.ofNat b)

/-- `111KDBBB`: bit `b` is written (`k`) or verified, with the value `v`. -/
def packBit (k : Bool) (b : Fin 8) (v : Bool) : UInt8 :=
  0b11100000 ||| (if k then 0b00010000 else 0) ||| (if v then 0b00001000 else 0) |||
    UInt8.ofNat b

/-- A byte is its eight bits. -/
theorem eq_of_testBit {x y : UInt8}
    (h : ∀ i : Fin 8, x.toNat.testBit i = y.toNat.testBit i) : x = y := by
  refine UInt8.toNat_inj.mp (Nat.eq_of_testBit_eq fun i => ?_)
  by_cases hi : i < 8
  · exact h ⟨i, hi⟩
  · have hpow : 2 ^ 8 ≤ 2 ^ i := Nat.pow_le_pow_right (by omega) (by omega)
    rw [Nat.testBit_lt_two_pow (Nat.lt_of_lt_of_le x.toNat_lt hpow),
      Nat.testBit_lt_two_pow (Nat.lt_of_lt_of_le y.toNat_lt hpow)]

theorem testBit_mask (b i : Fin 8) :
    (1 <<< UInt8.ofNat b : UInt8).toNat.testBit i = decide (i = b) := by
  revert b i
  decide

theorem testBit_not_mask (b i : Fin 8) :
    (~~~(1 <<< UInt8.ofNat b) : UInt8).toNat.testBit i = !decide (i = b) := by
  revert b i
  decide

theorem testBit_setBit (x : UInt8) (b i : Fin 8) (v : Bool) :
    (setBit x b v).toNat.testBit i = if i = b then v else x.toNat.testBit i := by
  rw [setBit]
  cases v with
  | true =>
    rw [if_pos rfl, UInt8.toNat_or, Nat.testBit_or, testBit_mask]
    by_cases h : i = b
    · simp [h]
    · simp [h]
  | false =>
    rw [if_neg Bool.false_ne_true, UInt8.toNat_and, Nat.testBit_and, testBit_not_mask]
    by_cases h : i = b
    · simp [h]
    · simp [h]

/-- The firmware clears the bit and puts the value in its place. -/
theorem withBit_packBit (x : UInt8) (b : Fin 8) (v : Bool) :
    withBit x (packBit true b v) = setBit x b v := by
  have hmask : ∀ (b : Fin 8) (v : Bool),
      (1 : UInt8) <<< (packBit true b v &&& 0b00000111) = 1 <<< UInt8.ofNat b := by decide
  have hval : ∀ (b : Fin 8) (v : Bool),
      ((packBit true b v &&& 0b00001000) >>> 3) <<< (packBit true b v &&& 0b00000111) =
        if v then 1 <<< UInt8.ofNat b else 0 := by decide
  show (x &&& ~~~((1 : UInt8) <<< (packBit true b v &&& 0b00000111))) ||| _ = setBit x b v
  rw [hmask, hval]
  refine eq_of_testBit fun i => ?_
  rw [testBit_setBit, UInt8.toNat_or, UInt8.toNat_and, Nat.testBit_or, Nat.testBit_and,
    testBit_not_mask]
  cases v with
  | true =>
    rw [if_pos rfl, testBit_mask]
    by_cases h : i = b
    · simp [h]
    · simp [h]
  | false =>
    by_cases h : i = b
    · simp [h]
    · simp [h]

/-- The firmware shifts the bit down and compares it with the value. -/
theorem bitMatches_packBit (x : UInt8) (b : Fin 8) (v : Bool) :
    ((x >>> (packBit false b v &&& 0b00000111)) &&& (1 : UInt8)) =
      (packBit false b v &&& 0b00001000) >>> 3 ↔ x.toNat.testBit b = v := by
  have hpos : ∀ (b : Fin 8) (v : Bool), packBit false b v &&& 0b00000111 = UInt8.ofNat b := by
    decide
  have hval : ∀ (b : Fin 8) (v : Bool),
      (packBit false b v &&& 0b00001000) >>> 3 = if v then 1 else 0 := by decide
  have hb : (UInt8.ofNat b).toNat % 8 = b.val := by
    revert b
    decide
  rw [hpos, hval, ← UInt8.toNat_inj, UInt8.toNat_and, UInt8.toNat_shiftRight, hb,
    Nat.testBit_eq_decide_div_mod_eq, Nat.shiftRight_eq_div_pow]
  show x.toNat / 2 ^ b.val &&& 1 = _ ↔ _
  rw [Nat.and_one_is_mod]
  cases v with
  | true =>
    rw [decide_eq_true_iff]
    exact Iff.rfl
  | false =>
    rw [decide_eq_false_iff_not]
    show x.toNat / 2 ^ b.val % 2 = 0 ↔ _
    omega

/-! ### The packets -/

/-- An instruction for CV `cvAddr`. -/
inductive ServiceInstruction
  | verifyByte (cvAddr : ℕ) (value : UInt8)
  | writeByte (cvAddr : ℕ) (value : UInt8)
  | verifyBit (cvAddr : ℕ) (bitPos : Fin 8) (bitVal : Bool)
  | writeBit (cvAddr : ℕ) (bitPos : Fin 8) (bitVal : Bool)
  deriving DecidableEq, Repr

/-- The discriminant. -/
def ServiceInstructionType.code : ServiceInstructionType → UInt8
  | .manipulateBit => 0b10
  | .verifyByte => 0b01
  | .writeByte => 0b11

namespace ServiceInstruction

def cvAddr : ServiceInstruction → ℕ
  | verifyByte a _ => a
  | writeByte a _ => a
  | verifyBit a _ _ => a
  | writeBit a _ _ => a

def type : ServiceInstruction → ServiceInstructionType
  | verifyByte _ _ => .verifyByte
  | writeByte _ _ => .writeByte
  | verifyBit _ _ _ => .manipulateBit
  | writeBit _ _ _ => .manipulateBit

def data : ServiceInstruction → UInt8
  | verifyByte _ value => value
  | writeByte _ value => value
  | verifyBit _ b v => packBit false b v
  | writeBit _ b v => packBit true b v

/-- `0111CCAA AAAAAAAA DDDDDDDD` -/
def bytes (i : ServiceInstruction) : List UInt8 :=
  [(0x70 : UInt8) ||| i.type.code <<< 2 ||| UInt8.ofNat ((i.cvAddr - 1) / 256 % 4),
    UInt8.ofNat ((i.cvAddr - 1) % 256), i.data]

end ServiceInstruction

/-- The packet starts with the bytes of the instruction. -/
def Packet.Carries (packet : Packet) (i : ServiceInstruction) : Prop := i.bytes <+: packet.data

/-- The packet that carries the instruction and nothing else. -/
def ServiceInstruction.packet (i : ServiceInstruction) : Packet :=
  ⟨i.bytes, show 3 ≤ 6 by omega⟩

theorem ServiceInstruction.carries_packet (i : ServiceInstruction) : i.packet.Carries i :=
  List.prefix_rfl

namespace Packet

variable {packet : Packet} {i : ServiceInstruction}

theorem instructionType_of_carries (h : packet.Carries i) :
    packet.instructionType = .ok i.type := by
  obtain ⟨rest, hrest⟩ := h
  have hcode : ∀ (t : ServiceInstructionType) (hi : Fin 4),
      ((0x70 : UInt8) ||| t.code <<< 2 ||| UInt8.ofNat hi) >>> 2 &&& 0b11 = t.code := by
    intro t
    cases t <;> decide
  rw [instructionType, ← hrest]
  simp only [ServiceInstruction.bytes, List.cons_append]
  rw [hcode i.type ⟨(i.cvAddr - 1) / 256 % 4, by omega⟩]
  cases i.type <;> rfl

theorem cvAddress_of_carries (h : packet.Carries i) (h₁ : 1 ≤ i.cvAddr)
    (h₂ : i.cvAddr ≤ CV_SIZE) : packet.cvAddress = .ok i.cvAddr := by
  obtain ⟨rest, hrest⟩ := h
  have hhigh : ∀ (t : ServiceInstructionType) (hi : Fin 4),
      ((0x70 : UInt8) ||| t.code <<< 2 ||| UInt8.ofNat hi) &&& 0b0000011 = UInt8.ofNat hi := by
    intro t
    cases t <;> decide
  rw [cvAddress, ← hrest]
  simp only [ServiceInstruction.bytes, List.cons_append]
  rw [hhigh i.type ⟨(i.cvAddr - 1) / 256 % 4, by omega⟩,
    UInt8.toNat_ofNat_of_lt' (show (i.cvAddr - 1) / 256 % 4 < 256 by omega),
    UInt8.toNat_ofNat_of_lt' (show (i.cvAddr - 1) % 256 < 256 by omega)]
  rw [CV_SIZE] at h₂
  exact congrArg Except.ok (by omega)

theorem cvData_of_carries (h : packet.Carries i) : packet.cvData = .ok i.data := by
  obtain ⟨rest, hrest⟩ := h
  rw [cvData, ← hrest]
  rfl

theorem data_ne_of_carries (h : packet.Carries i) :
    packet.data ≠ [0b01111111, 0b00001000] := by
  obtain ⟨rest, hrest⟩ := h
  intro hd
  rw [hd] at hrest
  have hlength := congrArg List.length hrest
  simp [ServiceInstruction.bytes] at hlength

end Packet

/-! ### The calls -/

namespace Handler

variable {T S : Type} [Store S] {self self' : Handler T S} {packet : Packet}
  {r : Except (Fault HandlerError) (Option Op)}

theorem handleServiceMode_of_pending (h : self.pendingServicePacket = some packet) :
    (handleServiceMode packet).run self =
      (((executeServicePacket packet).run self.store).1,
        ⟨self.enterServiceModeTimer, ((executeServicePacket packet).run self.store).2, none⟩) := by
  rw [handleServiceMode, Proc.run_gets_bind, if_neg (not_not.mpr h), Proc.run_modify_bind,
    Proc.run_zoom, mapError_id]

variable [Timer T]

/-- Two calls in a row on the packet, both handled as service-mode packets: the
first latches it, the second executes it. -/
def Confirmed (self : Handler T S) (packet : Packet)
    (r : Except (Fault HandlerError) (Option Op)) (self' : Handler T S) : Prop :=
  ∃ now₁ now₂ self₁, self.Latches ⟨now₁, packet⟩ ∧ self.next ⟨now₁, packet⟩ = some self₁ ∧
    self₁.ServiceCall ⟨now₂, packet⟩ ∧ (handle now₂ packet).run self₁ = (r, self')

theorem handle_of_serviceCall {c : Call} (h : self.ServiceCall c) :
    (handle c.now c.packet).run self =
      (handleServiceMode c.packet).run (self.startTimer c.now) := by
  obtain ⟨hreset, hservice⟩ := h
  rw [handle, if_neg (by rw [hreset]; exact Bool.false_ne_true), Proc.run_read_bind hservice,
    if_pos rfl, Proc.run_modify_bind]

theorem next_of_latches {c : Call} (h : self.Latches c) :
    self.next c = some { self.startTimer c.now with pendingServicePacket := some c.packet } := by
  obtain ⟨hservice, hp⟩ := h
  have hp' : (self.startTimer c.now).pendingServicePacket ≠ some c.packet := hp
  rw [next, handle_of_serviceCall hservice, handleServiceMode, Proc.run_gets_bind, if_pos hp',
    Proc.run_modify_bind, Proc.run_pure]

/-- The second call executes the packet on the store the first one has left
alone. -/
theorem run_of_confirmed (h : self.Confirmed packet r self') :
    (executeServicePacket packet).run self.store = (r, self'.store) := by
  obtain ⟨now₁, now₂, self₁, hlatch, hnext, hservice, hrun⟩ := h
  rw [next_of_latches hlatch] at hnext
  obtain rfl := Option.some.inj hnext
  have hrun' := (handle_of_serviceCall hservice).symm.trans hrun
  rw [handleServiceMode_of_pending rfl, Prod.mk.injEq] at hrun'
  obtain ⟨hr, hself⟩ := hrun'
  rw [← hself]
  exact Prod.ext hr rfl

/-- A handler in service mode, with the factory defaults. -/
def programming : Handler InstantTimer (Flash .release) := ⟨⟨some 0⟩, Flash.defaultFlash, none⟩

end Handler

/-! ### What the instructions do -/

theorem Cv.number_of_tryFrom {a : ℕ} {c : Cv} (h : Cv.tryFrom a = some c) : c.number = a := by
  have hc := List.find?_some h
  exact of_decide_eq_true hc

/-- `write_byte` stores the value in the CV, whatever else it does. -/
def WriteAccepted (cvs : ℕ → UInt8) (a : ℕ) (value : UInt8) : Prop :=
  (a ≠ 7 ∧ a ≠ 8 ∧ a ≠ 31 ∧ a ≠ 32) ∧ ¬ Handler.Rejected cvs a value

/-- The same content in all CVs the store has. -/
def SameCvs (cvs cvs' : ℕ → UInt8) : Prop := Set.EqOn cvs cvs' (Set.Icc 1 CV_SIZE)

theorem WriteAccepted.primary {cvs : ℕ → UInt8} {value : UInt8} (h : WriteAccepted cvs 1 value) :
    1 ≤ value ∧ value ≤ 127 :=
  not_not.mp fun hn => h.2 (Or.inl ⟨rfl, hn⟩)

theorem not_writeAccepted_iff {cvs : ℕ → UInt8} {a : ℕ} {value : UInt8} :
    ¬ WriteAccepted cvs a value ↔
      Handler.Rejected cvs a value ∨ a = 7 ∨ a = 8 ∨ (a = 31 ∨ a = 32) := by
  rw [WriteAccepted]
  tauto

section Execute

variable {S : Type} {packet : Packet} {s : S} {a : ℕ} {value : UInt8}

theorem ofPacket_ok_bind {α β : Type} {x : Except (Fault PacketError) α} {b : α}
    {k : α → Proc S HandlerError β} (h : x = .ok b) :
    (ofPacket x >>= k).run s = (k b).run s := by
  rw [ofPacket, Proc.run_ofResult_bind h]

variable [Store S]

theorem writeCv_bind_of_ok {α : Type} {s' : S} {k : Unit → Proc S HandlerError α}
    (h : (Store.writeByte a value).run s = (.ok (), s')) :
    (writeCv a value >>= k).run s = (k ()).run s' :=
  Proc.run_bind_of_ok (withStore_run h)

theorem writeCv_bind_of_error {α : Type} {s' : S} {k : Unit → Proc S HandlerError α}
    {e : Fault StoreError} (h : (Store.writeByte a value).run s = (.error e, s')) :
    (writeCv a value >>= k).run s = (.error (e.map .store), s') :=
  Proc.run_bind_of_error (by rw [writeCv, withStore, Proc.run_zoom, id, h]; rfl)

theorem writePrimaryAddress_eq : (writePrimaryAddress value : Proc S HandlerError (Option Op)) =
    (do
      writeCv 1 value
      let cv29 ← readCv 29
      writeCv 29 (cv29 &&& ~~~0b00100000)
      writeCv 19 0
      return some .acknowledgeCv) := rfl

/-- The method for a kind of instruction. -/
def method (packet : Packet) : ServiceInstructionType → Proc S HandlerError (Option Op)
  | .manipulateBit => manipulateBit packet
  | .verifyByte => verifyByte packet
  | .writeByte => writeByte packet

/-- The kind of the instruction selects the method. -/
theorem execute_of_carries {i : ServiceInstruction} (h : packet.Carries i) :
    (executeServicePacket packet).run s = (method packet i.type).run s := by
  rw [executeServicePacket, if_neg (Packet.data_ne_of_carries h),
    ofPacket_ok_bind (Packet.instructionType_of_carries h)]
  cases i.type <;> rfl

theorem execute_writeByte (h : packet.Carries (.writeByte a value)) (h₁ : 1 ≤ a)
    (h₂ : a ≤ CV_SIZE) :
    (executeServicePacket packet).run s = (writeByte packet).run s ∧
      packet.cvAddress = .ok a ∧ packet.cvData = .ok value :=
  ⟨execute_of_carries h, Packet.cvAddress_of_carries h h₁ h₂, Packet.cvData_of_carries h⟩

/-- CV31 and CV32 are ignored. -/
theorem execute_writeByte_ignored (h : packet.Carries (.writeByte a value))
    (ha : a = 31 ∨ a = 32) : (executeServicePacket packet).run s = (.ok none, s) := by
  have hsize : a ≤ CV_SIZE := by
    rw [CV_SIZE]
    omega
  obtain ⟨hrun, hcv, -⟩ := execute_writeByte (s := s) h (by omega) hsize
  rw [hrun, writeByte, ofPacket_ok_bind hcv, if_pos ha, Proc.run_pure]

/-- CV8 can only be asked for a reset. -/
theorem execute_writeByte_id (h : packet.Carries (.writeByte 8 value)) :
    (executeServicePacket packet).run s =
      (if value = 8 then resetToFactoryDefaults >>= fun _ => pure (some Op.reboot)
        else pure none : Proc S HandlerError (Option Op)).run s := by
  obtain ⟨hrun, hcv, hdata⟩ := execute_writeByte (s := s) h (by omega) (by decide)
  rw [hrun, writeByte, ofPacket_ok_bind hcv, if_neg (by omega)]
  show (ofPacket packet.cvData >>= _).run s = _
  rw [ofPacket_ok_bind hdata]

/-- CV7 asks for a reboot, and with 7 for a new ADC offset. -/
theorem execute_writeByte_version (h : packet.Carries (.writeByte 7 value)) :
    (executeServicePacket packet).run s =
      (if value = 7 then withStore Store.emfAdcOffsetClear >>= fun _ => pure (some Op.reboot)
        else pure (some Op.reboot) : Proc S HandlerError (Option Op)).run s := by
  obtain ⟨hrun, hcv, hdata⟩ := execute_writeByte (s := s) h (by omega) (by decide)
  rw [hrun, writeByte, ofPacket_ok_bind hcv, if_neg (by omega)]
  show (ofPacket packet.cvData >>= _).run s = _
  rw [ofPacket_ok_bind hdata]

/-- A short address in range is stored. -/
theorem execute_writeByte_primary (h : packet.Carries (.writeByte 1 value))
    (hv : 1 ≤ value ∧ value ≤ 127) :
    (executeServicePacket packet).run s = (writePrimaryAddress value).run s := by
  obtain ⟨hrun, hcv, hdata⟩ := execute_writeByte (s := s) h (by omega) (by decide)
  rw [hrun, writeByte, ofPacket_ok_bind hcv, if_neg (by omega)]
  show (ofPacket packet.cvData >>= _).run s = _
  rw [ofPacket_ok_bind hdata, if_neg (not_not.mpr hv)]

variable [ReadableStore S]

/-- A value outside the range of an address CV is an error. -/
theorem execute_writeByte_rejected (h : packet.Carries (.writeByte a value))
    (hr : Handler.Rejected (cvs s) a value) :
    (executeServicePacket packet).run s =
      (.error (.error (.packet .invalidInstruction)), s) := by
  rcases hr with ⟨rfl, hv⟩ | ⟨rfl, hv⟩ | ⟨rfl, hv⟩
  · obtain ⟨hrun, hcv, hdata⟩ := execute_writeByte (s := s) h (by omega) (by decide)
    rw [hrun, writeByte, ofPacket_ok_bind hcv, if_neg (by omega)]
    show (ofPacket packet.cvData >>= _).run s = _
    rw [ofPacket_ok_bind hdata, if_pos hv]
    rfl
  · obtain ⟨hrun, hcv, hdata⟩ := execute_writeByte (s := s) h (by omega) (by decide)
    rw [hrun, writeByte, ofPacket_ok_bind hcv, if_neg (by omega)]
    show (ofPacket packet.cvData >>= _).run s = _
    rw [ofPacket_ok_bind hdata, readCv_bind (by decide) (by decide)]
    exact congrArg (fun x : Proc S HandlerError (Option Op) => x.run s) (if_pos hv)
  · obtain ⟨hrun, hcv, hdata⟩ := execute_writeByte (s := s) h (by omega) (by decide)
    rw [hrun, writeByte, ofPacket_ok_bind hcv, if_neg (by omega)]
    show (ofPacket packet.cvData >>= _).run s = _
    rw [ofPacket_ok_bind hdata, readCv_bind (by decide) (by decide)]
    exact congrArg (fun x : Proc S HandlerError (Option Op) => x.run s) (if_pos hv)

/-- Any other accepted value is one write. -/
theorem execute_writeByte_plain (h : packet.Carries (.writeByte a value)) (h₁ : 1 ≤ a)
    (h₂ : a ≤ CV_SIZE) (hne : a ≠ 1) (ha : WriteAccepted (cvs s) a value) :
    (executeServicePacket packet).run s =
      (writeCv a value >>= fun _ => pure (some Op.acknowledgeCv) :
        Proc S HandlerError (Option Op)).run s := by
  obtain ⟨⟨h7, h8, h31, h32⟩, hr⟩ := ha
  obtain ⟨hrun, hcv, hdata⟩ := execute_writeByte (s := s) h h₁ h₂
  rw [hrun, writeByte, ofPacket_ok_bind hcv, if_neg (by omega)]
  split
  · rename_i hc
    exact absurd (Cv.number_of_tryFrom hc).symm hne
  · rename_i hc
    exact absurd (Cv.number_of_tryFrom hc).symm h8
  · rename_i hc
    exact absurd (Cv.number_of_tryFrom hc).symm h7
  · rename_i hc
    obtain rfl : 17 = a := Cv.number_of_tryFrom hc
    rw [ofPacket_ok_bind hdata, readCv_bind (by decide) (by decide)]
    exact congrArg (fun x : Proc S HandlerError (Option Op) => x.run s)
      (if_neg fun hv => hr (Or.inr (Or.inl ⟨rfl, hv⟩)))
  · rename_i hc
    obtain rfl : 18 = a := Cv.number_of_tryFrom hc
    rw [ofPacket_ok_bind hdata, readCv_bind (by decide) (by decide)]
    exact congrArg (fun x : Proc S HandlerError (Option Op) => x.run s)
      (if_neg fun hv => hr (Or.inr (Or.inr ⟨rfl, hv⟩)))
  · rw [ofPacket_ok_bind hdata]

/-- A byte write that is not accepted is not acknowledged. -/
theorem not_acknowledged {s' : S} {r : Except (Fault HandlerError) (Option Op)}
    (h : packet.Carries (.writeByte a value))
    (hr : (executeServicePacket packet).run s = (r, s')) (ha : ¬ WriteAccepted (cvs s) a value) :
    r ≠ .ok (some .acknowledgeCv) := by
  rintro rfl
  rcases not_writeAccepted_iff.mp ha with hrej | rfl | rfl | hign
  · rw [execute_writeByte_rejected h hrej] at hr
    cases hr
  · rw [execute_writeByte_version h] at hr
    split at hr
    · obtain ⟨_, _, _, hr⟩ := Proc.ok_of_bind hr
      cases hr
    · cases hr
  · rw [execute_writeByte_id h] at hr
    split at hr
    · obtain ⟨_, _, _, hr⟩ := Proc.ok_of_bind hr
      cases hr
    · cases hr
  · rw [execute_writeByte_ignored h hign] at hr
    cases hr

/-- A verified byte is compared with the CV. -/
theorem execute_verifyByte (h : packet.Carries (.verifyByte a value)) (h₁ : 1 ≤ a)
    (h₂ : a ≤ CV_SIZE) :
    (executeServicePacket packet).run s =
      (.ok (if value = cvs s a then some .acknowledgeCv else none), s) := by
  have hcv : packet.cvAddress = .ok a := Packet.cvAddress_of_carries h h₁ h₂
  have hdata : packet.cvData = .ok value := Packet.cvData_of_carries h
  rw [execute_of_carries h]
  show (verifyByte packet).run s = _
  rw [verifyByte, ofPacket_ok_bind hdata, ofPacket_ok_bind hcv, readCv_bind h₁ h₂]
  rfl

theorem packBit_ge (k : Bool) (b : Fin 8) (v : Bool) : ¬ packBit k b v < 0b11100000 := by
  revert k b v
  decide

theorem packBit_k (k : Bool) (b : Fin 8) (v : Bool) :
    packBit k b v &&& 0b00010000 ≠ 0 ↔ k = true := by
  revert k b v
  decide

/-- A verified bit is compared with the bit of the CV. -/
theorem execute_verifyBit {b : Fin 8} {v : Bool} (h : packet.Carries (.verifyBit a b v))
    (h₁ : 1 ≤ a) (h₂ : a ≤ CV_SIZE) :
    (executeServicePacket packet).run s =
      (.ok (if (cvs s a).toNat.testBit b = v then some .acknowledgeCv else none), s) := by
  have hcv : packet.cvAddress = .ok a := Packet.cvAddress_of_carries h h₁ h₂
  have hdata : packet.cvData = .ok (packBit false b v) := Packet.cvData_of_carries h
  rw [execute_of_carries h]
  show (manipulateBit packet).run s = _
  rw [manipulateBit, ofPacket_ok_bind hdata, if_neg (packBit_ge false b v),
    ofPacket_ok_bind hcv, readCv_bind h₁ h₂,
    if_neg fun hk => Bool.noConfusion ((packBit_k false b v).mp hk)]
  simp only [beq_iff_eq, bitMatches_packBit]
  rfl

/-- A bit is written by writing the byte with the bit set, whatever the CV. -/
theorem execute_writeBit {b : Fin 8} {v : Bool} (h : packet.Carries (.writeBit a b v))
    (h₁ : 1 ≤ a) (h₂ : a ≤ CV_SIZE) :
    (executeServicePacket packet).run s =
      (writeCv a (setBit (cvs s a) b v) >>= fun _ => pure (some Op.acknowledgeCv) :
        Proc S HandlerError (Option Op)).run s := by
  have hcv : packet.cvAddress = .ok a := Packet.cvAddress_of_carries h h₁ h₂
  have hdata : packet.cvData = .ok (packBit true b v) := Packet.cvData_of_carries h
  rw [execute_of_carries h]
  show (manipulateBit packet).run s = _
  rw [manipulateBit, ofPacket_ok_bind hdata, if_neg (packBit_ge true b v),
    ofPacket_ok_bind hcv, readCv_bind h₁ h₂, if_pos ((packBit_k true b v).mpr rfl),
    withBit_packBit]

end Execute

/-! ### Over a reliable store -/

section Reliable

open ReliableStore

variable {S : Type} [Store S] [ReliableStore S] {s : S} {packet : Packet} {a : ℕ} {value : UInt8}

/-- An accepted short address takes CV29 bit 5 and CV19 with it. -/
theorem run_writeByte_primary (hs : Good s) (h : packet.Carries (.writeByte 1 value))
    (ha : WriteAccepted (cvs s) 1 value) :
    ∃ s', (executeServicePacket packet).run s = (.ok (some .acknowledgeCv), s') ∧
      cvs s' = Function.update (Function.update (Function.update (cvs s) 1 value)
        29 (cvs s 29 &&& ~~~0b00100000)) 19 0 := by
  obtain ⟨s₁, hrun₁, hgood₁, hcvs₁⟩ := writeCv_run (a := 1) value hs (by decide) (by decide)
  obtain ⟨s₂, hrun₂, hgood₂, hcvs₂⟩ := writeCv_run (a := 29) (cvs s₁ 29 &&& ~~~0b00100000)
    hgood₁ (by decide) (by decide)
  obtain ⟨s₃, hrun₃, -, hcvs₃⟩ := writeCv_run (a := 19) 0 hgood₂ (by decide) (by decide)
  have h29 : cvs s₁ 29 = cvs s 29 := by rw [hcvs₁, Function.update_of_ne (by decide)]
  refine ⟨s₃, ?_, by rw [hcvs₃, hcvs₂, h29, hcvs₁]⟩
  rw [execute_writeByte_primary h ha.primary, writePrimaryAddress_eq,
    Proc.run_bind_of_ok hrun₁, readCv_bind (by decide) (by decide),
    Proc.run_bind_of_ok hrun₂, Proc.run_bind_of_ok hrun₃, Proc.run_pure]

theorem run_writeByte_plain (hs : Good s) (h : packet.Carries (.writeByte a value)) (h₁ : 1 ≤ a)
    (h₂ : a ≤ CV_SIZE) (hne : a ≠ 1) (ha : WriteAccepted (cvs s) a value) :
    ∃ s', (executeServicePacket packet).run s = (.ok (some .acknowledgeCv), s') ∧
      cvs s' = Function.update (cvs s) a value := by
  obtain ⟨s', hrun, -, hcvs⟩ := writeCv_run value hs h₁ h₂
  refine ⟨s', ?_, hcvs⟩
  rw [execute_writeByte_plain h h₁ h₂ hne ha, Proc.run_bind_of_ok hrun, Proc.run_pure]

/-- A write to CV7 asks for a reboot, whatever the value. -/
theorem run_writeByte_version (hs : Good s) (h : packet.Carries (.writeByte 7 value)) :
    ∃ s', (executeServicePacket packet).run s = (.ok (some .reboot), s') ∧
      cvs s' = if value = 7 then Function.update (cvs s) 172 255 else cvs s := by
  rw [execute_writeByte_version h]
  by_cases hv : value = 7
  · obtain ⟨s', hrun, -, hcvs⟩ := writeByte_run (a := 172) 255 hs (by decide) (by decide)
    refine ⟨s', ?_, by rw [hcvs, if_pos hv]⟩
    rw [if_pos hv, Proc.run_bind_of_ok (withStore_run (x := Store.emfAdcOffsetClear) hrun),
      Proc.run_pure]
  · exact ⟨s, by rw [if_neg hv, Proc.run_pure], by rw [if_neg hv]⟩

theorem run_writeByte_id (hs : Good s) (h : packet.Carries (.writeByte 8 value)) :
    ∃ s', (executeServicePacket packet).run s =
        (.ok (if value = 8 then some .reboot else none), s') ∧
      cvs s' = if value = 8 then overwrite (cvs s) 1 DEFAULT_VALUES else cvs s := by
  rw [execute_writeByte_id h]
  by_cases hv : value = 8
  · obtain ⟨s', hrun, -, hcvs⟩ := reset_run hs
    refine ⟨s', ?_, by rw [hcvs, if_pos hv]⟩
    rw [if_pos hv, if_pos hv, resetToFactoryDefaults, Proc.run_bind_of_ok (withStore_run hrun),
      Proc.run_pure]
  · exact ⟨s, by rw [if_neg hv, if_neg hv, Proc.run_pure], by rw [if_neg hv]⟩

end Reliable

end Rp2040
