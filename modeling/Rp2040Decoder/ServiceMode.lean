/-
Service-mode instructions (`Handler::handle_service_mode` after its latch, and
the methods it calls, in `dcc/src/handler.rs`).

The methods use the store of the handler and nothing else, so they are
procedures on the store.

* `executeServicePacket` — what a confirmed service-mode packet does;
* `CvChange` — every way it can change the CVs;
* `executeServicePacket_changes` — over a reliable store it makes one of these
  changes;
* `executeServicePacket_bitWrite` — a bit write is made as asked.
-/
import Rp2040Decoder.Packet

namespace Rp2040

open ReadableStore ReliableStore

inductive Op
  /-- Acknowledge the CV has been written using the service mode technique. -/
  | acknowledgeCv
  /-- Stops the decoder operations and returns it to the startup state. -/
  | reset
  /-- A 128 speed step velocity setpoint. -/
  | velocity128 (v : VelocitySetpoint)
  /-- Request to set a function group state. -/
  | setFunctions (fg : FunctionGroup)
  /-- Reboots the decoder. -/
  | reboot
  deriving DecidableEq, Repr

inductive HandlerError
  /-- Problem with the packet -/
  | packet (e : PacketError)
  | store (e : StoreError)
  deriving DecidableEq, Repr

section Definitions

variable {S : Type} [Store S]

/-- A store method called with `?`. -/
def withStore {α : Type} (x : Proc S StoreError α) : Proc S HandlerError α :=
  Proc.zoom id (fun s _ => s) .store x

/-- A packet method called with `?`. -/
def ofPacket {α : Type} (x : Except (Fault PacketError) α) : Proc S HandlerError α :=
  Proc.ofResult .packet x

def readCv (address : ℕ) : Proc S HandlerError UInt8 :=
  withStore (Proc.read fun s => Store.readByte s address)

def writeCv (address : ℕ) (value : UInt8) : Proc S HandlerError Unit :=
  withStore (Store.writeByte address value)

def invalidInstruction {α : Type} : Proc S HandlerError α :=
  Proc.fail (.packet .invalidInstruction)

def verifyByte (packet : Packet) : Proc S HandlerError (Option Op) := do
  let expected ← ofPacket packet.cvData
  let actual ← readCv (← ofPacket packet.cvAddress)
  return if expected = actual then some .acknowledgeCv else none

def resetToFactoryDefaults : Proc S HandlerError Unit := withStore Store.reset

/-- The arm of `write_byte` for a CV1 in range. -/
def writePrimaryAddress (value : UInt8) : Proc S HandlerError (Option Op) := do
  writeCv Cv.primaryAddress.number value
  -- clear the extended address mode bit and consist addresses
  let cv29 ← readCv Cv.decoderConfiguration.number
  writeCv Cv.decoderConfiguration.number (cv29 &&& ~~~0b00100000)
  writeCv Cv.consistAddress.number 0
  return some .acknowledgeCv

def writeByte (packet : Packet) : Proc S HandlerError (Option Op) := do
  let address ← ofPacket packet.cvAddress
  -- CV31/CV32 select the CV index page; indexed CVs are not implemented
  if address = 31 ∨ address = 32 then return none
  else
    match Cv.tryFrom address with
    | some .primaryAddress =>
      let value ← ofPacket packet.cvData
      if ¬ (1 ≤ value ∧ value ≤ 127) then invalidInstruction
      else writePrimaryAddress value
    | some .manufacturerId =>
      -- reset all CVs to default when setting CV_8 = 8
      if (← ofPacket packet.cvData) = 8 then
        resetToFactoryDefaults
        return some .reboot
      else return none
    | some .manufacturerVersionNumber =>
      -- ADC offset adjustment is triggered when setting CV_7 = 7
      if (← ofPacket packet.cvData) = 7 then
        withStore Store.emfAdcOffsetClear
        return some .reboot
      else return some .reboot
    | some .extendedAddressMsb =>
      let value ← ofPacket packet.cvData
      let cv18 ← readCv Cv.extendedAddressLsb.number
      if ¬ (192 ≤ value ∧ value ≤ 231) ∨ (cv18 = 0 ∧ value = 192) then invalidInstruction
      else
        writeCv Cv.extendedAddressMsb.number value
        return some .acknowledgeCv
    | some .extendedAddressLsb =>
      let value ← ofPacket packet.cvData
      let cv17 ← readCv Cv.extendedAddressMsb.number
      if cv17 = 192 ∧ value = 0 then invalidInstruction
      else
        writeCv Cv.extendedAddressLsb.number value
        return some .acknowledgeCv
    | _ =>
      writeCv address (← ofPacket packet.cvData)
      return some .acknowledgeCv

/-- The value of a CV after bit `packed & 7` was set to bit 3 of `packed`. -/
def withBit (current packed : UInt8) : UInt8 :=
  let bitPos := packed &&& 0b00000111
  let mask : UInt8 := 1 <<< bitPos
  (current &&& ~~~mask) ||| (((packed &&& 0b00001000) >>> 3) <<< bitPos)

def manipulateBit (packet : Packet) : Proc S HandlerError (Option Op) := do
  -- cv_data format: 111KDBBB
  let packed ← ofPacket packet.cvData
  if packed < 0b11100000 then invalidInstruction
  else
    let cvAddr ← ofPacket packet.cvAddress
    let current ← readCv cvAddr
    if packed &&& 0b00010000 ≠ 0 then
      writeCv cvAddr (withBit current packed)
      return some .acknowledgeCv
    else
      let bitMatches : Bool :=
        ((current >>> (packed &&& 0b00000111)) &&& (1 : UInt8)) == ((packed &&& 0b00001000) >>> 3)
      return if bitMatches then some .acknowledgeCv else none

/-- `handle_service_mode` for a packet that was received twice. -/
def executeServicePacket (packet : Packet) : Proc S HandlerError (Option Op) := do
  -- check for legacy reset packet
  if packet.data = [0b01111111, 0b00001000] then
    resetToFactoryDefaults
    return some .reboot
  else
    match ← ofPacket packet.instructionType with
    | .manipulateBit => manipulateBit packet
    | .verifyByte => verifyByte packet
    | .writeByte => writeByte packet

end Definitions

/-! ### What a packet can do to the CVs -/

/-- The CV a bit-write packet names and the value it gives it. -/
def bitWrite (cvs : ℕ → UInt8) (packet : Packet) : Option (ℕ × UInt8) :=
  match packet.instructionType, packet.cvData, packet.cvAddress with
  | .ok .manipulateBit, .ok packed, .ok a =>
    if 0b11100000 ≤ packed ∧ packed &&& 0b00010000 ≠ 0 then some (a, withBit (cvs a) packed)
    else none
  | _, _, _ => none

/-- The changes a confirmed packet can make to the CVs. -/
inductive CvChange (packet : Packet) (cvs : ℕ → UInt8) : (ℕ → UInt8) → Prop
  | unchanged : CvChange packet cvs cvs
  | reset : CvChange packet cvs (overwrite cvs 1 DEFAULT_VALUES)
  | primaryAddress {value : UInt8} : 1 ≤ value → value ≤ 127 →
      CvChange packet cvs (Function.update (Function.update (Function.update cvs 1 value)
        29 (cvs 29 &&& ~~~0b00100000)) 19 0)
  | extendedAddressMsb {value : UInt8} : 192 ≤ value → value ≤ 231 →
      ¬ (cvs 18 = 0 ∧ value = 192) → CvChange packet cvs (Function.update cvs 17 value)
  | extendedAddressLsb {value : UInt8} : ¬ (cvs 17 = 192 ∧ value = 0) →
      CvChange packet cvs (Function.update cvs 18 value)
  | other {a : ℕ} {value : UInt8} : a ≠ 1 → a ≠ 17 → a ≠ 18 →
      CvChange packet cvs (Function.update cvs a value)
  | bit {a : ℕ} {value : UInt8} : bitWrite cvs packet = some (a, value) →
      CvChange packet cvs (Function.update cvs a value)

section Runs

variable {S : Type}

theorem withStore_run {α : Type} {x : Proc S StoreError α} {a : α} {s s' : S}
    (h : x.run s = (.ok a, s')) : (withStore x).run s = (.ok a, s') := by
  rw [withStore, Proc.run_zoom, id, h]
  rfl

variable [Store S] {packet : Packet} {s : S}

theorem readCv_bind [ReadableStore S] {α : Type} {a : ℕ} {k : UInt8 → Proc S HandlerError α}
    (h₁ : 1 ≤ a) (h₂ : a ≤ CV_SIZE) : (readCv a >>= k).run s = (k (cvs s a)).run s :=
  Proc.run_bind_of_ok (withStore_run (by rw [Proc.run_read, readByte_eq s h₁ h₂]))

variable [ReliableStore S]

theorem writeCv_run {a : ℕ} (value : UInt8) (hs : Good s) (h₁ : 1 ≤ a) (h₂ : a ≤ CV_SIZE) :
    ∃ s', (writeCv a value).run s = (.ok (), s') ∧ Good s' ∧
      cvs s' = Function.update (cvs s) a value := by
  obtain ⟨s', hrun, hgood, hcvs⟩ := writeByte_run value hs h₁ h₂
  exact ⟨s', withStore_run hrun, hgood, hcvs⟩

/-- Run from `s`, the procedure makes one of the changes the packet can make. -/
def Changes (packet : Packet) (s : S) (x : Proc S HandlerError (Option Op)) : Prop :=
  ∃ r s', x.run s = (r, s') ∧ Good s' ∧ CvChange packet (cvs s) (cvs s')

theorem changes_pure (hs : Good s) (op : Option Op) : Changes packet s (pure op) :=
  ⟨_, s, rfl, hs, .unchanged⟩

theorem changes_fail (hs : Good s) (e : HandlerError) : Changes packet s (Proc.fail e) :=
  ⟨_, s, rfl, hs, .unchanged⟩

theorem changes_ofPacket_bind {α : Type} {x : Except (Fault PacketError) α}
    {k : α → Proc S HandlerError (Option Op)} (hs : Good s)
    (h : ∀ a, x = .ok a → Changes packet s (k a)) : Changes packet s (ofPacket x >>= k) := by
  cases hx : x with
  | ok a =>
    obtain ⟨r, s', hrun, hgood, hchange⟩ := h a hx
    exact ⟨r, s', hrun, hgood, hchange⟩
  | error e => exact ⟨_, s, Proc.run_bind_of_error rfl, hs, .unchanged⟩

theorem changes_readCv_bind {a : ℕ} {k : UInt8 → Proc S HandlerError (Option Op)}
    (h₁ : 1 ≤ a) (h₂ : a ≤ CV_SIZE) (h : Changes packet s (k (cvs s a))) :
    Changes packet s (readCv a >>= k) := by
  rwa [Changes, readCv_bind h₁ h₂]

/-- A single write, as the last thing that is done. -/
theorem changes_writeCv {a : ℕ} {value : UInt8} {op : Option Op} (hs : Good s)
    (h₁ : 1 ≤ a) (h₂ : a ≤ CV_SIZE)
    (h : CvChange packet (cvs s) (Function.update (cvs s) a value)) :
    Changes packet s (writeCv a value >>= fun _ => pure op) := by
  obtain ⟨s', hrun, hgood, hcvs⟩ := writeCv_run value hs h₁ h₂
  exact ⟨_, s', Proc.run_bind_of_ok hrun, hgood, hcvs ▸ h⟩

theorem changes_reset {op : Option Op} (hs : Good s) :
    Changes packet s (resetToFactoryDefaults >>= fun _ => pure op) := by
  obtain ⟨s', hrun, hgood, hcvs⟩ := reset_run hs
  exact ⟨_, s', Proc.run_bind_of_ok (withStore_run hrun), hgood, hcvs ▸ .reset⟩

theorem changes_verifyByte (hs : Good s) : Changes packet s (verifyByte packet) := by
  refine changes_ofPacket_bind hs fun expected _ => changes_ofPacket_bind hs fun a ha => ?_
  obtain ⟨h₁, h₂⟩ := Packet.cvAddress_mem ha
  exact changes_readCv_bind h₁ h₂ (changes_pure hs _)

theorem changes_writePrimaryAddress {value : UInt8} (hs : Good s) (h₁ : 1 ≤ value)
    (h₂ : value ≤ 127) : Changes packet s (writePrimaryAddress value) := by
  obtain ⟨s₁, hrun₁, hgood₁, hcvs₁⟩ :=
    writeCv_run (a := Cv.primaryAddress.number) value hs (by decide) (by decide)
  obtain ⟨s₂, hrun₂, hgood₂, hcvs₂⟩ :=
    writeCv_run (a := Cv.decoderConfiguration.number)
      (cvs s₁ Cv.decoderConfiguration.number &&& ~~~0b00100000) hgood₁ (by decide) (by decide)
  obtain ⟨s₃, hrun₃, hgood₃, hcvs₃⟩ :=
    writeCv_run (a := Cv.consistAddress.number) 0 hgood₂ (by decide) (by decide)
  have hcv29 : cvs s₁ Cv.decoderConfiguration.number = cvs s 29 := by
    rw [hcvs₁]
    exact Function.update_of_ne (by decide) _ _
  refine ⟨.ok (some .acknowledgeCv), s₃, ?_, hgood₃, ?_⟩
  · rw [writePrimaryAddress, Proc.run_bind_of_ok hrun₁, readCv_bind (by decide) (by decide),
      Proc.run_bind_of_ok hrun₂, Proc.run_bind_of_ok hrun₃]
    rfl
  · rw [hcvs₃, hcvs₂, hcv29, hcvs₁]
    exact .primaryAddress h₁ h₂

theorem changes_writeByte (hs : Good s) : Changes packet s (writeByte packet) := by
  refine changes_ofPacket_bind hs fun a ha => ?_
  obtain ⟨h₁, h₂⟩ := Packet.cvAddress_mem ha
  split
  · exact changes_pure hs _
  split
  · refine changes_ofPacket_bind hs fun value _ => ?_
    split
    · exact changes_fail hs _
    · rename_i hv
      exact changes_writePrimaryAddress hs (not_not.mp hv).1 (not_not.mp hv).2
  · refine changes_ofPacket_bind hs fun value _ => ?_
    split
    · exact changes_reset hs
    · exact changes_pure hs _
  · refine changes_ofPacket_bind hs fun value _ => ?_
    split
    · exact changes_writeCv hs (by decide) (by decide)
        (.other (by decide) (by decide) (by decide))
    · exact changes_pure hs _
  · refine changes_ofPacket_bind hs fun value _ =>
      changes_readCv_bind (by decide) (by decide) ?_
    split
    · exact changes_fail hs _
    · rename_i hv
      obtain ⟨hrange, hzero⟩ := not_or.mp hv
      obtain ⟨h192, h231⟩ := not_not.mp hrange
      exact changes_writeCv hs (by decide) (by decide) (.extendedAddressMsb h192 h231 hzero)
  · refine changes_ofPacket_bind hs fun value _ =>
      changes_readCv_bind (by decide) (by decide) ?_
    split
    · exact changes_fail hs _
    · rename_i hv
      exact changes_writeCv hs (by decide) (by decide) (.extendedAddressLsb hv)
  · rename_i hne₁ _ _ hne₁₇ hne₁₈
    refine changes_ofPacket_bind hs fun value _ => changes_writeCv hs h₁ h₂ (.other ?_ ?_ ?_)
    · rintro rfl
      exact hne₁ rfl
    · rintro rfl
      exact hne₁₇ rfl
    · rintro rfl
      exact hne₁₈ rfl

theorem changes_manipulateBit (hs : Good s) (ht : packet.instructionType = .ok .manipulateBit) :
    Changes packet s (manipulateBit packet) := by
  refine changes_ofPacket_bind hs fun packed hp => ?_
  split
  · exact changes_fail hs _
  · rename_i hge
    refine changes_ofPacket_bind hs fun a ha => ?_
    obtain ⟨h₁, h₂⟩ := Packet.cvAddress_mem ha
    refine changes_readCv_bind h₁ h₂ ?_
    split
    · rename_i hk
      refine changes_writeCv hs h₁ h₂ (.bit ?_)
      simp only [bitWrite, ht, hp, ha]
      exact if_pos ⟨UInt8.not_lt.mp hge, hk⟩
    · exact changes_pure hs _

/-- Over a reliable store a confirmed packet makes one of the changes of
`CvChange`. -/
theorem executeServicePacket_changes (hs : Good s) :
    Changes packet s (executeServicePacket packet) := by
  rw [executeServicePacket]
  split
  · exact changes_reset hs
  · refine changes_ofPacket_bind hs fun t ht => ?_
    cases t with
    | manipulateBit => exact changes_manipulateBit hs ht
    | verifyByte => exact changes_verifyByte hs
    | writeByte => exact changes_writeByte hs

/-- A confirmed bit-write packet writes its bit, whatever the CV. -/
theorem executeServicePacket_bitWrite {a : ℕ} {value : UInt8} (hs : Good s)
    (h : bitWrite (cvs s) packet = some (a, value)) :
    ∃ s', (executeServicePacket packet).run s = (.ok (some .acknowledgeCv), s') ∧ Good s' ∧
      cvs s' = Function.update (cvs s) a value := by
  rw [bitWrite] at h
  split at h
  · rename_i packed a' ht hp ha
    rw [Option.ite_none_right_eq_some] at h
    obtain ⟨⟨hge, hk⟩, he⟩ := h
    obtain ⟨rfl, rfl⟩ := Prod.mk.inj (Option.some.inj he)
    obtain ⟨h₁, h₂⟩ := Packet.cvAddress_mem ha
    obtain ⟨s', hrun, hgood, hcvs⟩ := writeCv_run (withBit (cvs s a') packed) hs h₁ h₂
    refine ⟨s', ?_, hgood, hcvs⟩
    have hlegacy : packet.data ≠ [0b01111111, 0b00001000] := by
      intro hd
      simp [Packet.cvData, hd] at hp
    rw [executeServicePacket, if_neg hlegacy, ofPacket, Proc.run_ofResult_bind ht]
    simp only
    rw [manipulateBit, ofPacket, Proc.run_ofResult_bind hp, if_neg (UInt8.not_lt.mpr hge),
      ofPacket, Proc.run_ofResult_bind ha, readCv_bind h₁ h₂, if_pos hk,
      Proc.run_bind_of_ok hrun]
    rfl
  · cases h

end Runs

end Rp2040
