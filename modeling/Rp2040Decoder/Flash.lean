/-
The flash store (`application/src/store/mod.rs`).

The CVs are cached in memory; a write changes the cache and then erases and
programs the flash sector.  Every erase and every program may fail or be cut
off by a power loss; a pattern of faults says which ones do.

* `syncCvs_ok` — a completed sync leaves the sector with the cached CVs;
* `writeBytes_ok_cases` — a write that returns `Ok` synced, or skipped the
  flash because the cache held the value already;
* `Flash` is a readable store, and a reliable one when no operation fails.
-/
import Rp2040Decoder.Cv
import Rp2040Decoder.Overflow

namespace Rp2040

/-- `embassy_rp::flash::ERASE_SIZE` -/
def ERASE_SIZE : ℕ := 4096

/-- What goes wrong with an erase or a program. -/
inductive FlashFault
  /-- It returns an error and leaves the sector as it is. -/
  | kept
  /-- It returns an error and leaves the sector erased. -/
  | erased
  /-- The power is lost before it. -/
  | powerLoss
  deriving DecidableEq, Repr

/-- The sector of the RP flash that `cv_data_range` spans.  `faults n` is what
goes wrong with operation number `n`. -/
structure RpFlash where
  sector : Fin ERASE_SIZE → UInt8
  faults : ℕ → Option FlashFault
  operations : ℕ

/-- `AlignedCvArray` -/
abbrev CvArray := Fin CV_SIZE → UInt8

namespace RpFlash

/-- The CV bytes of the sector. -/
def stored (self : RpFlash) : CvArray := fun i =>
  self.sector (i.castLE (by decide))

/-- One flash operation that leaves `sector` behind when it succeeds. -/
def operation (sector : (Fin ERASE_SIZE → UInt8) → Fin ERASE_SIZE → UInt8) :
    Proc RpFlash Unit Unit :=
  ExceptT.mk fun self =>
    let done := { self with operations := self.operations + 1 }
    match self.faults self.operations with
    | none => (.ok (), { done with sector := sector self.sector })
    | some .kept => (.error (.error ()), done)
    | some .erased => (.error (.error ()), { done with sector := fun _ => 0xFF })
    | some .powerLoss => (.error .panic, self)

def blockingErase : Proc RpFlash Unit Unit := operation fun _ _ => 0xFF

def blockingWrite (data : CvArray) : Proc RpFlash Unit Unit :=
  operation fun sector i => if h : i.val < CV_SIZE then data ⟨i.val, h⟩ else sector i

theorem operation_run_of_none {self : RpFlash}
    {sector : (Fin ERASE_SIZE → UInt8) → Fin ERASE_SIZE → UInt8}
    (h : self.faults self.operations = none) :
    (operation sector).run self =
      (.ok (), { self with sector := sector self.sector, operations := self.operations + 1 }) := by
  simp only [operation, Proc.run, ExceptT.run_mk, StateT.run, h]

theorem operation_run_of_powerLoss {self : RpFlash}
    {sector : (Fin ERASE_SIZE → UInt8) → Fin ERASE_SIZE → UInt8}
    (h : self.faults self.operations = some .powerLoss) :
    (operation sector).run self = (.error .panic, self) := by
  simp only [operation, Proc.run, ExceptT.run_mk, StateT.run, h]

/-- Only an operation without a fault returns `Ok`. -/
theorem operation_ok {self self' : RpFlash}
    {sector : (Fin ERASE_SIZE → UInt8) → Fin ERASE_SIZE → UInt8}
    (h : (operation sector).run self = (.ok (), self')) :
    self' = { self with sector := sector self.sector, operations := self.operations + 1 } := by
  cases hf : self.faults self.operations with
  | none =>
    rw [operation_run_of_none hf] at h
    exact (congrArg Prod.snd h).symm
  | some f =>
    cases f <;> simp [operation, Proc.run, ExceptT.run_mk, StateT.run, hf] at h

end RpFlash

/-! ### The store -/

/-- The flash store of a build `p`. -/
structure Flash (p : Profile) where
  flash : RpFlash
  cache : CvArray

namespace Flash

variable {p : Profile}

/-- The CVs are read from flash into the cache. -/
def new (flash : RpFlash) : Flash p := ⟨flash, flash.stored⟩

def withFlash (self : Flash p) (flash : RpFlash) : Flash p := { self with flash }

/-- Writes the cached configuration variables to flash. -/
def syncCvs : Proc (Flash p) StoreError Unit := do
  Proc.zoom Flash.flash (fun fl self => self.withFlash fl) (fun _ => .io) RpFlash.blockingErase
  let cache ← Proc.gets Flash.cache
  Proc.zoom Flash.flash (fun fl self => self.withFlash fl) (fun _ => .io)
    (RpFlash.blockingWrite cache)

/-- `cache[start..end]` -/
def slice (cache : CvArray) (startIdx endIdx : ℕ) : List UInt8 :=
  (List.range (endIdx - startIdx)).map fun i =>
    if h : startIdx + i < CV_SIZE then cache ⟨startIdx + i, h⟩ else 0

/-- `cache[start..].copy_from_slice(value)` -/
def splice (cache : CvArray) (startIdx : ℕ) (value : List UInt8) : CvArray := fun i =>
  if startIdx ≤ i.val then value[i.val - startIdx]?.getD (cache i) else cache i

def readByte (self : Flash p) (address : ℕ) : Except (Fault StoreError) UInt8 := do
  let i ← Proc.checked (p.subUsize address 1)
  if h : i < CV_SIZE then .ok (self.cache ⟨i, h⟩) else .error (.error .invalidAddress)

def readBytes (self : Flash p) (start len : ℕ) : Except (Fault StoreError) (List UInt8) := do
  let startIdx ← Proc.checked (p.subUsize start 1)
  let endIdx ← Proc.checked (p.addUsize startIdx len)
  if startIdx ≤ endIdx ∧ endIdx ≤ CV_SIZE then .ok (slice self.cache startIdx endIdx)
  else .error (.error .invalidAddress)

/-- The range of the cache a write goes to.  The addition in the bounds check
may overflow; slicing the cache with what is left then panics. -/
def writeRange (p : Profile) (address len : ℕ) : Except (Fault StoreError) (ℕ × ℕ) := do
  if address = 0 then .error (.error .invalidAddress)
  else
    let last ← Proc.checked ((p.addUsize address len).bind (p.subUsize · 1))
    if CV_SIZE < last then .error (.error .invalidAddress)
    else
      let startIdx ← Proc.checked (p.subUsize address 1)
      let endIdx ← Proc.checked (p.addUsize startIdx len)
      if startIdx ≤ endIdx ∧ endIdx ≤ CV_SIZE then .ok (startIdx, endIdx) else .error .panic

def writeBytes (address : ℕ) (value : List UInt8) (force : Bool) :
    Proc (Flash p) StoreError Unit := do
  let range ← Proc.ofResult id (writeRange p address value.length)
  let cache ← Proc.gets Flash.cache
  if force = false ∧ slice cache range.1 range.2 = value then return
  Proc.modify fun self => { self with cache := splice self.cache range.1 value }
  syncCvs

def writeByte (address : ℕ) (value : UInt8) : Proc (Flash p) StoreError Unit :=
  writeBytes address [value] false

instance : Store (Flash p) where
  readByte := readByte
  readBytes := readBytes
  writeByte := writeByte
  writeBytes := writeBytes

/-- The sector holds the cached CVs. -/
def Synced (self : Flash p) : Prop := self.flash.stored = self.cache

/-! ### Syncing -/

theorem stored_blockingWrite (data : CvArray) (self : RpFlash) (n : ℕ)
    (faults : ℕ → Option FlashFault) :
    RpFlash.stored ⟨fun i => if h : i.val < CV_SIZE then data ⟨i.val, h⟩ else self.sector i,
      faults, n⟩ = data := by
  funext i
  exact dif_pos i.isLt

theorem syncCvs_run_of_powerLoss {self : Flash p}
    (h : self.flash.faults self.flash.operations = some .powerLoss) :
    syncCvs.run self = (.error .panic, self) := by
  refine Proc.run_bind_of_error ?_
  rw [Proc.run_zoom, RpFlash.blockingErase, RpFlash.operation_run_of_powerLoss h]
  rfl

theorem erase_run {self : Flash p} (h : self.flash.faults self.flash.operations = none) :
    (Proc.zoom Flash.flash (fun fl self => self.withFlash fl) (fun _ => StoreError.io)
        RpFlash.blockingErase).run self =
      (.ok (), self.withFlash ⟨fun _ => 0xFF, self.flash.faults, self.flash.operations + 1⟩) := by
  rw [Proc.run_zoom, RpFlash.blockingErase, RpFlash.operation_run_of_none h]
  rfl

/-- A power loss between the erase and the program leaves the sector erased. -/
theorem syncCvs_run_of_powerLoss_succ {self : Flash p}
    (h₀ : self.flash.faults self.flash.operations = none)
    (h₁ : self.flash.faults (self.flash.operations + 1) = some .powerLoss) :
    syncCvs.run self = (.error .panic,
      self.withFlash ⟨fun _ => 0xFF, self.flash.faults, self.flash.operations + 1⟩) := by
  rw [syncCvs, Proc.run_bind_of_ok (erase_run h₀), Proc.run_gets_bind, Proc.run_zoom,
    RpFlash.blockingWrite, RpFlash.operation_run_of_powerLoss h₁]
  rfl

/-- Without a fault the sector ends up with the cached CVs. -/
theorem syncCvs_run {self : Flash p}
    (h₀ : self.flash.faults self.flash.operations = none)
    (h₁ : self.flash.faults (self.flash.operations + 1) = none) :
    ∃ flash, syncCvs.run self = (.ok (), self.withFlash flash) ∧ flash.stored = self.cache ∧
      flash.faults = self.flash.faults := by
  refine ⟨_, ?_, stored_blockingWrite self.cache ⟨fun _ => 0xFF, self.flash.faults, 0⟩
    (self.flash.operations + 1 + 1) self.flash.faults, rfl⟩
  rw [syncCvs, Proc.run_bind_of_ok (erase_run h₀), Proc.run_gets_bind, Proc.run_zoom,
    RpFlash.blockingWrite, RpFlash.operation_run_of_none h₁]
  rfl

/-- A sync that returns `Ok` leaves the sector with the cached CVs. -/
theorem syncCvs_ok {self self' : Flash p} (h : syncCvs.run self = (.ok (), self')) :
    self'.Synced ∧ self'.cache = self.cache := by
  obtain ⟨_, s₁, herase, h⟩ := Proc.ok_of_bind h
  obtain ⟨fl₁, -, rfl⟩ := Proc.ok_of_zoom herase
  rw [Proc.run_gets_bind] at h
  obtain ⟨fl₂, hwrite, rfl⟩ := Proc.ok_of_zoom h
  rw [RpFlash.operation_ok hwrite]
  exact ⟨stored_blockingWrite _ _ _ _, rfl⟩

/-! ### Writing -/

/-- A range the store supports. -/
def ValidRange (address len : ℕ) : Prop := 1 ≤ address ∧ address + len ≤ CV_SIZE + 1

instance (address len : ℕ) : Decidable (ValidRange address len) := by
  unfold ValidRange
  infer_instance

theorem writeRange_of_valid {address len : ℕ} (h : ValidRange address len) :
    writeRange p address len = .ok (address - 1, address - 1 + len) := by
  obtain ⟨h₁, h₂⟩ := h
  have hsize : CV_SIZE = 1024 := rfl
  rw [writeRange, if_neg (by omega), p.addUsize_of_lt (by omega), Option.bind_some,
    p.subUsize_of_le (by omega), p.subUsize_of_le h₁]
  simp only [Proc.checked, bind, Except.bind]
  rw [if_neg (by omega), p.addUsize_of_lt (by omega)]
  simp only
  rw [if_pos (by omega)]

/-- The write finds its value in the cache and is not forced. -/
def Skips (self : Flash p) (address : ℕ) (value : List UInt8) (force : Bool) : Prop :=
  force = false ∧ ∃ range, writeRange p address value.length = .ok range ∧
    slice self.cache range.1 range.2 = value

theorem writeBytes_run_of_skips {self : Flash p} {address : ℕ} {value : List UInt8} {force : Bool}
    (h : self.Skips address value force) :
    (writeBytes address value force).run self = (.ok (), self) := by
  obtain ⟨hf, range, hrange, hs⟩ := h
  rw [writeBytes, Proc.run_ofResult_bind hrange, Proc.run_gets_bind, if_pos ⟨hf, hs⟩]
  rfl

theorem writeBytes_run_of_not_skips {self : Flash p} {address : ℕ} {value : List UInt8}
    {force : Bool} (hv : ValidRange address value.length) (h : ¬ self.Skips address value force) :
    (writeBytes address value force).run self =
      syncCvs.run { self with cache := splice self.cache (address - 1) value } := by
  have hrange := writeRange_of_valid (p := p) hv
  rw [writeBytes, Proc.run_ofResult_bind hrange, Proc.run_gets_bind,
    if_neg fun hs => h ⟨hs.1, _, hrange, hs.2⟩]
  rfl

/-- A write that returns `Ok` skipped the flash or synced it. -/
theorem writeBytes_ok_cases {self self' : Flash p} {address : ℕ} {value : List UInt8}
    {force : Bool} (h : (writeBytes address value force).run self = (.ok (), self')) :
    (self.Skips address value force ∧ self' = self) ∨
    (¬ self.Skips address value force ∧ self'.Synced) := by
  by_cases hs : self.Skips address value force
  · rw [writeBytes_run_of_skips hs] at h
    exact Or.inl ⟨hs, (congrArg Prod.snd h).symm⟩
  · refine Or.inr ⟨hs, ?_⟩
    obtain ⟨range, s₁, hr, hrest⟩ := Proc.ok_of_bind h
    obtain ⟨hrange, rfl⟩ := Proc.ok_of_ofResult hr
    rw [Proc.run_gets_bind] at hrest
    split at hrest
    · rename_i hskip
      exact absurd ⟨hskip.1, range, hrange, hskip.2⟩ hs
    · exact (syncCvs_ok hrest).1

/-! ### The CVs -/

/-- The cached CVs by number. -/
def cvsOf (cache : CvArray) (a : ℕ) : UInt8 :=
  if h : 1 ≤ a ∧ a ≤ CV_SIZE then cache ⟨a - 1, by omega⟩ else 0

theorem cvsOf_of_mem {cache : CvArray} {a : ℕ} (h : 1 ≤ a ∧ a ≤ CV_SIZE) :
    cvsOf cache a = cache ⟨a - 1, by omega⟩ := dif_pos h

theorem slice_eq {cache : CvArray} {a n : ℕ} (h : ValidRange a n) :
    slice cache (a - 1) (a - 1 + n) = (List.range n).map fun i => cvsOf cache (a + i) := by
  obtain ⟨h₁, h₂⟩ := h
  rw [slice, Nat.add_sub_cancel_left]
  refine List.map_congr_left fun i hi => ?_
  rw [List.mem_range] at hi
  rw [dif_pos (by omega), cvsOf_of_mem (by omega)]
  congr 2
  omega

theorem cvsOf_splice {cache : CvArray} {a : ℕ} {v : List UInt8} (h : ValidRange a v.length) :
    cvsOf (splice cache (a - 1) v) = overwrite (cvsOf cache) a v := by
  obtain ⟨h₁, h₂⟩ := h
  funext n
  by_cases hn : 1 ≤ n ∧ n ≤ CV_SIZE
  · rw [cvsOf_of_mem hn, splice, overwrite, cvsOf_of_mem hn]
    by_cases ha : a ≤ n
    · rw [if_pos ha, if_pos (Nat.sub_le_sub_right ha 1)]
      congr 2
      show n - 1 - (a - 1) = n - a
      omega
    · rw [if_neg ha, if_neg (by simp only; omega)]
  · rw [cvsOf, dif_neg hn, overwrite, cvsOf, dif_neg hn]
    split
    · rw [List.getElem?_eq_none (by omega), Option.getD_none]
    · rfl

/-- Writing back what is there changes nothing. -/
theorem overwrite_of_slice {cache : CvArray} {a : ℕ} {v : List UInt8}
    (h : ValidRange a v.length) (hs : slice cache (a - 1) (a - 1 + v.length) = v) :
    overwrite (cvsOf cache) a v = cvsOf cache := by
  rw [slice_eq h] at hs
  funext n
  by_cases hn : a ≤ n
  · rw [overwrite, if_pos hn]
    by_cases hlt : n - a < v.length
    · have hget : v[n - a]? = some (cvsOf cache n) := by
        rw [← hs, List.getElem?_map, List.getElem?_range hlt, Option.map_some,
          Nat.add_sub_cancel' hn]
      rw [hget, Option.getD_some]
    · rw [List.getElem?_eq_none (by omega), Option.getD_none]
  · rw [overwrite, if_neg hn]

instance : ReadableStore (Flash p) where
  cvs self := cvsOf self.cache
  readByte_eq self {a} h₁ h₂ := by
    show readByte self a = _
    rw [readByte, p.subUsize_of_le h₁, cvsOf_of_mem ⟨h₁, h₂⟩]
    exact dif_pos (by omega)
  readBytes_eq self {a n} h₁ h₂ := by
    have hsize : CV_SIZE = 1024 := rfl
    show readBytes self a n = _
    rw [← slice_eq ⟨h₁, h₂⟩, readBytes, p.subUsize_of_le h₁]
    simp only [Proc.checked, bind, Except.bind]
    rw [p.addUsize_of_lt (by omega)]
    exact if_pos (by omega)

/-- No flash operation goes wrong. -/
def Faultless (self : Flash p) : Prop := ∀ n, self.flash.faults n = none

theorem writeBytes_run {self : Flash p} {a : ℕ} {v : List UInt8} (force : Bool)
    (hs : self.Faultless) (h : ValidRange a v.length) :
    ∃ self' : Flash p, (writeBytes a v force).run self = (.ok (), self') ∧ self'.Faultless ∧
      cvsOf self'.cache = overwrite (cvsOf self.cache) a v := by
  by_cases hskip : self.Skips a v force
  · refine ⟨self, writeBytes_run_of_skips hskip, hs, ?_⟩
    obtain ⟨-, range, hrange, hslice⟩ := hskip
    rw [writeRange_of_valid h, Except.ok.injEq] at hrange
    subst hrange
    exact (overwrite_of_slice h hslice).symm
  · obtain ⟨flash, hrun, -, hfaults⟩ :=
      @syncCvs_run p { self with cache := splice self.cache (a - 1) v } (hs _) (hs _)
    refine ⟨_, (writeBytes_run_of_not_skips h hskip).trans hrun, fun n => ?_, ?_⟩
    · exact (congrFun hfaults n).trans (hs n)
    · exact cvsOf_splice h

instance : ReliableStore (Flash p) where
  Good := Faultless
  writeByte_run {self a} v hs h₁ h₂ := by
    rw [← overwrite_singleton]
    exact writeBytes_run false hs ⟨h₁, Nat.succ_le_succ h₂⟩
  writeBytes_run force hs h₁ h₂ := writeBytes_run force hs ⟨h₁, h₂⟩

/-- A booted store that holds the factory defaults, in a flash that works. -/
def defaultFlash : Flash .release :=
  Flash.new ⟨fun i => defaultValue (i.val + 1), fun _ => none, 0⟩

end Flash

end Rp2040
