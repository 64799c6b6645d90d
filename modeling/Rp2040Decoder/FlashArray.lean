/-
The flash store as an array of CVs, as long as its I/O succeeds.

Each entry point turns the number of a CV into an index of the cache and checks
the range in its own way: a read by slicing, a write by arithmetic before it
slices.  They agree on what is inside the array.

* `readByte_eq_ite`, `readBytes_eq_ite`, `writeBytes_run_of_not_valid` — the
  range check of each entry point;
* `onFlash_spec` — one call does to the CVs what it does to the array;
* `readBytes_eq_mapM` — bytes read together are the bytes read one by one;
* `observe_flash_eq_array` — any calls, one after the other, give the answers
  of the array.
-/
import Rp2040Decoder.CvValue
import Rp2040Decoder.Flash
import Rp2040Decoder.Runs

namespace Rp2040.Flash

open Transition

variable {p : Profile}

/-! ### Calls -/

/-- A call of the store. -/
inductive Access
  | readByte (address : ℕ)
  | readBytes (start len : ℕ)
  | writeByte (address : ℕ) (value : UInt8)
  | writeBytes (address : ℕ) (value : List UInt8) (force : Bool)
  deriving DecidableEq, Repr

namespace Access

/-- The number of the first CV of a call. -/
def address : Access → ℕ
  | .readByte address => address
  | .readBytes start _ => start
  | .writeByte address _ => address
  | .writeBytes address _ _ => address

/-- How many CVs a call is about. -/
def len : Access → ℕ
  | .readByte _ => 1
  | .readBytes _ len => len
  | .writeByte _ _ => 1
  | .writeBytes _ value _ => value.length

/-- CVs are numbered from 1, and the end of a range is a `usize`. -/
def Addressable : Access → Prop
  | .readByte address => 1 ≤ address
  | .readBytes start len => 1 ≤ start ∧ start + len < 2 ^ 32
  | .writeByte address _ => 1 ≤ address ∧ address + 1 < 2 ^ 32
  | .writeBytes address value _ => 1 ≤ address ∧ address + value.length < 2 ^ 32

/-- The call inside the array. -/
def Inside (c : Access) : Prop := ValidRange c.address c.len

instance (c : Access) : Decidable c.Inside :=
  inferInstanceAs (Decidable (ValidRange c.address c.len))

/-- The bytes a call of the store returns, and the store after it. -/
def onFlash (self : Flash p) : Access → Except (Fault StoreError) (List UInt8) × Flash p
  | .readByte address => ((Flash.readByte self address).map fun b => [b], self)
  | .readBytes start len => (Flash.readBytes self start len, self)
  | .writeByte address value =>
    let r := (Flash.writeByte address value).run self
    (r.1.map fun _ => [], r.2)
  | .writeBytes address value force =>
    let r := (Flash.writeBytes address value force).run self
    (r.1.map fun _ => [], r.2)

/-- What a call inside the array returns, and the CVs after it. -/
def onCvs (cvs : ℕ → UInt8) : Access → List UInt8 × (ℕ → UInt8)
  | .readByte address => ([cvs address], cvs)
  | .readBytes start len => ((List.range len).map fun i => cvs (start + i), cvs)
  | .writeByte address value => ([], Function.update cvs address value)
  | .writeBytes address value _ => ([], overwrite cvs address value)

/-- An array of `CV_SIZE` CVs, numbered from 1: a call outside it is refused. -/
def onArray (cvs : ℕ → UInt8) (c : Access) :
    Except (Fault StoreError) (List UInt8) × (ℕ → UInt8) :=
  if c.Inside then (.ok (c.onCvs cvs).1, (c.onCvs cvs).2)
  else (.error (.error .invalidAddress), cvs)

end Access

/-! ### The range checks -/

theorem readByte_eq_ite (self : Flash p) {address : ℕ} (h : 1 ≤ address) :
    readByte self address =
      if ValidRange address 1 then .ok (cvsOf self.cache address)
      else .error (.error .invalidAddress) := by
  by_cases hv : ValidRange address 1
  · rw [if_pos hv]
    exact ReadableStore.readByte_eq self h (Nat.le_of_succ_le_succ hv.2)
  · rw [if_neg hv, readByte, p.subUsize_of_le h]
    exact dif_neg fun hlt => hv ⟨h, by omega⟩

theorem readBytes_eq_ite (self : Flash p) {start len : ℕ} (h : 1 ≤ start)
    (hlt : start + len < 2 ^ 32) :
    readBytes self start len =
      if ValidRange start len then .ok ((List.range len).map fun i => cvsOf self.cache (start + i))
      else .error (.error .invalidAddress) := by
  by_cases hv : ValidRange start len
  · rw [if_pos hv]
    exact ReadableStore.readBytes_eq self h hv.2
  · rw [if_neg hv, readBytes, p.subUsize_of_le h]
    simp only [Proc.checked, bind, Except.bind]
    rw [p.addUsize_of_lt (by omega)]
    exact if_neg fun hr => hv ⟨h, by omega⟩

theorem writeRange_of_not_valid {address len : ℕ} (h : 1 ≤ address) (hlt : address + len < 2 ^ 32)
    (hv : ¬ ValidRange address len) :
    writeRange p address len = .error (.error .invalidAddress) := by
  have hlast : CV_SIZE < address + len - 1 := by
    by_contra hle
    exact hv ⟨h, by omega⟩
  rw [writeRange, if_neg (by omega), p.addUsize_of_lt hlt, Option.bind_some,
    p.subUsize_of_le (by omega)]
  exact if_pos hlast

theorem writeBytes_run_of_not_valid (self : Flash p) {address : ℕ} {v : List UInt8}
    (force : Bool) (h : 1 ≤ address) (hlt : address + v.length < 2 ^ 32)
    (hv : ¬ ValidRange address v.length) :
    (writeBytes address v force).run self = (.error (.error .invalidAddress), self) := by
  refine Proc.run_bind_of_error ?_
  rw [writeRange_of_not_valid h hlt hv]
  rfl

/-! ### One call -/

/-- A call outside the array is refused and leaves the store as it is. -/
theorem onFlash_of_not_inside (self : Flash p) {c : Access} (hc : c.Addressable)
    (h : ¬ c.Inside) : c.onFlash self = (.error (.error .invalidAddress), self) := by
  cases c with
  | readByte address =>
    rw [Access.onFlash, readByte_eq_ite self hc, if_neg (show ¬ ValidRange address 1 from h)]
    rfl
  | readBytes start len =>
    rw [Access.onFlash, readBytes_eq_ite self hc.1 hc.2,
      if_neg (show ¬ ValidRange start len from h)]
  | writeByte address value =>
    simp only [Access.onFlash]
    rw [writeByte, writeBytes_run_of_not_valid (v := [value]) self false hc.1 hc.2 h]
    rfl
  | writeBytes address value force =>
    simp only [Access.onFlash]
    rw [writeBytes_run_of_not_valid self force hc.1 hc.2 h]
    rfl

/-- A call inside the array succeeds. -/
theorem onFlash_of_inside {self : Flash p} (hs : self.Faultless) {c : Access}
    (hc : c.Addressable) (h : c.Inside) :
    ∃ self' : Flash p, c.onFlash self = (.ok (c.onCvs (cvsOf self.cache)).1, self') ∧
      cvsOf self'.cache = (c.onCvs (cvsOf self.cache)).2 ∧ self'.Faultless := by
  cases c with
  | readByte address =>
    refine ⟨self, ?_, rfl, hs⟩
    rw [Access.onFlash, readByte_eq_ite self hc, if_pos (show ValidRange address 1 from h)]
    rfl
  | readBytes start len =>
    refine ⟨self, ?_, rfl, hs⟩
    rw [Access.onFlash, readBytes_eq_ite self hc.1 hc.2,
      if_pos (show ValidRange start len from h)]
    rfl
  | writeByte address value =>
    obtain ⟨self', hrun, hs', hcvs⟩ := writeBytes_run (a := address) (v := [value]) false hs h
    refine ⟨self', ?_, by rw [hcvs, overwrite_singleton]; rfl, hs'⟩
    simp only [Access.onFlash]
    rw [writeByte, hrun]
    rfl
  | writeBytes address value force =>
    obtain ⟨self', hrun, hs', hcvs⟩ := writeBytes_run (a := address) force hs h
    refine ⟨self', ?_, hcvs, hs'⟩
    simp only [Access.onFlash]
    rw [hrun]
    rfl

/-- One call answers as the array does and leaves the CVs that the array
holds. -/
theorem onFlash_spec {self : Flash p} (hs : self.Faultless) {c : Access} (hc : c.Addressable) :
    ∃ answer self', c.onFlash self = (answer, self') ∧
      c.onArray (cvsOf self.cache) = (answer, cvsOf self'.cache) ∧ self'.Faultless := by
  by_cases h : c.Inside
  · obtain ⟨self', hrun, hcvs, hs'⟩ := onFlash_of_inside hs hc h
    refine ⟨_, self', hrun, ?_, hs'⟩
    rw [Access.onArray, if_pos h, hcvs]
  · refine ⟨_, self, onFlash_of_not_inside self hc h, ?_, hs⟩
    rw [Access.onArray, if_neg h]

/-! ### Reading -/

/-- Bytes read together are the bytes read one by one. -/
theorem readBytes_eq_mapM (self : Flash p) {start len : ℕ} (h : 1 ≤ start)
    (hlt : start + len < 2 ^ 32) (hlen : 0 < len) :
    readBytes self start len = (List.range len).mapM fun i => readByte self (start + i) := by
  have hbyte : ∀ i, readByte self (start + i) =
      if ValidRange (start + i) 1 then .ok (cvsOf self.cache (start + i))
      else .error (.error .invalidAddress) :=
    fun i => readByte_eq_ite self (Nat.le_add_right_of_le h)
  rw [readBytes_eq_ite self h hlt, mapM_of_eq_ite hbyte]
  -- the last byte is the first one to be missing
  refine if_congr ⟨fun hv i hi => ?_, fun hall => ?_⟩ rfl rfl
  · rw [List.mem_range] at hi
    exact ⟨Nat.le_add_right_of_le h, by have := hv.2; omega⟩
  · have hlast := (hall (len - 1) (List.mem_range.mpr (by omega))).2
    exact ⟨h, by omega⟩

/-- `self'` reads as `self` does, but for the bytes `value` from `address` on. -/
structure ReadsBack (self self' : Flash p) (address : ℕ) (value : List UInt8) : Prop where
  inside : ∀ i (hi : i < value.length), readByte self' (address + i) = .ok value[i]
  outside : ∀ n, 1 ≤ n → n < address ∨ address + value.length ≤ n →
    readByte self' n = readByte self n
  together : ∀ start len, 1 ≤ start → start + len < 2 ^ 32 → 0 < len →
    readBytes self' start len = (List.range len).mapM fun i => readByte self' (start + i)

theorem readsBack_of_overwrite {self self' : Flash p} {address : ℕ} {value : List UInt8}
    (hv : ValidRange address value.length)
    (hcvs : cvsOf self'.cache = overwrite (cvsOf self.cache) address value) :
    ReadsBack self self' address value where
  inside i hi := by
    have h₁ := hv.1
    have h₂ := hv.2
    rw [readByte_eq_ite self' (by omega), if_pos ⟨by omega, by omega⟩, hcvs, overwrite,
      if_pos (Nat.le_add_right _ _), Nat.add_sub_cancel_left, List.getElem?_eq_getElem hi]
    rfl
  outside n hn hout := by
    have hsame : overwrite (cvsOf self.cache) address value n = cvsOf self.cache n := by
      by_cases h : address ≤ n
      · rw [overwrite, if_pos h, List.getElem?_eq_none (by omega), Option.getD_none]
      · rw [overwrite, if_neg h]
    rw [readByte_eq_ite self' hn, readByte_eq_ite self hn, hcvs, hsame]
  together _ _ h hlt hlen := readBytes_eq_mapM self' h hlt hlen

/-- The readers of longer values show the bytes that are read one by one. -/
theorem readCvU16_eq_mapM (self : Flash p) {a : ℕ} (h : 1 ≤ a) (hlt : a + 2 < 2 ^ 32) :
    (Store.readCvU16 self a).map UInt16.toNat =
      ((List.range 2).mapM fun i => readByte self (a + i)).map beValue := by
  rw [← readBytes_eq_mapM self h hlt (by decide), Store.readCvU16]
  show Except.map _ (readBytes self a 2 >>= _) = _
  rw [readBytes_eq_ite self h hlt]
  by_cases hv : ValidRange a 2
  · rw [if_pos hv]
    exact congrArg Except.ok (toNat_u16 _ _)
  · rw [if_neg hv]
    rfl

theorem readCvU32_eq_mapM (self : Flash p) {a : ℕ} (h : 1 ≤ a) (hlt : a + 4 < 2 ^ 32) :
    (Store.readCvU32 self a).map UInt32.toNat =
      ((List.range 4).mapM fun i => readByte self (a + i)).map beValue := by
  rw [← readBytes_eq_mapM self h hlt (by decide), Store.readCvU32]
  show Except.map _ (readBytes self a 4 >>= _) = _
  rw [readBytes_eq_ite self h hlt]
  by_cases hv : ValidRange a 4
  · rw [if_pos hv]
    exact congrArg Except.ok (toNat_u32 _ _ _ _)
  · rw [if_neg hv]
    rfl

/-! ### The array -/

/-- What the next call does. -/
structure ActsAsArray (self : Flash p) : Prop where
  succeeds_iff : ∀ c : Access, c.Addressable → ((c.onFlash self).1.isOk ↔ c.Inside)
  refused : ∀ c : Access, c.Addressable → ¬ c.Inside →
    c.onFlash self = (.error (.error .invalidAddress), self)
  written : ∀ address value force, 1 ≤ address → address + value.length < 2 ^ 32 →
    ∀ self', (writeBytes address value force).run self = (.ok (), self') →
      ReadsBack self self' address value
  readCvU16 : ∀ a, 1 ≤ a → a + 2 < 2 ^ 32 → (Store.readCvU16 self a).map UInt16.toNat =
    ((List.range 2).mapM fun i => readByte self (a + i)).map beValue
  readCvU32 : ∀ a, 1 ≤ a → a + 4 < 2 ^ 32 → (Store.readCvU32 self a).map UInt32.toNat =
    ((List.range 4).mapM fun i => readByte self (a + i)).map beValue

theorem actsAsArray {self : Flash p} (hs : self.Faultless) : self.ActsAsArray where
  succeeds_iff c hc := by
    by_cases h : c.Inside
    · obtain ⟨self', hrun, -⟩ := onFlash_of_inside hs hc h
      simp only [hrun, Except.isOk, Except.toBool, h]
    · simp only [onFlash_of_not_inside self hc h, Except.isOk, Except.toBool, h, Bool.false_eq_true]
  refused c hc h := onFlash_of_not_inside self hc h
  written address value force h hlt self' hrun := by
    by_cases hv : ValidRange address value.length
    · obtain ⟨self₁, hrun₁, -, hcvs⟩ := writeBytes_run force hs hv
      obtain rfl : self' = self₁ := congrArg Prod.snd (hrun.symm.trans hrun₁)
      exact readsBack_of_overwrite hv hcvs
    · rw [writeBytes_run_of_not_valid self force h hlt hv] at hrun
      cases hrun
  readCvU16 _ h hlt := readCvU16_eq_mapM self h hlt
  readCvU32 _ h hlt := readCvU32_eq_mapM self h hlt

/-- A call of the store as a step with an output. -/
def nextFlash (self : Flash p) (c : {c : Access // c.Addressable}) :
    Option (Except (Fault StoreError) (List UInt8) × Flash p) :=
  some (c.1.onFlash self)

/-- A call of the array as a step with an output. -/
def nextArray (cvs : ℕ → UInt8) (c : {c : Access // c.Addressable}) :
    Option (Except (Fault StoreError) (List UInt8) × (ℕ → UInt8)) :=
  some (c.1.onArray cvs)

/-- **The flash store is an array of CVs.**  As long as its I/O succeeds, any
calls made one after the other give the answers of an array of `CV_SIZE` CVs
numbered from 1, and leave a store that acts as this array. -/
theorem observe_flash_eq_array {self : Flash p} (hs : self.Faultless)
    (calls : List {c : Access // c.Addressable}) :
    ∃ answers self', observe nextFlash self calls = some (answers, self') ∧
      observe nextArray (cvsOf self.cache) calls = some (answers, cvsOf self'.cache) ∧
      self'.ActsAsArray := by
  have hstep : ∀ (self : Flash p) (c : {c : Access // c.Addressable}), self.Faultless →
      ∃ answer self', nextFlash self c = some (answer, self') ∧
        nextArray (cvsOf self.cache) c = some (answer, cvsOf self'.cache) ∧ self'.Faultless := by
    intro self c hs
    obtain ⟨answer, self', hrun, harray, hs'⟩ := onFlash_spec hs c.2
    exact ⟨answer, self', congrArg some hrun, congrArg some harray, hs'⟩
  obtain ⟨answers, self', hobs, hobs', hs'⟩ :=
    observe_map (fun self : Flash p => cvsOf self.cache) hstep calls hs
  exact ⟨answers, self', hobs, hobs', actsAsArray hs'⟩

/-- Calls at the end of the array. -/
def boundaryCalls : List {c : Access // c.Addressable} :=
  [⟨.readByte 1024, show 1 ≤ 1024 by decide⟩, ⟨.writeBytes 1023 [7, 9] false, by decide, by decide⟩,
    ⟨.readByte 1024, show 1 ≤ 1024 by decide⟩, ⟨.readBytes 1022 3, by decide, by decide⟩,
    ⟨.writeBytes 1024 [1, 2] true, by decide, by decide⟩,
    ⟨.readBytes 1025 0, by decide, by decide⟩, ⟨.readByte 1025, show 1 ≤ 1025 by decide⟩]

/-- A write up to the last CV, and one that straddles it. -/
theorem observe_boundaryCalls :
    ∃ self', observe nextFlash defaultFlash boundaryCalls =
        some ([.ok [0], .ok [], .ok [9], .ok [0, 7, 9], .error (.error .invalidAddress), .ok [],
          .error (.error .invalidAddress)], self') ∧
      self'.ActsAsArray := by
  obtain ⟨answers, self', hobs, harray, hself⟩ :=
    observe_flash_eq_array (show defaultFlash.Faultless from fun _ => rfl) boundaryCalls
  have hanswers : answers = _ := (congrArg Prod.fst (Option.some.inj harray)).symm
  rw [hanswers] at hobs
  exact ⟨self', hobs, hself⟩

end Rp2040.Flash
