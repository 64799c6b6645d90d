/-
The range of the decoder's address, over runs of the handler.

`write_byte` guards CV1, CV17 and CV18; a bit write reaches the same CVs
without a guard.

* `addressValid_of_change` — every other change keeps the address valid;
* `addr_in_range` — a valid address is 1..=127 or 1..=10239;
* `addressValid_iff` — in a run from the factory defaults the address stays
  valid exactly when no bit write gives an address CV a value that a byte write
  of it would reject.
-/
import Rp2040Decoder.Latch

namespace Rp2040.Handler

open Transition ReadableStore ReliableStore

/-- The CVs hold a short and a long address the decoder can be reached at. -/
structure AddressValid (cvs : ℕ → UInt8) : Prop where
  primary : 1 ≤ cvs 1 ∧ cvs 1 ≤ 127
  extendedMsb : 192 ≤ cvs 17 ∧ cvs 17 ≤ 231
  extended : ¬ (cvs 17 = 192 ∧ cvs 18 = 0)

/-- The values `write_byte` rejects. -/
def Rejected (cvs : ℕ → UInt8) (a : ℕ) (value : UInt8) : Prop :=
  (a = 1 ∧ ¬ (1 ≤ value ∧ value ≤ 127)) ∨
  (a = 17 ∧ (¬ (192 ≤ value ∧ value ≤ 231) ∨ (cvs 18 = 0 ∧ value = 192))) ∨
  (a = 18 ∧ cvs 17 = 192 ∧ value = 0)

/-- `store.addr()` is a short or a long address, as bit 5 of CV29 says. -/
def AddrInRange {S : Type} [Store S] [ReadableStore S] (store : S) : Prop :=
  ∃ addr, Store.addr store = .ok addr ∧ 1 ≤ addr ∧
    addr ≤ if 0b00100000 &&& cvs store 29 ≠ 0 then 10239 else 127

theorem addr_in_range {S : Type} [Store S] [ReadableStore S] {store : S}
    (h : AddressValid (cvs store)) : AddrInRange store := by
  obtain ⟨⟨h₁, h₂⟩, ⟨h₃, h₄⟩, h₅⟩ := h
  refine ⟨cvAddr (cvs store), addr_eq store, ?_⟩
  rw [cvAddr]
  by_cases hbit : 0b00100000 &&& cvs store 29 ≠ 0
  · rw [if_pos hbit, if_pos hbit, UInt16.le_iff_toNat_le, UInt16.le_iff_toNat_le,
      toNat_extendedAddress]
    rw [UInt8.le_iff_toNat_le] at h₃ h₄
    rw [← UInt8.toNat_inj, ← UInt8.toNat_inj] at h₅
    have hlsb := (cvs store 18).toNat_lt
    simp only [UInt8.reduceToNat, UInt16.reduceToNat] at h₃ h₄ h₅ ⊢
    omega
  · rw [if_neg hbit, if_neg hbit, UInt16.le_iff_toNat_le, UInt16.le_iff_toNat_le,
      UInt8.toNat_toUInt16]
    rw [UInt8.le_iff_toNat_le] at h₁ h₂
    exact ⟨h₁, h₂⟩

/-- A single CV may be given any value that is not rejected. -/
theorem addressValid_update {cvs : ℕ → UInt8} (h : AddressValid cvs) {a : ℕ} {value : UInt8}
    (hr : ¬ Rejected cvs a value) : AddressValid (Function.update cvs a value) := by
  obtain ⟨hp, hm, he⟩ := h
  rw [Rejected, not_or, not_or] at hr
  obtain ⟨hr₁, hr₁₇, hr₁₈⟩ := hr
  refine ⟨?_, ?_, ?_⟩
  · by_cases ha : a = 1
    · subst ha
      rw [Function.update_self]
      exact not_not.mp fun hn => hr₁ ⟨rfl, hn⟩
    · rwa [Function.update_of_ne (Ne.symm ha)]
  · by_cases ha : a = 17
    · subst ha
      rw [Function.update_self]
      exact not_not.mp fun hn => hr₁₇ ⟨rfl, Or.inl hn⟩
    · rwa [Function.update_of_ne (Ne.symm ha)]
  · by_cases ha : a = 17
    · subst ha
      rw [Function.update_self, Function.update_of_ne (by decide)]
      exact fun hn => hr₁₇ ⟨rfl, Or.inr ⟨hn.2, hn.1⟩⟩
    · by_cases hb : a = 18
      · subst hb
        rw [Function.update_self, Function.update_of_ne (by decide)]
        exact fun hn => hr₁₈ ⟨rfl, hn⟩
      · rwa [Function.update_of_ne (Ne.symm ha), Function.update_of_ne (Ne.symm hb)]

/-- A rejected value breaks the address. -/
theorem not_addressValid_update {cvs : ℕ → UInt8} {a : ℕ} {value : UInt8}
    (hr : Rejected cvs a value) : ¬ AddressValid (Function.update cvs a value) := by
  rintro ⟨hp, hm, he⟩
  rcases hr with ⟨rfl, hn⟩ | ⟨rfl, hn⟩ | ⟨rfl, hn⟩
  · rw [Function.update_self] at hp
    exact hn hp
  · rw [Function.update_self] at hm he
    rw [Function.update_of_ne (by decide)] at he
    rcases hn with hn | hn
    · exact hn hm
    · exact he ⟨hn.2, hn.1⟩
  · rw [Function.update_self, Function.update_of_ne (by decide)] at he
    exact he hn

theorem addressValid_of_defaults {cvs : ℕ → UInt8}
    (h : ∀ n, 1 ≤ n → n ≤ CV_SIZE → cvs n = defaultValue n) : AddressValid cvs := by
  have h₁ : cvs 1 = 3 := h 1 (by decide) (by decide)
  have h₁₇ : cvs 17 = 195 := h 17 (by decide) (by decide)
  refine ⟨?_, ?_, ?_⟩
  · rw [h₁]
    decide
  · rw [h₁₇]
    decide
  · rw [h₁₇]
    exact fun he => absurd he.1 (by decide)

/-- Every change but a rejected bit write keeps the address valid. -/
theorem addressValid_of_change {packet : Packet} {cvs cvs' : ℕ → UInt8}
    (hchange : CvChange packet cvs cvs') (h : AddressValid cvs)
    (hbit : ∀ a value, bitWrite cvs packet = some (a, value) → ¬ Rejected cvs a value) :
    AddressValid cvs' := by
  cases hchange with
  | unchanged => exact h
  | reset =>
    refine addressValid_of_defaults fun n h₁ h₂ => ?_
    rw [overwrite_DEFAULT_VALUES, if_pos ⟨h₁, h₂⟩]
  -- CV1 is checked; CV29 and CV19 are no part of an address
  | @primaryAddress value h₁ h₂ =>
    refine addressValid_update (addressValid_update (addressValid_update h ?_) ?_) ?_
    · rintro (⟨-, hn⟩ | ⟨ha, -⟩ | ⟨ha, -⟩)
      · exact hn ⟨h₁, h₂⟩
      · cases ha
      · cases ha
    · rintro (⟨ha, -⟩ | ⟨ha, -⟩ | ⟨ha, -⟩) <;> cases ha
    · rintro (⟨ha, -⟩ | ⟨ha, -⟩ | ⟨ha, -⟩) <;> cases ha
  | extendedAddressMsb h₁ h₂ hzero =>
    refine addressValid_update h ?_
    rintro (⟨ha, -⟩ | ⟨-, hn | hn⟩ | ⟨ha, -⟩)
    · cases ha
    · exact hn ⟨h₁, h₂⟩
    · exact hzero hn
    · cases ha
  | extendedAddressLsb hzero =>
    refine addressValid_update h ?_
    rintro (⟨ha, -⟩ | ⟨ha, -⟩ | ⟨-, hn⟩)
    · cases ha
    · cases ha
    · exact hzero hn
  | other h₁ h₁₇ h₁₈ =>
    refine addressValid_update h ?_
    rintro (⟨ha, -⟩ | ⟨ha, -⟩ | ⟨ha, -⟩)
    · exact h₁ ha
    · exact h₁₇ ha
    · exact h₁₈ ha
  | bit hb => exact addressValid_update h (hbit _ _ hb)

/-! ### Runs -/

section Runs

variable {T S : Type} [Timer T] [Store S] {self self' : Handler T S} {c : Call}

/-- The store after a call: what the packet does to it if it is executed, the
same store otherwise. -/
theorem store_of_step {r : Except (Fault HandlerError) (Option Op)} (h : self.Step c r self') :
    (self.Executes c ∧ (executeServicePacket c.packet).run self.store = (r, self'.store)) ∨
    (¬ self.Executes c ∧ self'.store = self.store) := by
  cases h with
  | reset hreset =>
    refine Or.inr ⟨fun hx => ?_, rfl⟩
    have hno := hx.1.1
    rw [hreset] at hno
    cases hno
  | latch hservice hp => exact Or.inr ⟨fun hx => hp hx.2, rfl⟩
  | execute hexec hrun => exact Or.inl ⟨hexec, hrun⟩
  | command hno _ _ => exact Or.inr ⟨fun hx => hno hx.1, rfl⟩
  | foreign _ hno _ _ => exact Or.inr ⟨fun hx => hno hx.1, rfl⟩

variable [ReliableStore S]

theorem change_of_next (h : self.next c = some self') (hs : Good self.store) :
    Good self'.store ∧
      ((self.Executes c ∧ CvChange c.packet (cvs self.store) (cvs self'.store)) ∨
        self'.store = self.store) := by
  rcases store_of_step (step_of_next h) with ⟨hexec, hrun⟩ | ⟨-, hstore⟩
  · obtain ⟨r, s', hrun', hgood, hchange⟩ := @executeServicePacket_changes S _ c.packet _ _ hs
    rw [hrun, Prod.mk.injEq] at hrun'
    rw [hrun'.2]
    exact ⟨hgood, Or.inl ⟨hexec, hchange⟩⟩
  · rw [hstore]
    exact ⟨hs, Or.inr rfl⟩

/-- The call writes bits that leave no valid address. -/
def RejectedBitWrite (self : Handler T S) (c : Call) : Prop :=
  self.Executes c ∧ ∃ a value, bitWrite (cvs self.store) c.packet = some (a, value) ∧
    Rejected (cvs self.store) a value

theorem not_addressValid_of_next (h : self.next c = some self') (hs : Good self.store)
    (hr : RejectedBitWrite self c) : ¬ AddressValid (cvs self'.store) := by
  obtain ⟨hexec, a, value, hbit, hrejected⟩ := hr
  rcases store_of_step (step_of_next h) with ⟨-, hrun⟩ | ⟨hno, -⟩
  · obtain ⟨s', hrun', -, hcvs⟩ := executeServicePacket_bitWrite hs hbit
    rw [hrun, Prod.mk.injEq] at hrun'
    rw [hrun'.2, hcvs]
    exact not_addressValid_update hrejected
  · exact absurd hexec hno

theorem addressValid_of_next (h : self.next c = some self') (hs : Good self.store)
    (hr : ¬ RejectedBitWrite self c) (hvalid : AddressValid (cvs self.store)) :
    AddressValid (cvs self'.store) := by
  rcases (change_of_next h hs).2 with ⟨hexec, hchange⟩ | hstore
  · exact addressValid_of_change hchange hvalid fun a value hbit hrejected =>
      hr ⟨hexec, a, value, hbit, hrejected⟩
  · rwa [hstore]

/-- **The decoder's address stays in range.**  In a run from the factory
defaults with all store I/O succeeding, every state reached has CV1 in 1..=127,
CV17 in 192..=231, not CV17 = 192 with CV18 = 0, and hence an address in range,
if and only if no executed bit write gives one of these CVs a value that a byte
write would reject. -/
theorem addressValid_iff {timer : T} {store : S} {t : List (Event (Handler T S) Call)}
    (hgood : Good store) (hdefaults : ∀ n, 1 ≤ n → n ≤ CV_SIZE → cvs store n = defaultValue n)
    (hrun : Run (fun h c h' => next h c = some h') (Handler.new timer store) t self) :
    (∀ e ∈ t, AddressValid (cvs e.post.store) ∧ AddrInRange e.post.store) ↔
      ∀ e ∈ t, ¬ RejectedBitWrite e.pre e.label := by
  constructor
  -- a rejected bit write shows in the state right after it
  · intro h e he hr
    have hpre : Good e.pre.store :=
      ((hrun.invariant (I := fun h => Good h.store)
        (fun _ _ _ hstep hI => (change_of_next hstep hI).1) hgood).2 e he).1
    exact not_addressValid_of_next (hrun.step_of_mem e he) hpre hr (h e he).1
  · intro h e he
    have hinv := (hrun.invariant_on
      (I := fun h => Good h.store ∧ AddressValid (cvs h.store))
      (C := fun e => ¬ RejectedBitWrite e.pre e.label)
      (fun e hC hstep hI => ⟨(change_of_next hstep hI.1).1,
        addressValid_of_next hstep hI.1 hC hI.2⟩)
      ⟨hgood, addressValid_of_defaults hdefaults⟩ h).2 e he
    exact ⟨hinv.2.2, addr_in_range hinv.2.2⟩

end Runs

theorem cvs_defaultFlash : ∀ n, 1 ≤ n → n ≤ CV_SIZE →
    cvs Flash.defaultFlash n = defaultValue n := by
  intro n h₁ h₂
  refine (Flash.cvsOf_of_mem ⟨h₁, h₂⟩).trans ?_
  show defaultValue (n - 1 + 1) = defaultValue n
  rw [Nat.sub_add_cancel h₁]

/-- A write to CV3 leaves the address in range. -/
theorem addressValid_after_write :
    ∃ t h, Run (fun h c h' => next h c = some h') startup t h ∧
      t.map (fun e => e.pre.result e.label) =
        [.ok (some .reset), .ok none, .ok (some .acknowledgeCv)] ∧
      ∀ e ∈ t, AddressValid (cvs e.post.store) ∧ AddrInRange e.post.store := by
  have hrun := Run.of_exec next
    [⟨0, resetPacket⟩, ⟨1000, writePacket⟩, ⟨2000, writePacket⟩] (s := startup) rfl
  refine ⟨_, _, hrun, rfl,
    (addressValid_iff (fun _ => rfl) cvs_defaultFlash hrun).mpr fun e he hr => ?_⟩
  obtain ⟨-, a, value, hbit, -⟩ := hr
  have hpacket : e.label.packet ∈ [resetPacket, writePacket, writePacket] :=
    List.mem_map_of_mem (f := fun e : Event _ Call => e.label.packet) he
  simp only [List.mem_cons, List.not_mem_nil, or_false, or_self] at hpacket
  rcases hpacket with hp | hp <;> rw [hp] at hbit <;> cases hbit

/-- The service-mode packet that sets bit 7 of CV1. -/
def bitWritePacket : Packet := ⟨[0b01111000, 0x00, 0b11111111], by decide⟩

/-- Setting bit 7 of CV1 turns the address 3 into 131. -/
theorem bitWrite_breaks_address :
    ∃ t h, Run (fun h c h' => next h c = some h') startup t h ∧
      t.map (fun e => e.pre.result e.label) =
        [.ok (some .reset), .ok none, .ok (some .acknowledgeCv)] ∧
      cvs h.store 1 = 131 ∧ ∃ e ∈ t, ¬ AddressValid (cvs e.post.store) := by
  have hrun := Run.of_exec next
    [⟨0, resetPacket⟩, ⟨1000, bitWritePacket⟩, ⟨2000, bitWritePacket⟩] (s := startup) rfl
  refine ⟨_, _, hrun, rfl, ?_, _, List.mem_cons_of_mem _ (List.mem_cons_of_mem _
    (List.mem_singleton.mpr rfl)), fun h => absurd h.primary.2 ?_⟩
  · decide +kernel
  · decide +kernel

end Rp2040.Handler
