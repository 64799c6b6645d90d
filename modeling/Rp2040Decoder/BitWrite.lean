/-
Bit writes against byte writes.

`write_byte` guards the address CVs, keeps CV7 and CV8 and ignores CV31 and
CV32; `manipulate_bit` stores the merged byte in whatever CV it is asked for.

* `PlainStore` — the byte write of the merged value has nothing else to do;
* `bitWrite_agrees_iff` — a bit write does what the byte write of the merged
  value does exactly when the store refuses the write, or the byte write is
  accepted and has no side effects left to make.
-/
import Rp2040Decoder.ServiceInstruction

namespace Rp2040

open Handler ReadableStore

section Execute

variable {S : Type} [Store S] [ReadableStore S] {s s' s₁ : S} {a : ℕ} {value : UInt8}
  {packet : Packet} {r : Except (Fault HandlerError) (Option Op)}

/-! ### The bit write beside a byte write -/

/-- A byte write that the store refuses is not acknowledged. -/
theorem not_acknowledged_of_error (h : packet.Carries (.writeByte a value)) (h₁ : 1 ≤ a)
    (h₂ : a ≤ CV_SIZE) {e : Fault StoreError}
    (hw : (Store.writeByte a value).run s = (.error e, s₁))
    (hr : (executeServicePacket packet).run s = (r, s')) : r ≠ .ok (some .acknowledgeCv) := by
  by_cases ha : WriteAccepted (cvs s) a value
  · by_cases hne : a = 1
    · subst hne
      rw [execute_writeByte_primary h ha.primary, writePrimaryAddress_eq,
        writeCv_bind_of_error hw, Prod.mk.injEq] at hr
      rw [← hr.1]
      exact fun hn => by cases hn
    · rw [execute_writeByte_plain h h₁ h₂ hne ha, writeCv_bind_of_error hw, Prod.mk.injEq] at hr
      rw [← hr.1]
      exact fun hn => by cases hn
  · exact not_acknowledged h hr ha

/-- The writes after the one to CV1 succeed and change nothing. -/
def NothingToClear (s : S) : Prop :=
  ∃ s₁ s₂, (Store.writeByte 29 (cvs s 29 &&& ~~~0b00100000)).run s = (.ok (), s₁) ∧
    (Store.writeByte 19 0).run s₁ = (.ok (), s₂) ∧ SameCvs (cvs s₂) (cvs s)

/-- The store refuses the write and stays as it is, or makes it, and
`write_byte` accepts the value and makes no other change. -/
def PlainStore (s : S) (a : ℕ) (value : UInt8) : Prop :=
  (∃ e s', (Store.writeByte a value).run s = (.error e, s') ∧ SameCvs (cvs s') (cvs s)) ∨
  (∃ s', (Store.writeByte a value).run s = (.ok (), s') ∧ WriteAccepted (cvs s) a value ∧
    (a = 1 → NothingToClear s'))

theorem nothingToClear_iff_of_run {s₂ : S}
    (h₁ : (Store.writeByte 29 (cvs s 29 &&& ~~~0b00100000)).run s = (.ok (), s₁))
    (h₂ : (Store.writeByte 19 0).run s₁ = (.ok (), s₂)) :
    NothingToClear s ↔ SameCvs (cvs s₂) (cvs s) := by
  constructor
  · rintro ⟨s₁', s₂', h₁', h₂', hsame⟩
    rw [h₁, Prod.mk.injEq] at h₁'
    obtain ⟨-, rfl⟩ := h₁'
    rw [h₂, Prod.mk.injEq] at h₂'
    obtain ⟨-, rfl⟩ := h₂'
    exact hsame
  · intro hsame
    exact ⟨s₁, s₂, h₁, h₂, hsame⟩

theorem plainStore_iff_of_run (hw : (Store.writeByte a value).run s = (.ok (), s₁)) :
    PlainStore s a value ↔
      WriteAccepted (cvs s) a value ∧ (a = 1 → NothingToClear s₁) := by
  constructor
  · rintro (⟨e, s', h, -⟩ | ⟨s', h, ha⟩)
    · rw [hw] at h
      cases h
    · rw [hw, Prod.mk.injEq] at h
      obtain ⟨-, rfl⟩ := h
      exact ha
  · intro ha
    exact Or.inr ⟨s₁, hw, ha⟩

/-- Behind the write to CV1, the byte write of a short address is acknowledged
and leaves the CVs as that write did, if it had nothing to clear. -/
theorem primary_acknowledged_iff (hw : (Store.writeByte 1 value).run s = (.ok (), s₁))
    (hr : (writePrimaryAddress value).run s = (r, s')) :
    r = .ok (some .acknowledgeCv) ∧ SameCvs (cvs s') (cvs s₁) ↔ NothingToClear s₁ := by
  rw [writePrimaryAddress_eq, writeCv_bind_of_ok hw, readCv_bind (by decide) (by decide)] at hr
  cases h₂ : (Store.writeByte 29 (cvs s₁ 29 &&& ~~~0b00100000)).run s₁ with
  | mk r₂ s₂ =>
    cases r₂ with
    | error e =>
      rw [writeCv_bind_of_error h₂, Prod.mk.injEq] at hr
      refine iff_of_false ?_ ?_
      · rintro ⟨rfl, -⟩
        cases hr.1
      · rintro ⟨_, _, h, -⟩
        rw [h₂] at h
        cases h
    | ok _ =>
      rw [writeCv_bind_of_ok h₂] at hr
      cases h₃ : (Store.writeByte 19 0).run s₂ with
      | mk r₃ s₃ =>
        cases r₃ with
        | error e =>
          rw [writeCv_bind_of_error h₃, Prod.mk.injEq] at hr
          refine iff_of_false ?_ ?_
          · rintro ⟨rfl, -⟩
            cases hr.1
          · rintro ⟨_, _, h, h', -⟩
            rw [h₂, Prod.mk.injEq] at h
            obtain ⟨-, rfl⟩ := h
            rw [h₃] at h'
            cases h'
        | ok _ =>
          rw [writeCv_bind_of_ok h₃, Proc.run_pure,
            Prod.mk.injEq] at hr
          obtain ⟨rfl, rfl⟩ := hr
          rw [nothingToClear_iff_of_run h₂ h₃]
          exact and_iff_right rfl

/-- What a bit write has to do beside a byte write from the same CVs: the same,
if the byte write is acknowledged, and nothing otherwise. -/
def Agrees (cvs₀ : ℕ → UInt8) (byte bit : Except (Fault HandlerError) (Option Op) × (ℕ → UInt8)) :
    Prop :=
  if byte.1 = .ok (some .acknowledgeCv) then
    bit.1 = .ok (some .acknowledgeCv) ∧ SameCvs byte.2 bit.2
  else bit.1 ≠ .ok (some .acknowledgeCv) ∧ SameCvs bit.2 cvs₀

theorem agrees_of_acknowledged {cvs₀ cvs₁ cvs₂ : ℕ → UInt8} :
    Agrees cvs₀ (r, cvs₁) (.ok (some .acknowledgeCv), cvs₂) ↔
      r = .ok (some .acknowledgeCv) ∧ SameCvs cvs₁ cvs₂ := by
  rw [Agrees]
  split
  · rename_i hr
    exact ⟨fun h => ⟨hr, h.2⟩, fun h => ⟨rfl, h.2⟩⟩
  · rename_i hr
    exact iff_of_false (fun h => h.1 rfl) fun h => hr h.1

/-- The two procedures on one store. -/
theorem execute_agrees_iff {b : Fin 8} {v : Bool} {p q : Packet} {s₂ : S}
    {r₁ r₂ : Except (Fault HandlerError) (Option Op)} (h₁ : 1 ≤ a) (h₂ : a ≤ CV_SIZE)
    (hp : p.Carries (.writeByte a (setBit (cvs s a) b v))) (hq : q.Carries (.writeBit a b v))
    (hbyte : (executeServicePacket p).run s = (r₁, s₁))
    (hbit : (executeServicePacket q).run s = (r₂, s₂)) :
    Agrees (cvs s) (r₁, cvs s₁) (r₂, cvs s₂) ↔ PlainStore s a (setBit (cvs s a) b v) := by
  rw [execute_writeBit hq h₁ h₂] at hbit
  generalize setBit (cvs s a) b v = m at hp hbit ⊢
  cases hw : (Store.writeByte a m).run s with
  | mk rw sw =>
    cases rw with
    -- the store refuses: neither is acknowledged
    | error e =>
      rw [writeCv_bind_of_error hw, Prod.mk.injEq] at hbit
      obtain ⟨rfl, rfl⟩ := hbit
      have hbyte' := not_acknowledged_of_error hp h₁ h₂ hw hbyte
      rw [Agrees, if_neg hbyte']
      constructor
      · rintro ⟨-, hsame⟩
        exact Or.inl ⟨e, sw, hw, hsame⟩
      · rintro (⟨e', s', h, hsame⟩ | ⟨s', h, -⟩)
        · rw [hw, Prod.mk.injEq] at h
          obtain ⟨-, rfl⟩ := h
          exact ⟨(fun hn => by cases hn), hsame⟩
        · rw [hw] at h
          cases h
    | ok _ =>
      rw [writeCv_bind_of_ok hw, Proc.run_pure, Prod.mk.injEq] at hbit
      obtain ⟨rfl, rfl⟩ := hbit
      -- the bit write is acknowledged, so everything hangs on the byte write
      rw [agrees_of_acknowledged, plainStore_iff_of_run hw]
      by_cases ha : WriteAccepted (cvs s) a m
      · rw [and_iff_right ha]
        by_cases hne : a = 1
        · subst hne
          rw [execute_writeByte_primary hp ha.primary] at hbyte
          rw [primary_acknowledged_iff hw hbyte, forall_prop_of_true rfl]
        · rw [execute_writeByte_plain hp h₁ h₂ hne ha, writeCv_bind_of_ok hw, Proc.run_pure,
            Prod.mk.injEq] at hbyte
          obtain ⟨rfl, rfl⟩ := hbyte
          exact iff_of_true ⟨rfl, Set.eqOn_refl _ _⟩ fun h => absurd h hne
      · exact iff_of_false (fun h => not_acknowledged hp hbyte ha h.1) fun h => ha h.1

end Execute

/-! ### Two confirmed packets -/

namespace Handler

variable {T S : Type} [Timer T] [Store S] [ReadableStore S]

/-- **Bit writes and byte writes.**  From one store, the confirmed bit write of
`v` to bit `b` of a CV agrees with the confirmed byte write of the merged value
if and only if the store refuses that value and stays as it is, or stores it,
`write_byte` accepts it, and for CV1 there is nothing left to clear. -/
theorem bitWrite_agrees_iff {self₁ self₁' self₂ self₂' : Handler T S} {p q : Packet}
    {r₁ r₂ : Except (Fault HandlerError) (Option Op)} {a : ℕ} {b : Fin 8} {v : Bool}
    (h₁ : 1 ≤ a) (h₂ : a ≤ CV_SIZE) (hstore : self₁.store = self₂.store)
    (hp : p.Carries (.writeByte a (setBit (cvs self₁.store a) b v)))
    (hq : q.Carries (.writeBit a b v))
    (hbyte : self₁.Confirmed p r₁ self₁') (hbit : self₂.Confirmed q r₂ self₂') :
    Agrees (cvs self₁.store) (r₁, cvs self₁'.store) (r₂, cvs self₂'.store) ↔
      PlainStore self₁.store a (setBit (cvs self₁.store a) b v) :=
  execute_agrees_iff h₁ h₂ hp hq (run_of_confirmed hbyte) (hstore ▸ run_of_confirmed hbit)

end Handler

/-! ### Over a reliable store -/

section Reliable

open ReliableStore

variable {S : Type} [Store S] [ReliableStore S] {s : S} {a : ℕ} {value : UInt8}

theorem setBit_eq_self {x : UInt8} {b : Fin 8} {v : Bool} :
    setBit x b v = x ↔ x.toNat.testBit b = v := by
  constructor
  · intro h
    rw [← h, testBit_setBit, if_pos rfl]
  · intro h
    refine eq_of_testBit fun i => ?_
    rw [testBit_setBit]
    split
    · rename_i hi
      rw [hi, h]
    · rfl

theorem nothingToClear_iff (hs : Good s) :
    NothingToClear s ↔ (cvs s 29).toNat.testBit 5 = false ∧ cvs s 19 = 0 := by
  obtain ⟨s₁, hrun₁, hgood₁, hcvs₁⟩ :=
    writeByte_run (a := 29) (cvs s 29 &&& ~~~0b00100000) hs (by decide) (by decide)
  obtain ⟨s₂, hrun₂, -, hcvs₂⟩ := writeByte_run (a := 19) 0 hgood₁ (by decide) (by decide)
  have hbit : (cvs s 29 &&& ~~~0b00100000 = cvs s 29) ↔
      (cvs s 29).toNat.testBit 5 = false := setBit_eq_self (b := 5) (v := false)
  rw [← hbit, nothingToClear_iff_of_run hrun₁ hrun₂]
  constructor
  · intro hsame
    rw [hcvs₂, hcvs₁] at hsame
    have h29 := hsame (show 29 ∈ Set.Icc 1 CV_SIZE from ⟨by decide, by decide⟩)
    have h19 := hsame (show 19 ∈ Set.Icc 1 CV_SIZE from ⟨by decide, by decide⟩)
    rw [Function.update_of_ne (by decide), Function.update_self] at h29
    rw [Function.update_self] at h19
    exact ⟨h29, h19.symm⟩
  · rintro ⟨h29, h19⟩ n -
    have h19' : cvs s₁ 19 = 0 := by rw [hcvs₁, Function.update_of_ne (by decide), h19]
    rw [hcvs₂, ← h19', Function.update_eq_self, hcvs₁, h29, Function.update_eq_self]

/-- Where no write fails, the bit write of an accepted value is right unless it
is to CV1 and the long address or a consist is active. -/
theorem plainStore_iff (hs : Good s) (h₁ : 1 ≤ a) (h₂ : a ≤ CV_SIZE) :
    PlainStore s a value ↔ WriteAccepted (cvs s) a value ∧
      (a = 1 → (cvs s 29).toNat.testBit 5 = false ∧ cvs s 19 = 0) := by
  obtain ⟨s', hrun, hgood, hcvs⟩ := writeByte_run value hs h₁ h₂
  have hclear : a = 1 → (NothingToClear s' ↔
      (cvs s 29).toNat.testBit 5 = false ∧ cvs s 19 = 0) := by
    rintro rfl
    rw [nothingToClear_iff hgood, hcvs, Function.update_of_ne (by decide),
      Function.update_of_ne (by decide)]
  rw [plainStore_iff_of_run hrun]
  exact and_congr Iff.rfl (forall_congr' hclear)

end Reliable

/-! ### Traces -/

namespace Handler

/-- Bit 1 of CV3 is set, once by itself and once with its byte. -/
theorem bitWrite_accelerationRate :
    ∃ r₁ self₁ r₂ self₂,
      programming.Confirmed (ServiceInstruction.writeByte 3 2).packet r₁ self₁ ∧
      programming.Confirmed (ServiceInstruction.writeBit 3 1 true).packet r₂ self₂ ∧
      cvs self₂.store 3 = 2 ∧
      Agrees (cvs programming.store) (r₁, cvs self₁.store) (r₂, cvs self₂.store) := by
  have hbyte : programming.Confirmed (ServiceInstruction.writeByte 3 2).packet _ _ :=
    ⟨1000, 2000, _, ⟨⟨rfl, rfl⟩, by decide⟩, rfl, ⟨rfl, rfl⟩, rfl⟩
  have hbit : programming.Confirmed (ServiceInstruction.writeBit 3 1 true).packet _ _ :=
    ⟨1000, 2000, _, ⟨⟨rfl, rfl⟩, by decide⟩, rfl, ⟨rfl, rfl⟩, rfl⟩
  refine ⟨_, _, _, _, hbyte, hbit, by decide +kernel,
    (bitWrite_agrees_iff (a := 3) (b := 1) (v := true) (by decide) (by decide) rfl
      (ServiceInstruction.carries_packet _) (ServiceInstruction.carries_packet _)
      hbyte hbit).mpr ?_⟩
  refine (plainStore_iff (fun _ => rfl) (by decide) (by decide)).mpr ⟨⟨by decide, ?_⟩, ?_⟩
  · rintro (⟨h, -⟩ | ⟨h, -⟩ | ⟨h, -⟩) <;> cases h
  · intro h
    cases h

/-- A bit write alters CV8, which is read-only, and is acknowledged; the byte
write is not. -/
theorem bitWrite_manufacturerId :
    ∃ r₁ self₁ r₂ self₂,
      programming.Confirmed (ServiceInstruction.writeByte 8 15).packet r₁ self₁ ∧
      programming.Confirmed (ServiceInstruction.writeBit 8 1 true).packet r₂ self₂ ∧
      setBit (cvs programming.store 8) 1 true = 15 ∧ r₁ = .ok none ∧
      r₂ = .ok (some .acknowledgeCv) ∧ cvs programming.store 8 = 13 ∧ cvs self₂.store 8 = 15 ∧
      ¬ Agrees (cvs programming.store) (r₁, cvs self₁.store) (r₂, cvs self₂.store) := by
  refine ⟨_, _, _, _, ⟨1000, 2000, _, ⟨⟨rfl, rfl⟩, by decide⟩, rfl, ⟨rfl, rfl⟩, rfl⟩,
    ⟨1000, 2000, _, ⟨⟨rfl, rfl⟩, by decide⟩, rfl, ⟨rfl, rfl⟩, rfl⟩, rfl, rfl, rfl, rfl,
    by decide +kernel, ?_⟩
  exact fun h => h.1 rfl

end Handler

end Rp2040
