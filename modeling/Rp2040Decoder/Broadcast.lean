/-
Broadcast packets.

`Packet::addr` reads 14 bits, and `BROADCAST_ADDRESS` has 16, so the broadcast
branch of `Handler::handle` is never taken: a packet whose first byte is the
broadcast address 0 is one for a decoder with the address 0.

* `isBroadcast_ne` — no packet is a broadcast;
* `result_of_recipient`, `result_of_not_recipient` — what the handler returns
  for a packet addressed to the decoder, and for any other;
* `broadcast_iff` — the two are the same only where the decoder's address is 0.
-/
import Rp2040Decoder.Latch

namespace Rp2040

/-! ### Addresses -/

/-- The instruction bytes are the same, whatever the addresses. -/
def SameInstruction (p q : Packet) : Prop :=
  ∃ m n, p.addressLength = .ok m ∧ q.addressLength = .ok n ∧ p.data.drop m = q.data.drop n

/-- An address has fourteen bits. -/
theorem Packet.addr_lt {packet : Packet} {a : UInt16} (h : packet.addr = .ok a) :
    a.toNat < 2 ^ 14 := by
  match hdata : packet.data with
  | d₀ :: d₁ :: rest =>
    have h₀ := d₀.toNat_lt
    have h₁ := d₁.toNat_lt
    rw [addr_cons hdata] at h
    split at h
    · rw [← Except.ok.inj h, UInt8.toNat_toUInt16]
      omega
    split at h
    · rw [← Except.ok.inj h, toNat_extendedAddress]
      omega
    · cases h
  | [d₀] =>
    have hbyte : (d₀ &&& 0b01111111).toNat < 2 ^ 8 := UInt8.toNat_lt _
    simp only [Packet.addr, isBasicAddress, index, hdata, List.getElem?_cons_zero, Proc.checked,
      bind, Except.bind, pure, Except.pure, isMfExtendedAddress, Bool.false_eq_true,
      if_false] at h
    split at h
    · rw [← Except.ok.inj h, UInt8.toNat_toUInt16]
      omega
    · cases h
  | [] =>
    simp only [Packet.addr, isBasicAddress, index, hdata, List.getElem?_nil, Proc.checked, bind,
      Except.bind] at h
    cases h

/-- No packet is addressed to `BROADCAST_ADDRESS`. -/
theorem isBroadcast_ne {ε : Type} (packet : Packet) :
    (isBroadcast packet : Except (Fault ε) Bool) ≠ .ok true := by
  intro h
  rw [isBroadcast] at h
  split at h
  · cases h
  · cases h
  · rename_i a ha
    have heq : a = BROADCAST_ADDRESS := by simpa using h
    have hlt := Packet.addr_lt ha
    rw [heq] at hlt
    exact absurd hlt (by decide)

namespace Handler

/-- The handler decodes the instruction bytes and nothing else. -/
theorem handleCommand_congr {p q : Packet} (h : SameInstruction p q) :
    handleCommand p = handleCommand q := by
  obtain ⟨m, n, hm, hn, hdata⟩ := h
  rw [handleCommand, handleCommand, OperationModeInstruction.tryFrom,
    OperationModeInstruction.tryFrom, hm, hn]
  simp only [bind, Except.bind, hdata]

theorem handleCommand_ne_none (p : Packet) : handleCommand p ≠ .ok none := by
  intro h
  rw [handleCommand] at h
  split at h <;> cases h

section OutsideServiceMode

variable {T S : Type} [Timer T] {self : Handler T S}

/-- The service-mode timer is not running, or has run out. -/
def OutsideServiceMode (self : Handler T S) (now : ℕ) : Prop :=
  ∀ elapsed, Timer.elapsedMs now self.enterServiceModeTimer = some elapsed →
    SERVICE_MODE_TIMEOUT_MS ≤ elapsed

theorem OutsideServiceMode.inServiceMode {now : ℕ} (h : self.OutsideServiceMode now)
    (packet : Packet) : self.inServiceMode now packet = .ok false := by
  rw [Handler.inServiceMode]
  split
  · rename_i elapsed helapsed
    exact if_neg (Nat.not_lt.mpr (h elapsed helapsed))
  · rfl

variable [Store S] {c : Call}

/-- A packet for the decoder is a command. -/
theorem result_of_recipient (hreset : c.packet.isReset = false)
    (houtside : self.OutsideServiceMode c.now)
    (h : (isRecipient c.packet self.store : Except (Fault HandlerError) Bool) = .ok true) :
    self.result c = handleCommand c.packet := by
  rw [result, handle, if_neg (by rw [hreset]; exact Bool.false_ne_true),
    Proc.run_read_bind (houtside.inServiceMode c.packet), if_neg Bool.false_ne_true,
    Proc.run_read_bind (f := fun self : Handler T S => isRecipient c.packet self.store) h,
    if_pos rfl, Proc.run_modify_bind, Proc.run_ofResult, mapError_id]

/-- A packet for another decoder is ignored, a broadcast like any other. -/
theorem result_of_not_recipient {a : UInt16} (hreset : c.packet.isReset = false)
    (houtside : self.OutsideServiceMode c.now) (ha : c.packet.addr = .ok a)
    (h : (isRecipient c.packet self.store : Except (Fault HandlerError) Bool) = .ok false) :
    self.result c = .ok none := by
  have hbroadcast : (isBroadcast c.packet : Except (Fault HandlerError) Bool) = .ok false := by
    have hne := isBroadcast_ne (ε := HandlerError) c.packet
    rw [isBroadcast, ha] at hne ⊢
    exact congrArg Except.ok (Bool.eq_false_iff.mpr fun hb => hne (congrArg Except.ok hb))
  rw [result, handle, if_neg (by rw [hreset]; exact Bool.false_ne_true),
    Proc.run_read_bind (houtside.inServiceMode c.packet), if_neg Bool.false_ne_true,
    Proc.run_read_bind (f := fun self : Handler T S => isRecipient c.packet self.store) h,
    if_neg Bool.false_ne_true, Proc.run_read_bind (f := fun _ => isBroadcast c.packet) hbroadcast,
    if_neg Bool.false_ne_true, Proc.run_pure]

end OutsideServiceMode

/-! ### Packets to address 0 -/

section Broadcast

variable {T S : Type} [Timer T] [Store S] {self : Handler T S} {raw : List UInt8} {p q : Packet}

/-- A packet whose first byte is 0 has one address byte, and the address 0. -/
theorem addr_of_zero (hraw : DccCodec.decode raw = .ok (some p)) (hzero : p.data.head? = some 0) :
    p.addr = .ok 0 ∧ p.addressLength = .ok 1 := by
  obtain ⟨d₀, d₁, d₂, rest, -, hdata, -⟩ := decode_cases hraw
  rw [hdata, List.head?_cons, Option.some.injEq] at hzero
  subst hzero
  rw [addr_cons hdata, addressLength_cons hdata]
  exact ⟨rfl, rfl⟩

/-- The instruction bytes of a reset packet make a packet to address 0 a reset
packet. -/
theorem isReset_eq_false (hraw : DccCodec.decode raw = .ok (some p))
    (hzero : p.data.head? = some 0) (hreset : p.isReset = false) (hsame : SameInstruction p q) :
    q.isReset = false := by
  obtain ⟨d₀, d₁, d₂, rest, -, hdata, -⟩ := decode_cases hraw
  obtain ⟨m, n, hm, hn, hdrop⟩ := hsame
  rw [(addr_of_zero hraw hzero).2, Except.ok.injEq] at hm
  rw [Bool.eq_false_iff]
  intro hq
  rw [Packet.isReset] at hq
  split at hq
  · rename_i e₀ e₁ rest' hdata'
    rw [Bool.and_eq_true, beq_iff_eq, beq_iff_eq] at hq
    obtain ⟨rfl, rfl⟩ := hq
    rw [addressLength_cons hdata', if_pos (by decide), Except.ok.injEq] at hn
    rw [← hm, ← hn, hdata, hdata'] at hdrop
    obtain ⟨rfl, -⟩ := List.cons.inj hdrop
    rw [hdata, List.head?_cons, Option.some.injEq] at hzero
    rw [Packet.isReset, hdata, hzero] at hreset
    exact Bool.noConfusion hreset
  · cases hq

/-- The decoder of a packet has an address. -/
theorem addr_of_isRecipient {ε : Type} {packet : Packet} {store : S}
    (h : (isRecipient packet store : Except (Fault ε) Bool) = .ok true) :
    ∃ b, Store.addr store = .ok b := by
  rw [isRecipient] at h
  split at h
  · cases h
  · cases h
  · split at h
    · cases h
    · cases h
    · rename_i b hb
      exact ⟨b, hb⟩

theorem isRecipient_of_addr {ε : Type} {packet : Packet} {store : S} {a b : UInt16}
    (ha : packet.addr = .ok a) (hb : Store.addr store = .ok b) :
    (isRecipient packet store : Except (Fault ε) Bool) = .ok (a == b) := by
  rw [isRecipient, ha, hb]

/-- **Broadcasts.**  A decoded packet to the broadcast address 0 that is no
reset packet is answered as the same instruction for the decoder is if and
only if the decoder's address is 0. -/
theorem broadcast_iff {now : ℕ} (houtside : self.OutsideServiceMode now)
    (hraw : DccCodec.decode raw = .ok (some p)) (hzero : p.data.head? = some 0)
    (hreset : p.isReset = false) (hsame : SameInstruction p q)
    (hq : (isRecipient q self.store : Except (Fault HandlerError) Bool) = .ok true) :
    self.result ⟨now, p⟩ = self.result ⟨now, q⟩ ↔ Store.addr self.store = .ok 0 := by
  obtain ⟨haddr, -⟩ := addr_of_zero hraw hzero
  have hresult : self.result ⟨now, q⟩ = handleCommand p :=
    (result_of_recipient (isReset_eq_false hraw hzero hreset hsame) houtside hq).trans
      (handleCommand_congr hsame).symm
  obtain ⟨b, hb⟩ := addr_of_isRecipient hq
  have hp : (isRecipient p self.store : Except (Fault HandlerError) Bool) = .ok (0 == b) :=
    isRecipient_of_addr haddr hb
  rw [hresult, hb, Except.ok.injEq]
  by_cases hb₀ : b = 0
  · rw [hb₀, beq_self_eq_true] at hp
    exact iff_of_true (result_of_recipient (c := ⟨now, p⟩) hreset houtside hp) hb₀
  · rw [beq_eq_false_iff_ne.mpr (Ne.symm hb₀)] at hp
    rw [result_of_not_recipient (c := ⟨now, p⟩) hreset houtside haddr hp]
    exact iff_of_false (handleCommand_ne_none p).symm hb₀

/-! ### Traces -/

/-- The emergency stop to all decoders. -/
def broadcastStop : Packet := ⟨[0, 0x3F, 0x81], by decide⟩

/-- All CVs are 0, and the address is. -/
def addressZero : Flash .release := Flash.new ⟨fun _ => 0, fun _ => none, 0⟩

/-- A decoder with the address 0 stops, as for its long address 0. -/
theorem broadcast_stops_zero :
    (Handler.new (⟨none⟩ : InstantTimer) addressZero).result ⟨0, broadcastStop⟩ =
      (Handler.new (⟨none⟩ : InstantTimer) addressZero).result
        ⟨0, ⟨[192, 0, 0x3F, 0x81], by decide⟩⟩ := by
  have hraw : DccCodec.decode [0, 0x3F, 0x81, 0xBE] = .ok (some broadcastStop) := by decide
  refine (broadcast_iff ?_ hraw rfl (by decide) ?_ (by decide)).mpr (by decide)
  · intro elapsed h
    cases h
  · exact ⟨1, 2, by decide, by decide, rfl⟩

/-- A decoder with the address 3 ignores it. -/
theorem broadcast_lost :
    DccCodec.decode [0, 0x3F, 0x81, 0xBE] = .ok (some broadcastStop) ∧
      startup.result ⟨0, broadcastStop⟩ = .ok none ∧
      startup.result ⟨0, ⟨[3, 0x3F, 0x81], by decide⟩⟩ =
        .ok (some (.velocity128 (speedStepControl 0x81))) :=
  ⟨by decide, by decide, by decide⟩

end Broadcast

end Handler

end Rp2040
