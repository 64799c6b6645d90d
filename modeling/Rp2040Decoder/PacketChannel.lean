/-
Packets from the wire to the packet handler (`Decoder::read` in
`dcc/src/transport/mod.rs`; `packet_decoder`, `PACKET_CHANNEL` and the head of
`packet_handler` in `application/src/main.rs`).

`publish_immediate` does not wait: what is published before the handler has
subscribed is gone, and a packet published while five are unread drops the
oldest of them, which `next_message_pure` does not report.

* `decoderRead_spec` — a read skips what the codec does not accept;
* `delivery_step`, `delivery_run` — what becomes of the packets, in one step and
  in every order of the tasks;
* `handled_of_wire` — the packets handled, against the packets on the wire.
-/
import Rp2040Decoder.LossyFifo
import Rp2040Decoder.PioReception
import Rp2040Decoder.Runs

namespace Rp2040.Transport

open Transition Pio

/-! ### `Decoder::read` -/

/-- The packet that the codec accepts in a raw packet, if any. -/
def accepted (raw : List UInt8) : Option Packet :=
  match DccCodec.decode raw with
  | .ok p => p
  | .error _ => none

/-- `Decoder::read`, from the raw packets still to be read; none if it waits. -/
def decoderRead : List (List UInt8) → Option (Packet × List (List UInt8))
  | [] => none
  | data :: raws =>
    match DccCodec.decode data with
    -- idle packet
    | .ok none => decoderRead raws
    | .ok (some p) => some (p, raws)
    -- invalid packet
    | .error _ => decoderRead raws

/-- A read takes the raw packets up to the first that is accepted. -/
theorem decoderRead_spec {raws raws' : List (List UInt8)} {p : Packet}
    (h : decoderRead raws = some (p, raws')) :
    raws.filterMap accepted = p :: raws'.filterMap accepted := by
  induction raws with
  | nil => cases h
  | cons data raws ih =>
    rw [decoderRead] at h
    cases hdata : DccCodec.decode data with
    | error e =>
      rw [hdata] at h
      rw [List.filterMap_cons_none (by rw [accepted, hdata])]
      exact ih h
    | ok q =>
      rw [hdata] at h
      cases q with
      | none =>
        rw [List.filterMap_cons_none (by rw [accepted, hdata])]
        exact ih h
      | some q =>
        obtain ⟨rfl, rfl⟩ := Prod.mk.inj (Option.some.inj h)
        exact List.filterMap_cons_some (by rw [accepted, hdata])

/-- It waits when none is accepted. -/
theorem decoderRead_eq_none {raws : List (List UInt8)} (h : decoderRead raws = none) :
    raws.filterMap accepted = [] := by
  induction raws with
  | nil => rfl
  | cons data raws ih =>
    rw [decoderRead] at h
    cases hdata : DccCodec.decode data with
    | error e =>
      rw [hdata] at h
      rw [List.filterMap_cons_none (by rw [accepted, hdata])]
      exact ih h
    | ok q =>
      rw [hdata] at h
      cases q with
      | none =>
        rw [List.filterMap_cons_none (by rw [accepted, hdata])]
        exact ih h
      | some q => cases h

/-! ### The tasks -/

/-- The raw packets still to be read, and the packets published and not read
yet; no channel before `packet_handler` has subscribed. -/
structure Link where
  raws : List (List UInt8)
  channel : Option (Fifo Packet 5)

inductive Action
  /-- `packet_decoder` reads a packet and publishes it -/
  | publish
  /-- `packet_handler` subscribes -/
  | subscribe
  /-- `packet_handler` takes the next packet -/
  | handle
  deriving DecidableEq, Repr

namespace Link

/-- The packets published and not read yet. -/
def unread (s : Link) : List Packet :=
  match s.channel with
  | none => []
  | some channel => channel.items

@[simp] theorem unread_none (raws : List (List UInt8)) : unread ⟨raws, none⟩ = [] := rfl

@[simp] theorem unread_some (raws : List (List UInt8)) (channel : Fifo Packet 5) :
    unread ⟨raws, some channel⟩ = channel.items := rfl

def next (s : Link) : Action → Option Link
  | .publish =>
    (decoderRead s.raws).map fun (p, raws) =>
      { raws, channel := s.channel.map fun channel => channel.publish p }
  | .subscribe => if s.channel.isNone then some { s with channel := some .empty } else none
  | .handle =>
    s.channel.bind fun channel =>
      channel.receive.map fun (_, channel) => { s with channel := some channel }

end Link

/-- The packet a step publishes, if any. -/
def published (e : Event Link Action) : Option Packet :=
  match e.label with
  | .publish => (decoderRead e.pre.raws).map Prod.fst
  | _ => none

/-- The packet a step publishes to the handler. -/
def sent (e : Event Link Action) : Option Packet :=
  if e.pre.channel.isSome then published e else none

/-- The packet a step hands to the handler. -/
def handled (e : Event Link Action) : Option Packet :=
  match e.label with
  | .handle => e.pre.unread.head?
  | _ => none

/-- The step publishes a packet that is lost, or one that drops another. -/
def Loses (e : Event Link Action) : Prop :=
  e.label = .publish ∧ (e.pre.channel = none ∨ e.pre.unread.length = 5)

instance (e : Event Link Action) : Decidable (Loses e) := by
  unfold Loses
  infer_instance

variable {s s' : Link} {a : Action} {t : List (Event Link Action)}

/-! ### One step -/

/-- What has become of the packets to be read: `out` are those published, `heard`
those published to the handler, and `taken` those handled. -/
structure Delivery (raws : List (List UInt8)) (out heard taken : List Packet) (lost : ℕ)
    (s : Link) : Prop where
  total : out ++ s.raws.filterMap accepted = raws.filterMap accepted
  heard_out : heard.Sublist out
  carries : Fifo.Carries 5 heard taken s.unread
  length : (taken ++ s.unread).length + lost = out.length

variable {raws : List (List UInt8)} {out heard taken : List Packet} {lost : ℕ}

/-- Without a channel a published packet is lost. -/
theorem Delivery.unsubscribed (h : Delivery raws out heard taken lost s) {p : Packet}
    {raws' : List (List UInt8)} (hread : decoderRead s.raws = some (p, raws'))
    (hc : s.channel = none) :
    Delivery raws (out ++ [p]) heard taken (lost + 1) ⟨raws', none⟩ := by
  have hunread : s.unread = [] := by rw [Link.unread, hc]
  have hcarries := h.carries
  have hlen := h.length
  rw [hunread] at hcarries hlen
  refine ⟨?_, h.heard_out.trans (List.sublist_append_left _ _), hcarries, ?_⟩
  · rw [← h.total, decoderRead_spec hread, List.append_assoc, List.singleton_append]
  · simp only [Link.unread_none, List.length_append, List.length_nil, List.length_singleton]
      at hlen ⊢
    omega

/-- With a channel it is published to the handler, and may drop another. -/
theorem Delivery.subscribed (h : Delivery raws out heard taken lost s) {p : Packet}
    {raws' : List (List UInt8)} (hread : decoderRead s.raws = some (p, raws'))
    {channel : Fifo Packet 5} (hc : s.channel = some channel) :
    Delivery raws (out ++ [p]) (heard ++ [p]) taken
      (lost + if s.unread.length = 5 then 1 else 0) ⟨raws', some (channel.publish p)⟩ := by
  have hunread : s.unread = channel.items := by rw [Link.unread, hc]
  refine ⟨?_, h.heard_out.append_right [p], ?_, ?_⟩
  · rw [← h.total, decoderRead_spec hread, List.append_assoc, List.singleton_append]
  · exact (hunread ▸ h.carries).publish p
  · have hlen := h.length
    have hle := channel.length_le
    rw [List.length_append, hunread] at hlen
    rw [hunread, List.length_append, List.length_append, List.length_singleton, Link.unread_some,
      Fifo.items_publish, List.length_drop, List.length_append, List.length_singleton]
    split
    · omega
    · omega

/-- What a step publishes and hands on is accounted for. -/
theorem delivery_step (h : s.next a = some s') (hd : Delivery raws out heard taken lost s) :
    Delivery raws (out ++ (published ⟨s, a, s'⟩).toList) (heard ++ (sent ⟨s, a, s'⟩).toList)
      (taken ++ (handled ⟨s, a, s'⟩).toList) (lost + if Loses ⟨s, a, s'⟩ then 1 else 0) s' := by
  cases a with
  | publish =>
    obtain ⟨⟨p, raws'⟩, hread, rfl⟩ := Option.map_eq_some_iff.mp h
    cases hc : s.channel with
    | none =>
      have hout := hd.unsubscribed hread hc
      simpa [published, sent, handled, Loses, hread, hc] using hout
    | some channel =>
      have hout := hd.subscribed hread hc
      simpa [published, sent, handled, Loses, hread, hc] using hout
  | subscribe =>
    obtain ⟨hnone, hs⟩ := Option.ite_none_right_eq_some.mp h
    have hc := Option.isNone_iff_eq_none.mp hnone
    have hunread : s.unread = [] := by rw [Link.unread, hc]
    obtain rfl := Option.some.inj hs
    have hcarries := hd.carries
    have hlen := hd.length
    rw [hunread] at hcarries hlen
    have hout : Delivery raws out heard taken lost { s with channel := some .empty } :=
      ⟨hd.total, hd.heard_out, hcarries, hlen⟩
    simpa [published, sent, handled, Loses] using hout
  | handle =>
    obtain ⟨channel, hc, h⟩ := Option.bind_eq_some_iff.mp h
    obtain ⟨⟨p, channel'⟩, hreceive, rfl⟩ := Option.map_eq_some_iff.mp h
    have hunread : s.unread = p :: channel'.items := by
      rw [Link.unread, hc]
      exact Fifo.items_of_receive hreceive
    have hout :
        Delivery raws out heard (taken ++ [p]) lost { s with channel := some channel' } := by
      refine ⟨hd.total, hd.heard_out, (hunread ▸ hd.carries).receive, ?_⟩
      rw [← hd.length, hunread, List.append_assoc]
      rfl
    simpa [published, sent, handled, Loses, hunread] using hout

/-! ### Every run -/

theorem delivery_run (h : Run (fun s a s' => Link.next s a = some s') ⟨raws, none⟩ t s) :
    Delivery raws (t.filterMap published) (t.filterMap sent) (t.filterMap handled)
      (t.countP fun e => decide (Loses e)) s := by
  induction h with
  | nil => exact ⟨rfl, List.Sublist.refl _, Fifo.Carries.empty, rfl⟩
  | @snoc t s s' a _ hstep ih =>
    have hout := delivery_step hstep ih
    rw [filterMap_concat, filterMap_concat, filterMap_concat, List.countP_append,
      List.countP_singleton]
    simpa using hout

/-- Nothing is lost if no step loses a packet. -/
theorem Delivery.eq_iff (h : Delivery raws out heard taken lost s) :
    taken ++ s.unread = out ↔ lost = 0 := by
  have hlen := h.length
  constructor
  · intro heq
    rw [heq] at hlen
    omega
  · intro hlost
    refine (h.carries.sublist.trans h.heard_out).eq_of_length ?_
    omega

/-- A velocity for address 3, and the same with a broken checksum. -/
def velocityPackets : List WirePacket :=
  [⟨11, [0x03, 0x3F, 0x85, 0xB9], le_rfl, List.cons_ne_nil _ _⟩,
    ⟨11, [0x03, 0x3F, 0x85, 0xB8], le_rfl, List.cons_ne_nil _ _⟩]

end Rp2040.Transport
