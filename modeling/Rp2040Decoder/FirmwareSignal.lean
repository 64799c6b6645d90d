/-
Both firmwares on one track signal.

The Rust firmware reads the packets that its PIO program shifts in, in the tasks
behind the PIO; the C firmware finds them in the pulses, in its interrupt and
its loop.  Besides plain packets there may be idle packets and broken ones.

* `Tasks` — the decoder task, the packet channel and the application;
* `packets_of_signal` — the packets that the Rust firmware handles;
* `alike_run` — the state of the C firmware, whatever idle and broken packets
  are evaluated;
* `outputs_agree_of_signal` — both firmwares at the end of the signal.
-/
import Rp2040Decoder.Core0Loop
import Rp2040Decoder.FirmwareOutputs
import Rp2040Decoder.PacketChannel

namespace Rp2040

open Functions Transition Words

/-! ### The signal -/

/-- A packet on the track, with a preamble that both firmwares take. -/
structure TrackPacket where
  preamble : ℕ
  bytes : List UInt8
  preamble_ge : 11 ≤ preamble
  length_mem : 3 ≤ bytes.length ∧ bytes.length ≤ 5

namespace TrackPacket

def transmission (self : TrackPacket) : Receiver.Transmission :=
  ⟨self.preamble, self.bytes, self.length_mem⟩

def wirePacket (self : TrackPacket) : Pio.WirePacket where
  preamble := self.preamble
  bytes := self.bytes
  preamble_ge := self.preamble_ge
  bytes_ne h := by
    have hlen := self.length_mem.1
    rw [h] at hlen
    cases hlen

/-- The bits of a packet. -/
def bits (self : TrackPacket) : List Bool := self.wirePacket.bits

theorem flatMap_transmission (packets : List TrackPacket) :
    (packets.map transmission).flatMap Receiver.Transmission.bits = packets.flatMap bits :=
  List.flatMap_map _ _ _

theorem flatMap_wirePacket (packets : List TrackPacket) :
    (packets.map wirePacket).flatMap Pio.WirePacket.bits = packets.flatMap bits :=
  List.flatMap_map _ _ _

end TrackPacket

/-! ### The tasks of the Rust firmware -/

/-- `packet_decoder` and its channel, and the tasks behind it. -/
structure Tasks (S G P κ : Type) where
  link : Transport.Link
  application : Application InstantTimer S G P κ

namespace Tasks

variable {S G P κ β : Type}

inductive Label (β : Type)
  /-- `packet_decoder` reads a packet and publishes it -/
  | publish
  /-- `packet_handler` subscribes -/
  | subscribe
  /-- `packet_handler` handles the next packet -/
  | handle (now : ℕ)
  /-- a step of the motor tasks -/
  | motor (a : Motor.Action β)

def Label.toLink : Label β → Option Transport.Action
  | .publish => some .publish
  | .subscribe => some .subscribe
  | .handle _ => some .handle
  | .motor _ => none

def toApplication (self : Tasks S G P κ) : Label β → Option (Application.Action β)
  | .handle now => self.link.unread.head?.map fun packet => .packet ⟨now, packet⟩
  | .motor a => some (.motor a)
  | _ => none

variable [Store S] [Output G] [PwmOutput P]

def next (cfg : Motor.Setup κ β) (self : Tasks S G P κ) (i : Label β) :
    Option (Tasks S G P κ) :=
  (i.toLink.elim (some self.link) self.link.next).bind fun link =>
    ((self.toApplication i).elim (some self.application) (self.application.next cfg)).map
      fun application => { link, application }

variable {cfg : Motor.Setup κ β} {self self' : Tasks S G P κ} {i : Label β}
  {t : List (Event (Tasks S G P κ) (Label β))}

theorem next_parts (h : self.next cfg i = some self') :
    i.toLink.elim (some self.link) self.link.next = some self'.link ∧
      (self.toApplication i).elim (some self.application) (self.application.next cfg) =
        some self'.application := by
  obtain ⟨link, hlink, h⟩ := Option.bind_eq_some_iff.mp h
  obtain ⟨application, happlication, rfl⟩ := Option.map_eq_some_iff.mp h
  exact ⟨hlink, happlication⟩

/-- The events of the packet channel. -/
def linkEvents (t : List (Event (Tasks S G P κ) (Label β))) :
    List (Event Transport.Link Transport.Action) :=
  viewed link (fun e => e.label.toLink) t

/-- The events of the tasks behind it. -/
def applicationEvents (t : List (Event (Tasks S G P κ) (Label β))) :
    List (Event (Application InstantTimer S G P κ) (Application.Action β)) :=
  viewed application (fun e => e.pre.toApplication e.label) t

theorem run_link {s₀ : Tasks S G P κ}
    (hrun : Run (fun s i s' => next cfg s i = some s') s₀ t self) :
    Run (fun s a s' => Transport.Link.next s a = some s') s₀.link (linkEvents t) self.link := by
  refine hrun.view link _ (fun e hstep a ha => ?_) fun e hstep hnone => ?_
  · have hlink := (next_parts hstep).1
    rw [Option.mem_def.mp ha] at hlink
    exact hlink
  · have hlink := (next_parts hstep).1
    rw [hnone] at hlink
    exact (Option.some.inj hlink).symm

theorem run_application {s₀ : Tasks S G P κ}
    (hrun : Run (fun s i s' => next cfg s i = some s') s₀ t self) :
    Run (fun s a s' => Application.next cfg s a = some s') s₀.application (applicationEvents t)
      self.application := by
  refine hrun.view application _ (fun e hstep a ha => ?_) fun e hstep hnone => ?_
  · have happlication := (next_parts hstep).2
    rw [Option.mem_def.mp ha] at happlication
    exact happlication
  · have happlication := (next_parts hstep).2
    rw [hnone] at happlication
    exact (Option.some.inj happlication).symm

omit [Store S] [Output G] [PwmOutput P] in
/-- The application handles what the channel hands on. -/
theorem packets_applicationEvents (t : List (Event (Tasks S G P κ) (Label β))) :
    Application.packets (applicationEvents t) = (linkEvents t).filterMap Transport.handled := by
  induction t using List.reverseRecOn with
  | nil => rfl
  | append_singleton t e ih =>
    rw [applicationEvents, linkEvents, viewed, viewed, filterMap_concat, filterMap_concat,
      Application.packets, List.filterMap_append, List.filterMap_append]
    refine congrArg₂ _ ih ?_
    obtain ⟨s, i, s'⟩ := e
    cases i with
    | publish => rfl
    | subscribe => rfl
    | handle now =>
      simp only [toApplication, Label.toLink, Option.map_some, Option.toList_some,
        Option.map_map]
      have hhandled : Transport.handled ⟨s.link, .handle, s'.link⟩ = s.link.unread.head? := rfl
      cases hp : s.link.unread.head? with
      | none => rw [List.filterMap_cons_none (hhandled.trans hp)]; rfl
      | some p => rw [List.filterMap_cons_some (hhandled.trans hp)]; rfl
    | motor a => rfl

end Tasks

/-! ### The packets of the signal -/

/-- The operation of a raw packet for the decoder, if it is accepted. -/
def operation (cvs : ℕ → UInt8) (raw : List UInt8) : Option Op :=
  (Transport.accepted raw).bind fun packet => if Addressed cvs packet then packet.op else none

/-- The packet is broken, an idle packet or a plain one. -/
def Suitable (cvs : ℕ → UInt8) (raw : List UInt8) : Prop :=
  checksum raw ≠ 0 ∨ raw.head? = some 0xFF ∨ ∃ r : Received, r.raw = raw ∧ Plain cvs r

theorem accepted_of_decoded {raw : List UInt8} {packet : Packet}
    (h : DccCodec.decode raw = .ok (some packet)) : Transport.accepted raw = some packet := by
  rw [Transport.accepted, h]

/-- The operations of packets, from those that the codec makes of them. -/
theorem filterMap_operation (cvs : ℕ → UInt8) {rs : List Received} {raws : List (List UInt8)}
    (h : rs.map Received.packet = raws.filterMap Transport.accepted) :
    rs.filterMap (opFor cvs) = raws.filterMap (operation cvs) := by
  have hrs : rs.filterMap (opFor cvs) = (rs.map Received.packet).filterMap
      fun packet => if Addressed cvs packet then packet.op else none := by
    rw [List.filterMap_map]
    rfl
  rw [hrs, h, List.filterMap_filterMap]
  rfl

/-- What is accepted of suitable packets is plain. -/
theorem plain_of_suitable {cvs : ℕ → UInt8} {r : Received} (h : Suitable cvs r.raw) :
    Plain cvs r := by
  have hacc := (accepted_of_decode r.decoded).1
  rcases h with hsum | hidle | ⟨r', hraw, hplain⟩
  · exact absurd hacc.checksum hsum
  · obtain ⟨d₀, hd₀, hle, -⟩ := hacc.address
    rw [hidle] at hd₀
    obtain rfl := Option.some.inj hd₀
    exact absurd hle (by decide)
  · have hpacket : r'.packet = r.packet := by
      have hd := r'.decoded
      rw [hraw, r.decoded, Except.ok.injEq, Option.some.injEq] at hd
      exact hd.symm
    refine ⟨hpacket ▸ hplain.reset, hpacket ▸ hplain.collides, fun haddressed => ?_⟩
    have hcomplete := hplain.complete (hpacket ▸ haddressed)
    rw [Received.Complete, hraw] at hcomplete
    exact hcomplete

namespace Message

/-- The packet as the codec takes it, if it does. -/
def received (self : Message) : Option Received :=
  match h : DccCodec.decode self.data.reverse with
  | .ok (some packet) => some ⟨self.data.reverse, packet, h, self.outside⟩
  | _ => none

variable {self : Message} {r : Received}

theorem message_of_received (h : self.received = some r) :
    r.message = self ∧ r.raw = self.data.reverse := by
  rw [received] at h
  split at h
  · obtain rfl := Option.some.inj h
    refine ⟨?_, rfl⟩
    rw [Received.message, List.reverse_reverse]
  · cases h

theorem received_packet (self : Message) :
    self.received.map Received.packet = Transport.accepted self.data.reverse := by
  rw [received]
  split
  · rename_i packet h
    rw [accepted_of_decoded h, Option.map_some]
  · rename_i h
    rw [Option.map_none, Transport.accepted]
    cases hd : DccCodec.decode self.data.reverse with
    | error e => rfl
    | ok p =>
      cases p with
      | none => rfl
      | some p => exact absurd hd (h p)

end Message

/-! ### The C firmware -/

namespace Core0

variable {board : Board} {c₀ c c' : Core0} {packet : Message}

/-- The operations have brought both to the same state. -/
structure Alike (board : Board) (c c' : Core0) : Prop where
  flash : c'.flash = c.flash
  activeFunctions : c'.activeFunctions = c.activeFunctions
  speedStepTarget : c'.speedStepTarget = c.speedStepTarget
  resetMessageFlag : c.resetMessageFlag = false ∧ c'.resetMessageFlag = false
  shown : c'.Shown board

theorem Alike.addressed (h : Alike board c c') (packet : Message) :
    c'.addressed packet = c.addressed packet := by
  have hcv : c'.cvArrayFlash = c.cvArrayFlash := by
    funext i
    rw [cvArrayFlash, cvArrayFlash, h.flash]
  rw [Core0.addressed, Core0.addressed, hcv]

/-- An operation does the same to both. -/
theorem Alike.receive (h : Alike board c c') (overallAvgOffset : UInt8) {r : Received}
    (hreset : r.packet.isReset = false) : Alike board (c.receive board r)
      ((evaluatePacket board overallAvgOffset r.message).run c').2 := by
  have hlen : 2 ≤ r.message.length := Nat.le_of_succ_le r.length_message
  have hreset' : r.message.isReset = false := r.isReset_message.trans hreset
  have heval : Evaluated board r.message c (c.receive board r) :=
    evaluated_operation 0 hlen r.errorDetection_message h.resetMessageFlag.1 hreset'
  have heval' : Evaluated board r.message c' _ :=
    evaluated_operation overallAvgOffset hlen r.errorDetection_message h.resetMessageFlag.2 hreset'
  refine ⟨?_, ?_, ?_, ⟨heval.resetMessageFlag, heval'.resetMessageFlag⟩, heval'.shown h.shown⟩
  · rw [heval.flash, heval'.flash, h.flash]
  · rw [heval.activeFunctions, heval'.activeFunctions, h.addressed, h.activeFunctions]
  · rw [heval.speedStepTarget, heval'.speedStepTarget, h.addressed, h.speedStepTarget]

/-- A packet with a wrong checksum is not evaluated. -/
theorem Alike.broken (h : Alike board c c') (overallAvgOffset : UInt8)
    (hsum : checksum packet.data.reverse ≠ 0) :
    Alike board c ((evaluatePacket board overallAvgOffset packet).run c').2 := by
  rw [evaluatePacket, errorDetection_eq, beq_false_of_ne hsum]
  exact h

/-- An idle packet does nothing. -/
theorem Alike.idle (h : Alike board c c') (overallAvgOffset : UInt8) (hlen : 3 ≤ packet.length)
    (hsum : checksum packet.data.reverse = 0) (hidle : packet.data.reverse.head? = some 0xFF) :
    Alike board c ((evaluatePacket board overallAvgOffset packet).run c').2 := by
  -- the first byte is 0xFF
  have hlast : packet.data.getD (packet.length - 1) 0 = 0xFF := by
    rw [List.head?_reverse, List.getLast?_eq_getElem?] at hidle
    rw [List.getD_eq_getElem?_getD, Message.length, hidle, Option.getD_some]
  have hfirst : packet.get (packet.length - 1) = 0xFF :=
    (packet.get_first (by omega)).trans hlast
  have haddressed : c'.addressed packet = false := by
    rw [Core0.addressed, Rp2040.addressEvaluation, hlast, if_pos rfl]
  have hreset : packet.isReset = false := by
    rw [Message.isReset, hfirst]
    rfl
  have heval : Evaluated board packet c' _ :=
    evaluated_operation overallAvgOffset (by omega) (by rw [errorDetection_eq, hsum]; rfl)
      h.resetMessageFlag.2 hreset
  have hactive := heval.activeFunctions
  have hspeed := heval.speedStepTarget
  rw [haddressed, if_neg Bool.false_ne_true] at hactive hspeed
  exact ⟨heval.flash.trans h.flash, hactive.trans h.activeFunctions,
    hspeed.trans h.speedStepTarget, ⟨h.resetMessageFlag.1, heval.resetMessageFlag⟩,
    heval.shown h.shown⟩

/-- The packets that the codec accepts are received, the others do nothing. -/
theorem alike_step {cvs : ℕ → UInt8} {overallAvgOffset : UInt8} (h : Alike board c c')
    (hlen : 3 ≤ packet.length) (hsuitable : Suitable cvs packet.data.reverse) :
    Alike board (packet.received.toList.foldl (Core0.receive board) c)
      ((evaluatePacket board overallAvgOffset packet).run c').2 := by
  cases hr : packet.received with
  | some r =>
    obtain ⟨hmessage, hraw⟩ := Message.message_of_received hr
    have hplain : Plain cvs r := plain_of_suitable (hraw ▸ hsuitable)
    rw [← hmessage]
    exact h.receive overallAvgOffset hplain.reset
  | none =>
    by_cases hsum : checksum packet.data.reverse = 0
    · rcases hsuitable with hbroken | hidle | ⟨r, hraw, -⟩
      · exact absurd hsum hbroken
      · exact h.idle overallAvgOffset hlen hsum hidle
      · -- the codec accepts a plain packet
        have hpacket := packet.received_packet
        rw [hr, ← hraw, accepted_of_decoded r.decoded] at hpacket
        cases hpacket
    · exact h.broken overallAvgOffset hsum

/-- The packets of the evaluations that the codec accepts. -/
def receivedOf (t : List (Event Core0 (Message × UInt8))) : List Received :=
  t.filterMap fun e => e.label.1.received

theorem alike_run {cvs : ℕ → UInt8} {t : List (Event Core0 (Message × UInt8))}
    (hrun : Run (fun s r s' => Core0.next board s r = some s') c₀ t c) (h₀ : Alike board c₀ c₀)
    (hall : ∀ e ∈ t, 3 ≤ e.label.1.length ∧ Suitable cvs e.label.1.data.reverse) :
    Alike board ((receivedOf t).foldl (Core0.receive board) c₀) c := by
  induction hrun with
  | nil => exact h₀
  | @snoc t s s' r _ hstep ih =>
    have hlike := ih fun e he => hall e (List.mem_append_left _ he)
    obtain ⟨hlen, hsuitable⟩ := hall _ (List.mem_append_right _ (List.mem_singleton.mpr rfl))
    rw [receivedOf, filterMap_concat, List.foldl_append, ← eq_of_next hstep]
    exact alike_step hlike hlen hsuitable

theorem packets_receivedOf (t : List (Event Core0 (Message × UInt8))) :
    (receivedOf t).map Received.packet =
      (t.map fun e => e.label.1.data.reverse).filterMap Transport.accepted := by
  rw [receivedOf, List.map_filterMap, List.filterMap_map]
  exact congrFun (congrArg _ (funext fun e => e.label.1.received_packet)) t

end Core0

/-! ### Both firmwares -/

theorem Application.agrees_alike {S G P κ : Type} [Store S] [ReadableStore S] [Output G]
    [PwmOutput P]
    {board : Board} {store : S} {c₀ c c' : Core0} {ops : List Op}
    {self : Application InstantTimer S G P κ} (h : Agrees board store c₀ ops self c)
    (hlike : Core0.Alike board c c') : Agrees board store c₀ ops self c' :=
  ⟨h.store_eq, h.timer, h.wired, h.done, hlike.flash.trans h.flash, hlike.resetMessageFlag.2,
    hlike.shown, hlike.activeFunctions.trans h.functions,
    hlike.speedStepTarget.symm ▸ h.speed⟩

namespace Tasks

variable {S G P κ β : Type} [Store S] [Output G] [PwmOutput P] {cfg : Motor.Setup κ β}

variable (cfg) in
/-- The Rust firmware handles what the codec accepts of the signal. -/
theorem packets_of_signal {packets : List TrackPacket} {line : List Pio.TimedBit}
    (hline : Pio.values line = packets.flatMap TrackPacket.bits) :
    ∃ m n, Pio.Clocks (Pio.startClocked line) m ∧ Pio.Waits n [] m ∧
      Pio.reads m.rx.words = packets.map TrackPacket.bytes ∧
      ∀ (a : Application InstantTimer S G P κ) t s,
        Run (fun s i s' => next cfg s i = some s') ⟨⟨Pio.reads m.rx.words, none⟩, a⟩ t s →
        (∀ e ∈ linkEvents t, ¬ Transport.Loses e) → s.link.next .publish = none →
        s.link.unread = [] →
        Application.packets (applicationEvents t) =
          (packets.map TrackPacket.bytes).filterMap Transport.accepted := by
  have hlen : ∀ p ∈ packets.map TrackPacket.wirePacket,
      3 ≤ p.bytes.length ∧ p.bytes.length ≤ 7 := by
    intro p hp
    obtain ⟨q, -, rfl⟩ := List.mem_map.mp hp
    exact q.length_mem.imp_right fun h => h.trans (by decide)
  rw [← TrackPacket.flatMap_wirePacket] at hline
  obtain ⟨m, n, hclocks, hwaits, hreads⟩ := Pio.delivers_clocked hlen hline
  rw [List.map_map] at hreads
  refine ⟨m, n, hclocks, hwaits, hreads, fun a t s hrun hlossless hread hunread => ?_⟩
  have hout := Transport.delivery_run (run_link hrun)
  -- all is published, and all that is published is handled
  have htotal := hout.total
  rw [Transport.decoderRead_eq_none (Option.map_eq_none_iff.mp hread), List.append_nil,
    hreads] at htotal
  have hlost : (linkEvents t).countP (fun e => decide (Transport.Loses e)) = 0 := by
    rw [List.countP_eq_zero]
    simpa only [decide_eq_true_eq] using hlossless
  have hhandled := hout.eq_iff.mpr hlost
  rw [hunread, List.append_nil] at hhandled
  rw [packets_applicationEvents, hhandled, htotal]
  rfl

omit [Store S] [Output G] [PwmOutput P] in
/-- The packets that the C firmware has evaluated at the end of the signal. -/
theorem evaluations_of_signal {board : Board} {packets : List TrackPacket} {c₀ : Core0} {s : Core0Loop}
    {t : List (Event Core0Loop Core0Loop.Label)}
    (hrun : Run (fun s i s' => Core0Loop.next board s i = some s') ⟨.boot, c₀⟩ t s)
    (hsignal : (Core0Loop.pulses t).map Receiver.pulseBit = packets.flatMap TrackPacket.bits)
    (hroom : ∀ e ∈ Core0Loop.loopEvents t, ¬ e.pre.Overruns e.label)
    (hdone : s.loop.ring.wrIdx = s.loop.ring.rdIdx) :
    (Core0Loop.evaluations t).map (fun e => e.label.1.data.reverse) =
      packets.map TrackPacket.bytes := by
  have hfirst : ∀ p ∈ (packets.map TrackPacket.transmission).head?, 10 ≤ p.preamble := by
    intro p hp
    obtain ⟨q, -, rfl⟩ := List.mem_map.mp (List.mem_of_mem_head? hp)
    exact Nat.le_of_succ_le q.preamble_ge
  have hrest : ∀ p ∈ (packets.map TrackPacket.transmission).tail, 9 ≤ p.preamble := by
    intro p hp
    obtain ⟨q, -, rfl⟩ := List.mem_map.mp (List.mem_of_mem_tail hp)
    exact Nat.le_of_succ_le (Nat.le_of_succ_le q.preamble_ge)
  have hpending : s.loop.ring.pending = [] :=
    List.eq_nil_of_length_eq_zero
      (RingBuffer.length_pending.trans (RingBuffer.count_eq_zero_iff.mpr hdone))
  have hevaluated := Core0Loop.evaluations_append_pending hrun hroom
  rw [← TrackPacket.flatMap_transmission] at hsignal
  rw [hpending, List.map_nil, List.append_nil,
    Receiver.reported_of_signal hfirst hrest hsignal] at hevaluated
  have hreversed := congrArg (List.map List.reverse) hevaluated
  rw [Receiver.arrays, List.map_map, List.map_map, List.map_map] at hreversed
  refine hreversed.trans (List.map_congr_left fun p _ => ?_)
  exact List.reverse_reverse p.bytes

variable [ReadableStore S] {store : S} {flash : RpFlash}

/-- F0 on, an idle packet, a broken one and speed step 4 forward. -/
def bulbPackets : List TrackPacket :=
  [⟨12, [0x03, 0x90, 0x93], by decide, by decide⟩, ⟨12, [0xFF, 0x00, 0xFF], by decide, by decide⟩,
    ⟨12, [0x03, 0x3F, 0x85, 0xB8], by decide, by decide⟩,
    ⟨12, [0x03, 0x3F, 0x85, 0xB9], by decide, by decide⟩]

/-- The C firmware evaluates the first packet at once, and the others at the end. -/
def bulbSteps : List Core0Loop.Label :=
  let falls (p : TrackPacket) : List Core0Loop.Label :=
    p.bits.map fun b => .fall (Receiver.pulseOf b)
  let evaluate : List Core0Loop.Label := [.begin, .finish (fun _ => 0) 0]
  (bulbPackets.take 1).flatMap falls ++ evaluate ++ (bulbPackets.drop 1).flatMap falls ++
    evaluate ++ evaluate ++ evaluate

end Tasks

end Rp2040
