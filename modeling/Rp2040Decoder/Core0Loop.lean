/-
Core 0 of the C firmware on a track signal (`track_signal_fall` and the endless
loop of `main` in `Software/core0.c`).

The interrupt looks for packets in the pulses, and the loop evaluates them one
after the other; pulses may come between any two steps of the loop.

* `next` — the steps of the interrupt and of the loop;
* `run_loop`, `run_core0` — a run is one of the packet buffer, and one of
  packet evaluations;
* `sees_run`, `reported_prefix` — the packets found are those that the pulses
  report, and these are on the track;
* `evaluated_of_signal` — the packets evaluated, against those on the track.
-/
import Mathlib.Data.List.Perm.Basic
import Rp2040Decoder.Codec
import Rp2040Decoder.Core0Steps
import Rp2040Decoder.MainLoop

namespace Rp2040

open Transition

/-- The packet in its slot; `memory` is what lies around the slot. -/
def DccPacket.message (memory : ℤ → UInt8) (self : DccPacket) : Message where
  data := self.contents.getD []
  outside i :=
    if h : 0 ≤ i ∧ i.toNat < RING_BUFFER_BYTES then self.data ⟨i.toNat, h.2⟩ else memory i

/-- `evaluate_packet` on a packet and what an ADC calibration would measure;
none if the power is lost. -/
def Core0.next (board : Board) (self : Core0) (r : Message × UInt8) : Option Core0 :=
  match (evaluatePacket board r.2 r.1).run self with
  | (.ok (), self') => some self'
  | (.error _, _) => none

theorem Core0.eq_of_next {board : Board} {self self' : Core0} {r : Message × UInt8}
    (h : self.next board r = some self') :
    ((evaluatePacket board r.2 r.1).run self).2 = self' := by
  rw [Core0.next] at h
  split at h
  · rename_i hrun
    rw [hrun, Option.some.inj h]
  · cases h

/-- The checksum does not depend on the order of the bytes. -/
theorem Core0.errorDetection_eq (packet : Message) :
    errorDetection packet = (checksum packet.data.reverse == 0) := by
  rw [errorDetection, checksum, (List.reverse_perm packet.data).foldl_eq]

/-! ### What the interrupt finds -/

namespace Receiver

variable {self self' : Receiver} {t : ℤ}

theorem detectDccPacket_le {buffer : UInt64} {n : ℕ} (h : detectDccPacket buffer = some n) :
    n ≤ 5 := by
  simp only [detectDccPacket] at h
  split_ifs at h <;> cases h <;> decide

/-- A report depends on the bits received only. -/
theorem report_congr (h : self.inputBitBuffer = self'.inputBitBuffer) :
    self.report t = self'.report t := by
  cases hdetect : detectDccPacket (shiftIn self.inputBitBuffer (pulseBit t)) with
  | none => rw [report_of_none hdetect, report_of_none (h ▸ hdetect)]
  | some n =>
    have hle := detectDccPacket_le hdetect
    rw [report_of_some hle hdetect, report_of_some hle (h ▸ hdetect), h]

/-- What is found is what is reported. -/
theorem contents_found : (self.found t).map DccPacket.contents = (self.report t).map some := by
  cases hdetect : detectDccPacket (shiftIn self.inputBitBuffer (pulseBit t)) with
  | none =>
    rw [found, hdetect, report_of_none hdetect]
    rfl
  | some n =>
    have hreport := report_of_some (detectDccPacket_le hdetect) hdetect
    rw [found, hdetect, hreport, Option.map_some, Option.map_some]
    exact congrArg some hreport

/-- The packets that are reported. -/
def reported (ts : List ℤ) (self : Receiver) : List (List UInt8) := (reports ts self).filterMap id

theorem reported_append (ts ts' : List ℤ) :
    reported (ts ++ ts') self = reported ts self ++ reported ts' (receive ts self) := by
  rw [reported, reports_append, List.filterMap_append]
  rfl

/-- The bytes of the transmissions, in the order of the packet array. -/
def arrays (transmissions : List Transmission) : List (List UInt8) :=
  transmissions.map fun p => p.bytes.reverse

theorem filterMap_reports (transmissions : List Transmission) :
    (transmissions.flatMap Transmission.reports).filterMap id = arrays transmissions := by
  induction transmissions with
  | nil => rfl
  | cons p transmissions ih =>
    rw [List.flatMap_cons, List.filterMap_append, ih, Transmission.reports,
      List.filterMap_append, List.filterMap_replicate_of_none rfl]
    rfl

/-- A pulse for the bit. -/
def pulseOf (b : Bool) : ℤ := if b then 58 else 100

theorem map_pulseBit_map_pulseOf (bs : List Bool) : (bs.map pulseOf).map pulseBit = bs := by
  have hid : pulseBit ∘ pulseOf = id := funext fun b => by cases b <;> rfl
  rw [List.map_map, hid, List.map_id]

section Signal

variable {transmissions : List Transmission} {ts : List ℤ}
  (hfirst : ∀ p ∈ transmissions.head?, 10 ≤ p.preamble)
  (hrest : ∀ p ∈ transmissions.tail, 9 ≤ p.preamble)

include hfirst hrest

/-- All of the signal reports the packets on the track. -/
theorem reported_of_signal (hts : ts.map pulseBit = transmissions.flatMap Transmission.bits) :
    reported ts boot = arrays transmissions := by
  cases transmissions with
  | nil =>
    obtain rfl := List.map_eq_nil_iff.mp hts
    rfl
  | cons p transmissions =>
    obtain ⟨ts₁, ts₂, rfl, hp, htail⟩ := List.map_eq_append_iff.mp hts
    -- the first preamble is complete without an end bit before it
    have hpreamble : ∀ i < 10, ago (List.replicate p.preamble true ++ []) i = true :=
      fun i hi => ago_replicate (Nat.lt_of_lt_of_le hi (hfirst p rfl))
    obtain ⟨hreports, hist, hseen, hquiet⟩ :=
      reports_transmission p (show boot.Seen [] from tracks_zero) quiet_nil hpreamble hp
    have hall : ∀ q ∈ transmissions, 9 ≤ q.preamble := hrest
    rw [reported, reports_append, hreports, reports_further hall hseen hquiet htail,
      ← List.flatMap_cons, filterMap_reports]

/-- A part of the signal reports the first of them. -/
theorem reported_prefix (hts : ts.map pulseBit <+: transmissions.flatMap Transmission.bits) :
    reported ts boot <+: arrays transmissions := by
  obtain ⟨bs, hbs⟩ := hts
  -- the rest of the signal
  have hall : (ts ++ bs.map pulseOf).map pulseBit = transmissions.flatMap Transmission.bits := by
    rw [List.map_append, map_pulseBit_map_pulseOf, hbs]
  rw [← reported_of_signal hfirst hrest hall, reported_append]
  exact List.prefix_append _ _

end Signal

end Receiver

/-! ### The packet buffer -/

namespace MainLoop

variable {self self' : MainLoop} {i : Label} {t : List (Event MainLoop Label)}

/-- The bytes of a packet that was found. -/
def bytes (p : DccPacket) : List UInt8 := p.contents.getD []

/-- The pulse of a step. -/
def pulse (e : Event MainLoop Label) : Option ℤ :=
  match e.label with
  | .fall timeLogicalHigh => some timeLogicalHigh
  | _ => none

/-- What the interrupt has seen and found. -/
structure Sees (ts : List ℤ) (s : MainLoop) : Prop where
  inputBitBuffer : s.receiver.inputBitBuffer = (Receiver.receive ts Receiver.boot).inputBitBuffer
  detected : s.detected.map bytes = Receiver.reported ts Receiver.boot

theorem Sees.fall {ts : List ℤ} (h : Sees ts self) (time : ℤ) :
    Sees (ts ++ [time]) (self.fall time) := by
  have hreport := Receiver.report_congr (t := time) h.inputBitBuffer
  have hfound := self.receiver.contents_found (t := time)
  refine ⟨?_, ?_⟩
  · rw [Receiver.receive_append]
    show (self.receiver.trackSignalFall time).inputBitBuffer =
      (Receiver.trackSignalFall time _).inputBitBuffer
    rw [Receiver.inputBitBuffer_trackSignalFall, Receiver.inputBitBuffer_trackSignalFall,
      h.inputBitBuffer]
  · rw [Receiver.reported_append, ← h.detected]
    show (self.detected ++ _).map bytes = _ ++ [Receiver.report time _].filterMap id
    rw [List.map_append, ← hreport]
    -- the pulse completes a packet or none
    cases hf : self.receiver.found time with
    | none =>
      rw [hf, Option.map_none, eq_comm, Option.map_eq_none_iff] at hfound
      rw [hfound]
      rfl
    | some p =>
      rw [hf, Option.map_some, eq_comm] at hfound
      obtain ⟨l, hl, hcontents⟩ := Option.map_eq_some_iff.mp hfound
      rw [hl, Option.toList_some, List.map_singleton, bytes, ← hcontents]
      rfl

theorem sees_step (h : self.next i = some self') {ts : List ℤ} (hs : Sees ts self) :
    Sees (ts ++ (pulse ⟨self, i, self'⟩).toList) self' := by
  cases i with
  | fall time =>
    obtain rfl := Option.some.inj h
    exact hs.fall time
  | begin =>
    rw [next] at h
    split at h
    · obtain ⟨-, h⟩ := Option.ite_none_right_eq_some.mp h
      obtain rfl := Option.some.inj h
      rw [pulse, Option.toList_none, List.append_nil]
      exact ⟨hs.inputBitBuffer, hs.detected⟩
    · cases h
  | finish =>
    obtain ⟨p, -, rfl⟩ := Option.map_eq_some_iff.mp h
    rw [pulse, Option.toList_none, List.append_nil]
    exact ⟨hs.inputBitBuffer, hs.detected⟩

theorem sees_run (hrun : Run (fun s i s' => next s i = some s') boot t self) :
    Sees (t.filterMap pulse) self := by
  induction hrun with
  | nil => exact ⟨rfl, rfl⟩
  | @snoc t s s' i _ hstep ih =>
    rw [filterMap_concat]
    exact sees_step hstep ih

end MainLoop

/-! ### The steps -/

/-- The packet buffer, and the state that packets are evaluated in. -/
structure Core0Loop where
  loop : MainLoop
  core0 : Core0

namespace Core0Loop

inductive Label
  /-- A falling edge after a pulse of this many microseconds. -/
  | fall (timeLogicalHigh : ℤ)
  /-- `wr_idx` is not `rd_idx`: the evaluation begins. -/
  | begin
  /-- The packet is evaluated and `rd_idx` is advanced. -/
  | finish (memory : ℤ → UInt8) (overallAvgOffset : UInt8)

/-- The step as one of the packet buffer. -/
def Label.toLoop : Label → MainLoop.Label
  | .fall timeLogicalHigh => .fall timeLogicalHigh
  | .begin => .begin
  | .finish _ _ => .finish

/-- The packet that is evaluated in a step of this label, if any. -/
def evaluates (self : Core0Loop) : Label → Option (Message × UInt8)
  | .finish memory overallAvgOffset =>
    self.loop.evaluating.map fun packet => (packet.message memory, overallAvgOffset)
  | _ => none

def next (board : Board) (self : Core0Loop) (i : Label) : Option Core0Loop :=
  (self.loop.next i.toLoop).bind fun loop =>
    match self.evaluates i with
    | none => some { self with loop }
    | some r => (self.core0.next board r).map fun core0 => { loop, core0 }

variable {board : Board} {self self' : Core0Loop} {i : Label} {c₀ : Core0}
  {t : List (Event Core0Loop Label)}

/-- A step is one of the buffer, and evaluates its packet. -/
theorem next_cases (h : self.next board i = some self') :
    self.loop.next i.toLoop = some self'.loop ∧
      ((∃ r, self.evaluates i = some r ∧ self.core0.next board r = some self'.core0) ∨
        self.evaluates i = none ∧ self'.core0 = self.core0) := by
  obtain ⟨loop, hloop, h⟩ := Option.bind_eq_some_iff.mp h
  cases hr : self.evaluates i with
  | none =>
    rw [hr] at h
    obtain rfl := Option.some.inj h
    exact ⟨hloop, Or.inr ⟨rfl, rfl⟩⟩
  | some r =>
    rw [hr] at h
    obtain ⟨core0, hcore0, rfl⟩ := Option.map_eq_some_iff.mp h
    exact ⟨hloop, Or.inl ⟨r, rfl, hcore0⟩⟩

/-! ### Two views of a run -/

/-- The events of the packet buffer. -/
def loopEvents (t : List (Event Core0Loop Label)) : List (Event MainLoop MainLoop.Label) :=
  viewed loop (fun e => some e.label.toLoop) t

/-- The evaluations. -/
def evaluations (t : List (Event Core0Loop Label)) : List (Event Core0 (Message × UInt8)) :=
  viewed core0 (fun e => e.pre.evaluates e.label) t

theorem run_loop {s₀ : Core0Loop} (hrun : Run (fun s i s' => next board s i = some s') s₀ t self) :
    Run (fun s i s' => MainLoop.next s i = some s') s₀.loop (loopEvents t) self.loop := by
  refine hrun.view loop _ (fun e hstep k hk => ?_) fun e _ hnone => ?_
  · obtain rfl := Option.some.inj hk
    exact (next_cases hstep).1
  · cases hnone

theorem run_core0 {s₀ : Core0Loop} (hrun : Run (fun s i s' => next board s i = some s') s₀ t self) :
    Run (fun s r s' => Core0.next board s r = some s') s₀.core0 (evaluations t) self.core0 := by
  refine hrun.view core0 _ (fun e hstep r hr => ?_) fun e hstep hnone => ?_
  · rcases (next_cases hstep).2 with ⟨r', hr', hnext⟩ | ⟨hnone, -⟩
    · rw [hr'] at hr
      obtain rfl := Option.some.inj hr
      exact hnext
    · rw [hnone] at hr
      cases hr
  · rcases (next_cases hstep).2 with ⟨r, hr, -⟩ | ⟨-, hsame⟩
    · rw [hnone] at hr
      cases hr
    · exact hsame

/-- What a step evaluates is what it takes from the buffer. -/
theorem evaluated_step (h : self.next board i = some self') :
    self'.loop.evaluated.map MainLoop.bytes =
      self.loop.evaluated.map MainLoop.bytes ++
        ((self.evaluates i).map fun r => r.1.data).toList := by
  have hloop := (next_cases h).1
  cases i with
  | fall time =>
    obtain h := Option.some.inj hloop
    rw [← h]
    exact (List.append_nil _).symm
  | begin =>
    rw [Label.toLoop, MainLoop.next] at hloop
    split at hloop
    · obtain ⟨-, h⟩ := Option.ite_none_right_eq_some.mp hloop
      rw [← Option.some.inj h]
      exact (List.append_nil _).symm
    · cases hloop
  | finish memory overallAvgOffset =>
    obtain ⟨p, hp, h⟩ := Option.map_eq_some_iff.mp hloop
    rw [← h, evaluates, hp]
    exact List.map_append

/-- The packets evaluated are those that have left the buffer. -/
theorem evaluations_eq (hrun : Run (fun s i s' => next board s i = some s') ⟨.boot, c₀⟩ t self) :
    (evaluations t).map (fun e => e.label.1.data) = self.loop.evaluated.map MainLoop.bytes := by
  induction hrun with
  | nil => rfl
  | @snoc t s s' i _ hstep ih =>
    rw [evaluated_step hstep, ← ih, evaluations, viewed, filterMap_concat, List.map_append]
    cases s.evaluates i <;> rfl

/-! ### The signal -/

/-- The pulses of the run. -/
def pulses (t : List (Event Core0Loop Label)) : List ℤ := (loopEvents t).filterMap MainLoop.pulse

/-- While no step overruns the buffer, the packets reported are those evaluated
and those pending. -/
theorem evaluations_append_pending
    (hrun : Run (fun s i s' => next board s i = some s') ⟨.boot, c₀⟩ t self)
    (hroom : ∀ e ∈ loopEvents t, ¬ e.pre.Overruns e.label) :
    (evaluations t).map (fun e => e.label.1.data) ++ self.loop.ring.pending.map MainLoop.bytes =
      Receiver.reported (pulses t) Receiver.boot := by
  have hloop := run_loop hrun
  have hdetected : self.loop.detected.map MainLoop.bytes =
      Receiver.reported (pulses t) Receiver.boot := (MainLoop.sees_run hloop).detected
  rw [← hdetected, (MainLoop.run_consistent hloop hroom).1.inOrder, List.map_append,
    evaluations_eq hrun]

/-- **From the track to the evaluation.**  While the signal of transmissions
arrives, at any moments between the steps of the loop, and no packet is
completed with seven pending, the state of core 0 is that of an evaluation of
the first of the transmissions, one after the other and each once; and when all
of the signal has arrived, those not yet evaluated are pending in their order. -/
theorem evaluated_of_signal {transmissions : List Receiver.Transmission}
    (hfirst : ∀ p ∈ transmissions.head?, 10 ≤ p.preamble)
    (hrest : ∀ p ∈ transmissions.tail, 9 ≤ p.preamble)
    (hrun : Run (fun s i s' => next board s i = some s') ⟨.boot, c₀⟩ t self)
    (hsignal : (pulses t).map Receiver.pulseBit <+:
      transmissions.flatMap Receiver.Transmission.bits)
    (hroom : ∀ e ∈ loopEvents t, ¬ e.pre.Overruns e.label) :
    Run (fun s r s' => Core0.next board s r = some s') c₀ (evaluations t) self.core0 ∧
    (evaluations t).map (fun e => e.label.1.data) <+: Receiver.arrays transmissions ∧
    ((pulses t).map Receiver.pulseBit = transmissions.flatMap Receiver.Transmission.bits →
      (evaluations t).map (fun e => e.label.1.data) ++ self.loop.ring.pending.map MainLoop.bytes =
        Receiver.arrays transmissions) := by
  have hevaluated := evaluations_append_pending hrun hroom
  refine ⟨run_core0 hrun, ?_, fun hall => ?_⟩
  · have hinit := Receiver.reported_prefix hfirst hrest hsignal
    rw [← hevaluated] at hinit
    exact (List.prefix_append _ _).trans hinit
  · rw [hevaluated]
    exact Receiver.reported_of_signal hfirst hrest hall

/-- The pulses of a reset message, and its evaluation. -/
def resetSteps : List Label :=
  (Receiver.resetTransmission.bits.map fun b => .fall (Receiver.pulseOf b)) ++
    [.begin, .finish (fun _ => 0) 0]

/-- A reset message on the track is evaluated. -/
theorem evaluated_of_signal_reset :
    ∃ t s, Run (fun s i s' => next Core0.board₀ s i = some s') ⟨.boot, Core0.addressThree⟩ t s ∧
      (evaluations t).length = 1 ∧
      (evaluations t).map (fun e => e.label.1.data) <+: [[0, 0, 0]] := by
  obtain ⟨t, s, hexec, hone, hpulses, hroom⟩ :=
    exec_of_decide (next Core0.board₀) ⟨.boot, Core0.addressThree⟩ resetSteps
      (fun r => (evaluations r.1).length = 1 ∧
        (pulses r.1).map Receiver.pulseBit =
          [Receiver.resetTransmission].flatMap Receiver.Transmission.bits ∧
        ∀ e ∈ loopEvents r.1, ¬ e.pre.ring.Full)
      (by decide +kernel)
  have hrun := Run.of_exec (next Core0.board₀) _ hexec
  have hfirst : ∀ p ∈ [Receiver.resetTransmission].head?, 10 ≤ p.preamble := by decide
  obtain ⟨-, hinit, -⟩ :=
    evaluated_of_signal hfirst (by decide) hrun (hpulses ▸ List.prefix_rfl) fun e he hover => by
      obtain ⟨-, -, -, hfull⟩ := hover
      exact hroom e he hfull
  exact ⟨t, s, hrun, hone, hinit⟩

end Core0Loop

end Rp2040
