/-
The ring buffer between the interrupt and the main loop (`Software/core0.c`).

The interrupt may come at any moment, also many times while one packet is
evaluated.  It writes the slot at the write index on every bit, and when that
slot holds a packet it moves on to the next, whether or not the main loop has
evaluated the packet there.

* `next` — the steps of the interrupt and of the main loop;
* `Served` — what is asked of a state;
* `consistent_step`, `drains_of_consistent` — what holds while no packet is
  completed with seven pending;
* `served_iff` — over every run.
-/
import Rp2040Decoder.BitFraming
import Rp2040Decoder.Runs

namespace Rp2040

open Transition

namespace Receiver

variable {self : Receiver} {t : ℤ} {p : DccPacket}

/-- The packet that the pulse completes. -/
def found (t : ℤ) (self : Receiver) : Option DccPacket :=
  match detectDccPacket (shiftIn self.inputBitBuffer (pulseBit t)) with
  | none => none
  | some _ => some ((self.trackSignalFall t).dccRBuf.items self.dccRBuf.wrIdx)

theorem trackSignalFall_of_none (h : self.found t = none) :
    ∃ x, (self.trackSignalFall t).dccRBuf = self.dccRBuf.put x := by
  rw [found] at h
  rw [trackSignalFall]
  split at h
  · rename_i hdetect
    rw [hdetect]
    exact ⟨_, rfl⟩
  · cases h

theorem trackSignalFall_of_some (h : self.found t = some p) :
    (self.trackSignalFall t).dccRBuf = self.dccRBuf.push p := by
  rw [found] at h
  split at h
  · cases h
  · rename_i n hdetect
    obtain ⟨x, hpush⟩ : ∃ x, (self.trackSignalFall t).dccRBuf = self.dccRBuf.push x := by
      rw [trackSignalFall]
      simp only [hdetect]
      exact ⟨_, rfl⟩
    rw [hpush, RingBuffer.items_push_wrIdx, Option.some.injEq] at h
    rw [hpush, h]

end Receiver

/-- The interrupt handler, the packet in evaluation as it was found, and the
packets completed and evaluated so far. -/
structure MainLoop where
  receiver : Receiver
  evaluating : Option DccPacket
  detected : List DccPacket
  evaluated : List DccPacket

namespace MainLoop

/-- A step of the interrupt, or one of the two of the main loop. -/
inductive Label
  /-- A falling edge after a pulse of this many microseconds. -/
  | fall (timeLogicalHigh : ℤ)
  /-- `wr_idx` is not `rd_idx`: the evaluation begins. -/
  | begin
  /-- The evaluation is done and `rd_idx` is advanced. -/
  | finish

variable {self self' : MainLoop} {i : Label} {t : List (Event MainLoop Label)}

/-- `dcc_r_buf` -/
def ring (self : MainLoop) : DccRingBuffer := self.receiver.dccRBuf

def boot : MainLoop := ⟨Receiver.boot, none, [], []⟩

def fall (timeLogicalHigh : ℤ) (self : MainLoop) : MainLoop :=
  { self with
    receiver := self.receiver.trackSignalFall timeLogicalHigh
    detected := self.detected ++ (self.receiver.found timeLogicalHigh).toList }

def begin (self : MainLoop) : MainLoop :=
  { self with evaluating := some (self.ring.items self.ring.rdIdx) }

def finish (packet : DccPacket) (self : MainLoop) : MainLoop :=
  { self with
    receiver := { self.receiver with dccRBuf := self.ring.pop }
    evaluating := none
    evaluated := self.evaluated ++ [packet] }

/-- One step, if it is enabled. -/
def next (self : MainLoop) : Label → Option MainLoop
  | .fall timeLogicalHigh => some (self.fall timeLogicalHigh)
  | .begin =>
    match self.evaluating with
    | none => if self.ring.wrIdx ≠ self.ring.rdIdx then some self.begin else none
    | some _ => none
  | .finish => self.evaluating.map fun packet => self.finish packet

/-- The main loop alone evaluates all packets detected so far. -/
def Drains (self : MainLoop) : Prop :=
  ∃ t self', Run (fun s i s' => next s i = some s') self t self' ∧
    (∀ e ∈ t, e.label = .begin ∨ e.label = .finish) ∧ self'.evaluated = self.detected

/-- The packets detected are those evaluated and those pending, in this order;
the main loop evaluates the latter; and the packet it is evaluating is still the
one at the read index. -/
structure Served (s : MainLoop) : Prop where
  inOrder : s.detected = s.evaluated ++ s.ring.pending
  drains : s.Drains
  intact : ∀ p, s.evaluating = some p → s.ring.items s.ring.rdIdx = p

/-- The step completes a packet although seven are pending. -/
def Overruns (self : MainLoop) (i : Label) : Prop :=
  ∃ time, i = .fall time ∧ (self.receiver.found time).isSome = true ∧ self.ring.Full

/-- What holds as long as no step overruns the buffer. -/
structure Consistent (s : MainLoop) : Prop where
  inOrder : s.detected = s.evaluated ++ s.ring.pending
  intact : ∀ p, s.evaluating = some p →
    s.ring.items s.ring.rdIdx = p ∧ s.ring.wrIdx ≠ s.ring.rdIdx

theorem consistent_boot : Consistent boot := ⟨rfl, nofun⟩

theorem consistent_fall {time : ℤ} (h : self.Consistent)
    (hroom : ¬ self.Overruns (.fall time)) : (self.fall time).Consistent := by
  -- the packet in evaluation is not in the slot that is written
  have hput : ∀ x p, self.evaluating = some p →
      (self.ring.put x).items self.ring.rdIdx = p ∧ self.ring.wrIdx ≠ self.ring.rdIdx := by
    intro x p hp
    obtain ⟨hitem, hne⟩ := h.intact p hp
    exact ⟨(RingBuffer.items_put_of_ne hne).trans hitem, hne⟩
  cases hfound : self.receiver.found time with
  | none =>
    obtain ⟨x, hring⟩ := Receiver.trackSignalFall_of_none hfound
    have hring' : (self.fall time).ring = self.ring.put x := hring
    refine ⟨?_, fun p hp => ?_⟩
    · rw [hring', RingBuffer.pending_put, fall, hfound, Option.toList_none, List.append_nil]
      exact h.inOrder
    · rw [hring']
      exact hput x p hp
  | some x =>
    have hring : (self.fall time).ring = self.ring.push x :=
      Receiver.trackSignalFall_of_some hfound
    -- with room left the write index does not meet the read index
    have hroom' : ¬ self.ring.Full := fun hfull => hroom ⟨time, rfl, by rw [hfound]; rfl, hfull⟩
    refine ⟨?_, fun p hp => ?_⟩
    · rw [hring, RingBuffer.pending_push hroom', fall, hfound, Option.toList_some, h.inOrder,
        List.append_assoc]
    · rw [hring]
      exact ⟨(hput x p hp).1, hroom'⟩

theorem consistent_begin (h : self.Consistent) (hne : self.ring.wrIdx ≠ self.ring.rdIdx) :
    self.begin.Consistent :=
  ⟨h.inOrder, fun _ hp => ⟨Option.some.inj hp, hne⟩⟩

theorem consistent_finish {p : DccPacket} (h : self.Consistent) (hp : self.evaluating = some p) :
    (self.finish p).Consistent := by
  obtain ⟨hitem, hne⟩ := h.intact p hp
  refine ⟨?_, nofun⟩
  show self.detected = self.evaluated ++ [p] ++ self.ring.pop.pending
  rw [h.inOrder, RingBuffer.pending_pop hne, hitem, List.append_assoc]
  rfl

theorem consistent_step (hnext : self.next i = some self') (hroom : ¬ self.Overruns i)
    (h : self.Consistent) : self'.Consistent := by
  cases i with
  | fall time =>
    obtain rfl := Option.some.inj hnext
    exact consistent_fall h hroom
  | begin =>
    rw [next] at hnext
    split at hnext
    · split at hnext
      · rename_i hne
        obtain rfl := Option.some.inj hnext
        exact consistent_begin h hne
      · cases hnext
    · cases hnext
  | finish =>
    obtain ⟨p, hp, rfl⟩ := Option.map_eq_some_iff.mp hnext
    exact consistent_finish h hp

/-! ### Draining -/

theorem drains_of_step (hi : i = .begin ∨ i = .finish) (hnext : self.next i = some self')
    (hdetected : self'.detected = self.detected) (h : self'.Drains) : self.Drains := by
  obtain ⟨t, s, hrun, hall, hdone⟩ := h
  refine ⟨_, s, (Run.single hnext).append hrun, fun e he => ?_, hdone.trans hdetected⟩
  rcases List.mem_append.mp he with he | he
  · rw [List.mem_singleton.mp he]
    exact hi
  · exact hall e he

theorem next_finish {p : DccPacket} (h : self.evaluating = some p) :
    self.next .finish = some (self.finish p) := by
  rw [next, h, Option.map_some]

/-- Each pending packet takes the main loop two steps. -/
theorem drains_of_idle {n : ℕ} (h : self.Consistent) (hidle : self.evaluating = none)
    (hn : self.ring.count = n) : self.Drains := by
  induction n generalizing self with
  | zero =>
    have hpending : self.ring.pending = [] :=
      List.eq_nil_of_length_eq_zero (RingBuffer.length_pending.trans hn)
    refine ⟨[], self, .nil, nofun, ?_⟩
    rw [h.inOrder, hpending, List.append_nil]
  | succ n ih =>
    have hne : self.ring.wrIdx ≠ self.ring.rdIdx := fun heq => by
      rw [RingBuffer.count_eq_zero_iff.mpr heq] at hn
      cases hn
    have hbegin : self.next .begin = some self.begin := by
      rw [next, hidle]
      exact if_pos hne
    have hcount : self.ring.pop.count = n := by
      have hpop := congrArg List.length (RingBuffer.pending_pop hne)
      rw [List.length_cons, RingBuffer.length_pending, RingBuffer.length_pending, hn] at hpop
      exact (Nat.succ.inj hpop).symm
    -- begin and finish take the oldest packet
    have hrest : (self.begin.finish (self.ring.items self.ring.rdIdx)).Drains :=
      ih (consistent_finish (consistent_begin h hne) rfl) rfl hcount
    exact drains_of_step (Or.inl rfl) hbegin rfl
      (drains_of_step (Or.inr rfl) (next_finish rfl) rfl hrest)

theorem drains_of_consistent (h : self.Consistent) : self.Drains := by
  cases hev : self.evaluating with
  | none => exact drains_of_idle h hev rfl
  | some p =>
    exact drains_of_step (Or.inr rfl) (next_finish hev) rfl
      (drains_of_idle (consistent_finish h hev) rfl rfl)

theorem served_of_consistent (h : self.Consistent) : self.Served :=
  ⟨h.inOrder, drains_of_consistent h, fun p hp => (h.intact p hp).1⟩

/-! ### Runs -/

theorem run_consistent (hrun : Run (fun s i s' => next s i = some s') boot t self)
    (hroom : ∀ e ∈ t, ¬ e.pre.Overruns e.label) :
    self.Consistent ∧ ∀ e ∈ t, e.pre.Consistent ∧ e.post.Consistent :=
  hrun.invariant_on (fun _ hC hstep h => consistent_step hstep hC h) consistent_boot hroom

/-- An overrun loses eight packets. -/
theorem not_inOrder_of_overruns (hnext : self.next i = some self') (hover : self.Overruns i)
    (h : self.detected = self.evaluated ++ self.ring.pending) :
    self'.detected ≠ self'.evaluated ++ self'.ring.pending := by
  obtain ⟨time, rfl, hfound, hfull⟩ := hover
  obtain rfl := Option.some.inj hnext
  obtain ⟨x, hx⟩ := Option.isSome_iff_exists.mp hfound
  have hring : (self.fall time).ring = self.ring.push x := Receiver.trackSignalFall_of_some hx
  rw [hring, RingBuffer.pending_push_of_full hfull, List.append_nil]
  intro heq
  have hlen := congrArg List.length heq
  rw [fall, hx, h] at hlen
  simp at hlen

/-- **Every packet is evaluated once** and in order, and none is overwritten
while it is evaluated, in exactly the runs in which no packet is completed while
seven are pending. -/
theorem served_iff (hrun : Run (fun s i s' => next s i = some s') boot t self) :
    (∀ e ∈ t, e.post.Served) ↔ ∀ e ∈ t, ¬ e.pre.Overruns e.label := by
  constructor
  · intro hserved
    induction hrun with
    | nil => exact nofun
    | @snoc t s s' i hrun hstep ih =>
      have hall := ih fun e he => hserved e (List.mem_append_left _ he)
      intro e he
      rcases List.mem_append.mp he with he | he
      · exact hall e he
      · rw [List.mem_singleton.mp he]
        intro hover
        -- the state after an overrun is not in order
        exact not_inOrder_of_overruns hstep hover (run_consistent hrun hall).1.inOrder
          (hserved _ (List.mem_append_right _ (List.mem_singleton.mpr rfl))).inOrder
  · exact fun hroom e he => served_of_consistent ((run_consistent hrun hroom).2 e he).2

/-! ### Two runs -/

/-- The falling edges of a reset message. -/
def resetFalls : List Label :=
  Receiver.resetTransmission.bits.map fun b => .fall (if b then 58 else 100)

/-- A reset message, received and evaluated. -/
theorem served_reset :
    ∃ t s, Run (fun s i s' => next s i = some s') boot t s ∧ s.evaluated.length = 1 ∧
      ∀ e ∈ t, e.post.Served := by
  have hexec : ((exec next boot (resetFalls ++ [.begin, .finish])).elim false fun r =>
      r.2.evaluated.length == 1 && r.1.all fun e => !decide e.pre.ring.Full) = true := by
    decide +kernel
  cases hr : exec next boot (resetFalls ++ [.begin, .finish]) with
  | none =>
    rw [hr] at hexec
    cases hexec
  | some r =>
    rw [hr, Option.elim_some, Bool.and_eq_true, beq_iff_eq, List.all_eq_true] at hexec
    have hrun := Run.of_exec next _ hr
    refine ⟨r.1, r.2, hrun, hexec.1, (served_iff hrun).mpr fun e he hover => ?_⟩
    obtain ⟨-, -, -, hfull⟩ := hover
    have hroom := hexec.2 e he
    rw [decide_eq_true hfull] at hroom
    cases hroom

/-- Eight reset messages while the main loop is busy: none of them is left. -/
theorem lost_resets :
    ∃ t s, Run (fun s i s' => next s i = some s') boot t s ∧ s.detected.length = 8 ∧
      s.evaluated = [] ∧ s.next .begin = none ∧ ¬ s.Served := by
  have hexec : ((exec next boot (List.replicate 8 resetFalls).flatten).elim false fun r =>
      r.2.detected.length == 8 && r.2.evaluated.length == 0 && r.2.ring.count == 0 &&
        (r.2.next .begin).isNone) = true := by
    decide +kernel
  cases hr : exec next boot (List.replicate 8 resetFalls).flatten with
  | none =>
    rw [hr] at hexec
    cases hexec
  | some r =>
    simp only [hr, Option.elim_some, Bool.and_eq_true, beq_iff_eq, Option.isNone_iff_eq_none]
      at hexec
    obtain ⟨⟨⟨hdetected, hevaluated⟩, hcount⟩, hbegin⟩ := hexec
    refine ⟨r.1, r.2, Run.of_exec next _ hr, hdetected,
      List.eq_nil_of_length_eq_zero hevaluated, hbegin, fun hserved => ?_⟩
    have hlen := congrArg List.length hserved.inOrder
    rw [List.length_append, RingBuffer.length_pending, hdetected, hevaluated, hcount] at hlen
    cases hlen

end MainLoop

end Rp2040
