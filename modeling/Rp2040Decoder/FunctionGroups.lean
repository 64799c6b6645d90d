/-
Function groups (`FunctionGroup` in `dcc/src/lib.rs`).

An instruction carries the flags of one of six groups, whose masks partition
the functions F0-F31.

* `bit_unionWithMask` — a group replaces the flags of its functions and no
  others;
* `tryFrom_functionGroup` — every group an instruction carries is one of the six;
* `bit_foldFlags` — after a list of packets a flag is the one carried by the
  last group of its function;
* `foldFlags_congr` — only the order of the packets of one group counts.
-/
import Rp2040Decoder.Folds
import Rp2040Decoder.Packet
import Rp2040Decoder.Words

namespace Rp2040

open Words

/-- Calculates the union between the other flags and these flags, taking into
account the group mask. -/
def FunctionGroup.unionWithMask (self : FunctionGroup) (other : FunctionGroupFlags) :
    FunctionGroupFlags :=
  (other &&& ~~~self.groupMask) ||| self.flags

/-- The masks an instruction can carry. -/
inductive Group
  | FG_1
  | FG_2_1
  | FG_2_0
  | FG_FEATURE_13_20
  | FG_FEATURE_21_28
  | FG_FEATURE_29_31
  deriving DecidableEq, Repr

namespace Group

/-- The first and last function of the group. -/
def range : Group → ℕ × ℕ
  | FG_1 => (0, 4)
  | FG_2_1 => (5, 8)
  | FG_2_0 => (9, 12)
  | FG_FEATURE_13_20 => (13, 20)
  | FG_FEATURE_21_28 => (21, 28)
  | FG_FEATURE_29_31 => (29, 31)

def mask (g : Group) : FunctionGroupFlags := functions g.range.1 g.range.2

/-- The group of a function. -/
def ofFunction (i : ℕ) : Group :=
  if i ≤ 4 then FG_1 else if i ≤ 8 then FG_2_1 else if i ≤ 12 then FG_2_0
  else if i ≤ 20 then FG_FEATURE_13_20 else if i ≤ 28 then FG_FEATURE_21_28
  else FG_FEATURE_29_31

end Group

variable {i : ℕ} {fg : FunctionGroup}

/-- The six masks partition the functions. -/
theorem bit_mask (hi : i < 32) (g : Group) :
    bit g.mask i = decide (Group.ofFunction i = g) := by
  rw [Group.mask, functions, bit_ofNat_mask hi (by cases g <;> decide)]
  refine decide_eq_decide.mpr ?_
  cases g <;> simp only [Group.range, Group.ofFunction] <;> split_ifs <;> simp <;> omega

/-- The group carries flags of its own functions only. -/
def FunctionGroup.Carried (fg : FunctionGroup) : Prop := ∃ g v, fg = .new (Group.mask g) v

/-- A group as a partial write of the flags. -/
def FunctionGroup.write (fg : FunctionGroup) (i : ℕ) : Option Bool :=
  if bit fg.groupMask i then some (bit fg.flags i) else none

theorem bit_unionWithMask (hfg : fg.Carried) (hi : i < 32) (other : FunctionGroupFlags) :
    bit (fg.unionWithMask other) i = (fg.write i).getD (bit other i) := by
  obtain ⟨g, v, rfl⟩ := hfg
  rw [FunctionGroup.unionWithMask, FunctionGroup.write, FunctionGroup.new, bit_or, bit_and,
    bit_not hi, bit_and]
  cases bit g.mask i <;> simp

theorem parseFg1_carried (instruction : UInt8) : (parseFg1 instruction).Carried :=
  ⟨.FG_1, _, rfl⟩

theorem parseFg2_carried (instruction : UInt8) : (parseFg2 instruction).Carried := by
  rw [parseFg2]
  split
  · exact ⟨.FG_2_1, _, rfl⟩
  · exact ⟨.FG_2_0, _, rfl⟩

theorem parseFeatureExpansion_carried {first second : UInt8}
    (h : parseFeatureExpansion first second = some fg) : fg.Carried := by
  unfold parseFeatureExpansion at h
  split at h
  · exact ⟨.FG_FEATURE_13_20, _, (Option.some.inj h).symm⟩
  · exact ⟨.FG_FEATURE_21_28, _, (Option.some.inj h).symm⟩
  · exact ⟨.FG_FEATURE_29_31, _, (Option.some.inj h).symm⟩
  · cases h

/-- Every group an instruction carries is one of the six. -/
theorem tryFrom_functionGroup {packet : Packet}
    (h : OperationModeInstruction.tryFrom packet = .ok (.functionGroup fg)) : fg.Carried := by
  rw [OperationModeInstruction.tryFrom] at h
  cases hlen : packet.addressLength with
  | error e =>
    rw [hlen] at h
    cases h
  | ok n =>
    rw [hlen] at h
    simp only [bind, Except.bind] at h
    split at h
    · cases h
    · split at h
      · split at h
        · split at h <;> cases h
        · cases h
      · rw [← OperationModeInstruction.functionGroup.inj (Except.ok.inj h)]
        exact parseFg1_carried _
      · rw [← OperationModeInstruction.functionGroup.inj (Except.ok.inj h)]
        exact parseFg2_carried _
      · split at h
        · cases h
        · split at h
          · rename_i hfg
            rw [← OperationModeInstruction.functionGroup.inj (Except.ok.inj h)]
            exact parseFeatureExpansion_carried hfg
          · cases h
      · cases h

/-! ### Sequences of packets -/

/-- The group an operations packet carries, if it is a function instruction. -/
def carriedGroup (packet : Packet) : Option FunctionGroup :=
  match OperationModeInstruction.tryFrom packet with
  | .ok (.functionGroup fg) => some fg
  | _ => none

/-- The flags after the packets. -/
def foldFlags (flags : FunctionGroupFlags) (packets : List Packet) : FunctionGroupFlags :=
  (packets.filterMap carriedGroup).foldl (fun flags fg => fg.unionWithMask flags) flags

theorem carried_of_carriedGroup {packet : Packet} (h : carriedGroup packet = some fg) :
    fg.Carried := by
  rw [carriedGroup] at h
  split at h
  · rename_i hfg
    rw [← Option.some.inj h]
    exact tryFrom_functionGroup hfg
  · cases h

theorem foldFlags_append (flags : FunctionGroupFlags) (packets packets' : List Packet) :
    foldFlags flags (packets ++ packets') = foldFlags (foldFlags flags packets) packets' := by
  rw [foldFlags, List.filterMap_append, List.foldl_append]
  rfl

/-- The flags as a function from functions to values. -/
def view (flags : FunctionGroupFlags) (i : Fin 32) : Bool := bit flags i

/-- A list of groups is a list of partial writes of the flags. -/
theorem view_foldl {fgs : List FunctionGroup} (h : ∀ fg ∈ fgs, fg.Carried)
    (flags : FunctionGroupFlags) :
    view (fgs.foldl (fun flags fg => fg.unionWithMask flags) flags) =
      (fgs.map fun fg (i : Fin 32) => fg.write i).foldl Folds.write (view flags) := by
  induction fgs generalizing flags with
  | nil => rfl
  | cons fg fgs ih =>
    rw [List.foldl_cons, List.map_cons, List.foldl_cons,
      ih fun fg' hfg' => h fg' (List.mem_cons_of_mem _ hfg')]
    congr 1
    funext i
    exact bit_unionWithMask (h fg List.mem_cons_self) i.isLt flags

theorem carried_of_mem {packets : List Packet} :
    ∀ fg ∈ packets.filterMap carriedGroup, fg.Carried := by
  intro fg hfg
  obtain ⟨packet, -, hpacket⟩ := List.mem_filterMap.mp hfg
  exact carried_of_carriedGroup hpacket

/-- A flag is the one carried by the last group of its function. -/
theorem bit_foldFlags (hi : i < 32) (flags : FunctionGroupFlags) (packets : List Packet) :
    bit (foldFlags flags packets) i =
      ((packets.filterMap carriedGroup).filterMap fun fg => fg.write i).getLast?.getD
        (bit flags i) := by
  have hview := view_foldl (carried_of_mem : ∀ fg ∈ packets.filterMap carriedGroup, fg.Carried)
  have h := congrFun (hview flags) ⟨i, hi⟩
  rw [Folds.foldl_write_eq, List.filterMap_map] at h
  exact h

/-- A group writes to the functions of its mask. -/
theorem write_of_ne {g : Group} (hfg : fg.Carried) (hi : i < 32)
    (hg : Group.ofFunction i = g) (hne : fg.groupMask ≠ g.mask) : fg.write i = none := by
  obtain ⟨g', v, rfl⟩ := hfg
  have hg' : g' ≠ g := fun h => hne (by rw [h]; rfl)
  rw [FunctionGroup.write, FunctionGroup.new, bit_mask hi, hg, decide_eq_false hg'.symm]
  rfl

/-- Packets of different groups may be reordered. -/
theorem foldFlags_congr {packets packets' : List Packet} (flags : FunctionGroupFlags)
    (h : ∀ g : Group,
      (packets.filterMap carriedGroup).filter (fun fg => fg.groupMask = g.mask) =
        (packets'.filterMap carriedGroup).filter fun fg => fg.groupMask = g.mask) :
    foldFlags flags packets = foldFlags flags packets' := by
  have hwrite : ∀ i < 32, ∀ l : List FunctionGroup, (∀ fg ∈ l, fg.Carried) →
      (l.filterMap fun fg => fg.write i) =
        (l.filter fun fg => fg.groupMask = (Group.ofFunction i).mask).filterMap
          fun fg => fg.write i := by
    intro i hi l hl
    rw [List.filterMap_filter]
    refine List.filterMap_congr fun fg hfg => ?_
    split
    · rfl
    · rename_i hne
      exact write_of_ne (hl fg hfg) hi rfl (by simpa using hne)
  refine ext fun i hi => ?_
  rw [bit_foldFlags hi, bit_foldFlags hi, hwrite i hi _ carried_of_mem, h,
    ← hwrite i hi _ carried_of_mem]

end Rp2040
