import GridRobot.Collections
import GridRobot.Program.Instruction

namespace GridRobot

structure Slot where
  routine : Routine
  index : Nat
  deriving DecidableEq

namespace Slot

def label (s : Slot) : String :=
  s.routine.name ++ "-" ++ toString s.index

end Slot

structure Program where
  body : PerRoutine (List (Option Instruction))
  deriving DecidableEq

namespace Program

def ofLengths (lengths : PerRoutine Int) : Program :=
  ⟨.ofFn fun r => .replicate (lengths.get r).toNat none⟩

def lengths (p : Program) : PerRoutine Nat :=
  .ofFn fun r => (p.body.get r).length

def at? (p : Program) (s : Slot) : Option Instruction :=
  (p.body.get s.routine)[s.index]?.join

def HasSlot (p : Program) (s : Slot) : Prop :=
  s.index < (p.body.get s.routine).length

instance (p : Program) (s : Slot) : Decidable (p.HasSlot s) :=
  inferInstanceAs (Decidable (_ < _))

def put (p : Program) (s : Slot) (i : Option Instruction) : Program :=
  ⟨p.body.set s.routine ((p.body.get s.routine).set s.index i)⟩

def slots (p : Program) : List Slot :=
  Routine.all.flatMap fun r => (List.range (p.body.get r).length).map (Slot.mk r)

def slotCount (p : Program) : Nat :=
  sum (p.body.toList.map List.length)

/-- Filled slots that hold something else than `noop`. -/
def instructionCount (p : Program) : Nat :=
  sum (p.body.toList.map (·.countP (·.any fun i => i.action != .noop)))

def signaturePart : Option Instruction → String
  | none => "empty"
  | some i => i.action.name ++ ":" ++ (i.condition.map Color.name).getD "null"

def signature (p : Program) : String :=
  ",".intercalate (p.body.toList.flatMap fun slots => slots.map signaturePart ++ ["|"])

def pruned (p : Program) (keep : Slot → Bool) : Program :=
  ⟨.ofFn fun r => (p.body.get r).mapIdx fun i instr => if keep ⟨r, i⟩ then instr else none⟩

theorem mem_slots {p : Program} {s : Slot} : s ∈ p.slots ↔ p.HasSlot s := by
  obtain ⟨r, i⟩ := s
  simp [slots, HasSlot]

theorem hasSlot_of_at? {p : Program} {s : Slot} {i : Instruction} (filled : p.at? s = some i) :
    p.HasSlot s :=
  (List.getElem?_eq_some_iff.mp (Option.join_eq_some_iff.mp filled)).1

@[simp]
theorem lengths_put (p : Program) (s : Slot) (i : Option Instruction) :
    (p.put s i).lengths = p.lengths := by
  ext r
  by_cases h : r = s.routine <;> simp [lengths, put, h]

theorem at?_put (p : Program) (s t : Slot) (i : Option Instruction) (h : p.HasSlot s) :
    (p.put s i).at? t = if t = s then i else p.at? t := by
  obtain ⟨r, n⟩ := s
  obtain ⟨q, m⟩ := t
  unfold HasSlot at h
  simp only at h
  by_cases sameRoutine : q = r
  · subst sameRoutine
    by_cases sameIndex : m = n
    · subst sameIndex; simp [at?, put, h]
    · have : n ≠ m := fun e => sameIndex e.symm
      simp [at?, put, sameIndex, this]
  · simp [at?, put, sameRoutine]

@[simp]
theorem lengths_pruned (p : Program) (keep : Slot → Bool) : (p.pruned keep).lengths = p.lengths := by
  ext r
  simp [lengths, pruned]

@[simp]
theorem at?_pruned (p : Program) (keep : Slot → Bool) (s : Slot) :
    (p.pruned keep).at? s = if keep s then p.at? s else none := by
  obtain ⟨r, i⟩ := s
  simp only [at?, pruned, PerRoutine.get_ofFn, List.getElem?_mapIdx]
  cases h : (p.body.get r)[i]? <;> by_cases k : keep ⟨r, i⟩ <;> simp [k]

end Program

/-! ## Call stacks -/

/-- A routine under way; `next` is the index of the slot it reads next. -/
structure Frame where
  routine : Routine
  next : Nat := 0
  deriving DecidableEq

abbrev CallStack := List Frame

namespace CallStack

def root : CallStack := [⟨.f1, 0⟩]

/-- Reads one slot. An empty stack enters the root routine first; a routine without a slot left is
taken off the stack and nothing is read. -/
def fetch (p : Program) : CallStack → CallStack × Option Slot
  | [] => fetchFrom p ⟨.f1, 0⟩ []
  | top :: rest => fetchFrom p top rest
where
  fetchFrom (p : Program) (top : Frame) (rest : CallStack) : CallStack × Option Slot :=
    if top.next < (p.body.get top.routine).length then
      ({ top with next := top.next + 1 } :: rest, some ⟨top.routine, top.next⟩)
    else (rest, none)

def routines (s : CallStack) : List Routine :=
  s.reverse.map (·.routine)

theorem hasSlot_of_fetch {p : Program} {s t : CallStack} {slot : Slot}
    (h : fetch p s = (t, some slot)) : p.HasSlot slot := by
  have from_ (top : Frame) (rest : CallStack)
      (h : fetch.fetchFrom p top rest = (t, some slot)) : p.HasSlot slot := by
    unfold fetch.fetchFrom at h
    split at h
    · next lt => cases h; exact lt
    · cases h
  cases s with
  | nil => exact from_ _ _ h
  | cons top rest => exact from_ _ _ h

end CallStack

end GridRobot
