import GridRobot.Program.Basic
import GridRobot.Text.Integer
import GridRobot.Text.Quoted

/-!
Addresses as people write them: any routine name, any whole number. Reading counts a negative index
from the end of the routine; writing takes only indices that the routine has.
-/

namespace GridRobot

structure Address where
  routine : String
  index : Int
  deriving DecidableEq

namespace Address

def ofSlot (s : Slot) : Address :=
  ⟨s.routine.name, s.index⟩

def label (a : Address) : String :=
  a.routine ++ "-" ++ toString a.index

end Address

/-- Why an address could not be found, read or written. `vacant` is one whose slot is empty where an
instruction is expected; `noneToChoose` is a choice among none. -/
inductive AddressError where
  | unknownRoutine (name : String)
  | unreadable (a : Address)
  | unwritable (a : Address) (length : Nat)
  | vacant (a : Address)
  | noneToChoose
  deriving DecidableEq

def AddressError.message : AddressError → String
  | .unknownRoutine name => Text.quoted name
  | .unreadable _ => "list index out of range"
  | .unwritable a length =>
    "Slot " ++ a.label ++ " outside function length " ++ toString length
  | .vacant _ => ""
  | .noneToChoose => "Cannot choose from an empty sequence"

namespace Program

def routineAt (p : Program) (name : String) :
    Except AddressError (Routine × List (Option Instruction)) :=
  match Routine.ofName? name with
  | some r => .ok (r, p.body.get r)
  | none => .error (.unknownRoutine name)

def read (p : Program) (a : Address) : Except AddressError (Option Instruction) := do
  let (_, slots) ← p.routineAt a.routine
  let place := if a.index < 0 then a.index + slots.length else a.index
  match place, slots[place.toNat]? with
  | .ofNat _, some instr => .ok instr
  | _, _ => .error (.unreadable a)

def write (p : Program) (a : Address) (i : Option Instruction) : Except AddressError Program := do
  let (r, slots) ← p.routineAt a.routine
  if 0 ≤ a.index ∧ a.index < slots.length then .ok (p.put ⟨r, a.index.toNat⟩ i)
  else .error (.unwritable a slots.length)

def readFilled (p : Program) (a : Address) : Except AddressError Instruction := do
  match ← p.read a with
  | some i => return i
  | none => throw (.vacant a)

theorem read_ofSlot {p : Program} {s : Slot} (h : p.HasSlot s) :
    p.read (.ofSlot s) = .ok (p.at? s) := by
  obtain ⟨r, n⟩ := s
  unfold HasSlot at h
  simp only at h
  have nonneg : ¬ ((n : Int) < 0) := by omega
  simp [read, routineAt, Address.ofSlot, at?, nonneg, h, bind, Except.bind]

theorem write_ofSlot {p : Program} {s : Slot} (h : p.HasSlot s) (i : Option Instruction) :
    p.write (.ofSlot s) i = .ok (p.put s i) := by
  obtain ⟨r, n⟩ := s
  unfold HasSlot at h
  simp only at h
  simp [write, routineAt, Address.ofSlot, h, bind, Except.bind]

end Program

/-! ## Labels -/

namespace Slot

inductive LabelError where
  | malformed (label : String)
  | undecimal (index : String)
  deriving DecidableEq

def LabelError.message : LabelError → String
  | .malformed label => "Invalid slot key: " ++ Text.quoted label
  | .undecimal index => "invalid literal for int() with base 10: " ++ Text.quoted index

def ofLabel (label : String) : Except LabelError Slot :=
  let cs := label.toList
  let name := cs.takeWhile (· != '-')
  let index := cs.drop (name.length + 1)
  match Routine.ofName? (String.ofList name) with
  | some r =>
    if index.isEmpty || !index.all Text.isDigit then .error (.malformed label)
    else
      match Text.natural? index with
      | some n => .ok ⟨r, n⟩
      | none => .error (.undecimal (String.ofList index))
  | none => .error (.malformed label)

end Slot

end GridRobot
