import GridRobot.Grid
import GridRobot.Pose

namespace GridRobot

inductive Routine where
  | f1
  | f2
  | f3
  | f4
  | f5
  deriving DecidableEq

namespace Routine

def all : List Routine := [.f1, .f2, .f3, .f4, .f5]

def name : Routine → String
  | .f1 => "f1"
  | .f2 => "f2"
  | .f3 => "f3"
  | .f4 => "f4"
  | .f5 => "f5"

def ofName? (s : String) : Option Routine :=
  all.find? fun r => r.name == s

@[simp]
theorem mem_all (r : Routine) : r ∈ all := by
  cases r <;> simp [all]

@[simp]
theorem ofName?_name (r : Routine) : ofName? r.name = some r := by
  cases r <;> decide

theorem name_of_ofName? {s : String} {r : Routine} (h : ofName? s = some r) : r.name = s := by
  simpa using List.find?_some h

end Routine

structure PerRoutine (α : Type u) where
  f1 : α
  f2 : α
  f3 : α
  f4 : α
  f5 : α
  deriving DecidableEq

namespace PerRoutine

def get (v : PerRoutine α) : Routine → α
  | .f1 => v.f1
  | .f2 => v.f2
  | .f3 => v.f3
  | .f4 => v.f4
  | .f5 => v.f5

def set (v : PerRoutine α) (r : Routine) (a : α) : PerRoutine α :=
  match r with
  | .f1 => { v with f1 := a }
  | .f2 => { v with f2 := a }
  | .f3 => { v with f3 := a }
  | .f4 => { v with f4 := a }
  | .f5 => { v with f5 := a }

def ofFn (f : Routine → α) : PerRoutine α :=
  ⟨f .f1, f .f2, f .f3, f .f4, f .f5⟩

def toList (v : PerRoutine α) : List α :=
  Routine.all.map v.get

def entries (v : PerRoutine α) : List (Routine × α) :=
  Routine.all.map fun r => (r, v.get r)

@[ext]
theorem ext {v w : PerRoutine α} (h : ∀ r, v.get r = w.get r) : v = w := by
  cases v; cases w
  have h1 := h .f1; have h2 := h .f2; have h3 := h .f3; have h4 := h .f4; have h5 := h .f5
  simp_all [get]

@[simp]
theorem get_ofFn (f : Routine → α) (r : Routine) : (ofFn f).get r = f r := by
  cases r <;> rfl

@[simp]
theorem get_set (v : PerRoutine α) (r s : Routine) (a : α) :
    (v.set r a).get s = if s = r then a else v.get s := by
  cases r <;> cases s <;> rfl

end PerRoutine

/-! ## Instructions -/

/-- What an instruction does. `other` keeps a name outside the vocabulary: it is written back as it
was read, and running it changes nothing but the step count. -/
inductive Action where
  | forward
  | turn (t : Turn)
  | call (r : Routine)
  | paint (c : Color)
  | noop
  | other (name : String)
  deriving DecidableEq

namespace Action

def name : Action → String
  | .forward => "forward"
  | .turn t => t.name
  | .call r => r.name
  | .paint c => "paint_" ++ c.name
  | .noop => "noop"
  | .other n => n

def vocabulary : List Action :=
  [.forward] ++ Turn.all.map turn ++ Routine.all.map call ++ Color.all.map paint ++ [.noop]

def ofName (s : String) : Action :=
  (vocabulary.find? fun a => a.name == s).getD (.other s)

def isKnown : Action → Bool
  | .other _ => false
  | _ => true

def isTurn : Action → Bool
  | .turn _ => true
  | _ => false

def isCall : Action → Bool
  | .call _ => true
  | _ => false

def paintColor? : Action → Option Color
  | .paint c => some c
  | _ => none

def isPaint (a : Action) : Bool :=
  a.paintColor?.isSome

def paints : List Action := Color.all.map paint

theorem name_ofName (s : String) : (ofName s).name = s := by
  unfold ofName
  cases found : vocabulary.find? fun a => a.name == s with
  | none => rfl
  | some a => simpa using List.find?_some found

theorem mem_vocabulary_iff {a : Action} : a ∈ vocabulary ↔ a.isKnown = true := by
  constructor
  · intro h
    cases a with
    | other n => simp [vocabulary] at h
    | _ => rfl
  · intro h
    cases a with
    | turn t => cases t <;> simp [vocabulary, Turn.all]
    | other n => simp [isKnown] at h
    | _ => simp [vocabulary]

theorem ofName_name {a : Action} (h : a.isKnown = true) : ofName a.name = a := by
  cases a with
  | forward => decide
  | turn t => cases t <;> decide
  | call r => cases r <;> decide
  | paint c => cases c <;> decide
  | noop => decide
  | other n => simp [isKnown] at h

end Action

/-- A filled slot. Without a condition the instruction always runs; with one it runs only on a tile
of that colour. -/
structure Instruction where
  action : Action
  condition : Option Color := none
  deriving DecidableEq

namespace Instruction

def runsOn (i : Instruction) (tile : Option Tile) : Bool :=
  match i.condition with
  | none => true
  | some c => tile.any fun t => t.color == some c

end Instruction

end GridRobot
