import GridRobot.Text.Quoted

namespace GridRobot

inductive Heading where
  | up
  | down
  | left
  | right
  deriving DecidableEq

/-- A quarter turn, counter-clockwise (`left`) or clockwise (`right`). -/
inductive Turn where
  | left
  | right
  deriving DecidableEq

namespace Heading

def all : List Heading := [.up, .down, .left, .right]

def name : Heading → String
  | .up => "up"
  | .down => "down"
  | .left => "left"
  | .right => "right"

def ofName? (s : String) : Option Heading :=
  all.find? fun h => h.name == s

@[simp]
theorem mem_all (h : Heading) : h ∈ all := by
  cases h <;> simp [all]

@[simp]
theorem ofName?_name (h : Heading) : ofName? h.name = some h := by
  cases h <;> decide

theorem name_of_ofName? {s : String} {h : Heading} (eq : ofName? s = some h) : h.name = s := by
  simpa using List.find?_some eq

def turned : Heading → Turn → Heading
  | .up, .left => .left
  | .left, .left => .down
  | .down, .left => .right
  | .right, .left => .up
  | .up, .right => .right
  | .right, .right => .down
  | .down, .right => .left
  | .left, .right => .up

def opposite : Heading → Heading
  | .up => .down
  | .down => .up
  | .left => .right
  | .right => .left

def quarters : Heading → Nat
  | .up => 0
  | .right => 1
  | .down => 2
  | .left => 3

def turnDistance (a b : Heading) : Nat :=
  let apart := max a.quarters b.quarters - min a.quarters b.quarters
  min apart (4 - apart)

def isQuarterTurn (entry exit : Heading) : Bool :=
  exit != entry && exit != entry.opposite

end Heading

namespace Turn

def name : Turn → String
  | .left => "left"
  | .right => "right"

def all : List Turn := [.left, .right]

def reversed : Turn → Turn
  | .left => .right
  | .right => .left

end Turn

/-! ## Positions and poses -/

structure Position where
  x : Int
  y : Int
  deriving DecidableEq

namespace Position

def step (p : Position) : Heading → Position
  | .up => ⟨p.x, p.y - 1⟩
  | .down => ⟨p.x, p.y + 1⟩
  | .left => ⟨p.x - 1, p.y⟩
  | .right => ⟨p.x + 1, p.y⟩

/-- The facing that leads from `p` to an orthogonal neighbour `q`; of any other pair only a column
difference of one or a row difference of one decides, and `up` stands for the rest. -/
def headingTo (p q : Position) : Heading :=
  if q.x - p.x = 1 then .right
  else if q.x - p.x = -1 then .left
  else if q.y - p.y = 1 then .down
  else .up

theorem headingTo_step (p : Position) (h : Heading) : p.headingTo (p.step h) = h := by
  have back (a : Int) : a - 1 - a = -1 := by omega
  have ahead (a : Int) : a + 1 - a = 1 := by omega
  cases h <;> simp [headingTo, step, back, ahead]

end Position

structure Pose where
  position : Position
  heading : Heading
  deriving DecidableEq

/-- The instructions that retrace a path from facing `h` when each step takes the turns it needs and
one forward. -/
def retraceLength (h : Heading) : List Position → Nat
  | p :: q :: rest =>
    h.turnDistance (p.headingTo q) + 1 + retraceLength (p.headingTo q) (q :: rest)
  | _ => 0

/-! ## Facings by name -/

namespace Heading

inductive NameError where
  | unranked
  | unknown (name : String)
  deriving DecidableEq

def NameError.message : NameError → String
  | .unranked => "tuple.index(x): x not in tuple"
  | .unknown name => Text.quoted name

def named (name : String) : Except NameError Heading :=
  match ofName? name with
  | some h => .ok h
  | none => .error (.unknown name)

def ranked (name : String) : Except NameError Heading :=
  match ofName? name with
  | some h => .ok h
  | none => .error .unranked

def turnDistanceNamed (a b : String) : Except NameError Nat := do
  return (← ranked a).turnDistance (← ranked b)

def isQuarterTurnNamed (entry exit : String) : Except NameError Bool :=
  if exit = entry then .ok false
  else do
    let h ← named entry
    return exit != h.opposite.name

def turnedNamed (heading turn : String) : Except NameError Heading := do
  return (← named heading).turned (if turn = Turn.left.name then .left else .right)

def stepNamed (p : Position) (heading : String) : Except NameError Position := do
  return p.step (← named heading)

def retraceLengthNamed (heading : String) (path : List Position) : Except NameError Nat :=
  if path.length < 2 then .ok 0
  else do return retraceLength (← ranked heading) path

end Heading

end GridRobot
