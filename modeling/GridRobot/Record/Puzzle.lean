import GridRobot.Grid
import GridRobot.Program.Basic
import GridRobot.Puzzle
import GridRobot.Record.Fault

namespace GridRobot

namespace Color

def toRecord (c : Option Color) : Json :=
  Json.ofOption (fun c => .string c.name) c

def ofRecord : Json → Except Record.Fault (Option Color)
  | .null => .ok none
  | .string s =>
    match ofName? s with
    | some c => .ok (some c)
    | none => .error (.color (.string s))
  | v => .error (.color v)

end Color

namespace Tile

def toRecord (t : Tile) : Json :=
  .object [("color", Color.toRecord t.color), ("hasStar", .bool t.hasStar)]

def ofRecord : Json → Except Record.Fault (Option Tile)
  | .null => .ok none
  | .object members => do
    let color ← Color.ofRecord ((Json.lookup? members "color").getD .null)
    let star := (Json.lookup? members "hasStar").getD (.bool false)
    return some ⟨color, star.isTruthy⟩
  | v => .error (.cell v)

end Tile

namespace Grid

def toRecord (g : Grid) : Json :=
  .array (g.toRows.map fun row => .array (row.map (Json.ofOption Tile.toRecord)))

def extent : Json → Except Record.Fault Nat
  | .array items => .ok items.length
  | .object members => .ok members.length
  | .string s => .ok s.length
  | _ => .error .notSizable

def rowOfRecord (width : Nat) : Json → Except Record.Fault (List (Option Tile))
  | .array cells =>
    if cells.length = width then cells.mapM Tile.ofRecord else .error .unevenRows
  | _ => .error .unevenRows

/-- Rows are read from the top, and within a row cells from the left; the first row sets the width
that all must have. -/
def ofRecord : Json → Except Record.Fault Grid
  | .array (first :: rest) => do
    let width ← extent first
    let rows ← (first :: rest).mapM (rowOfRecord width)
    match ofRows? rows with
    | some g => return g
    | none => .error .unevenRows
  | _ => .error .noRows

end Grid

/-! ## Poses -/

namespace Position

def toRecord (p : Position) : Json :=
  .object [("x", .int p.x), ("y", .int p.y)]

end Position

def Heading.ofRecord : Json → Except Record.Fault Heading
  | .string name =>
    match ofName? name with
    | some h => .ok h
    | none => .error (.heading (.string name))
  | v => .error (.heading v)

namespace Pose

def toRecord (p : Pose) : Json :=
  .object [("position", p.position.toRecord), ("direction", .string p.heading.name)]

def member (record v : Json) (key : String) : Except Record.Fault Json :=
  match v.get? key with
  | some m => .ok m
  | none => .error (.pose record)

/-- A coordinate; only an infinite one is not put down to the pose. -/
def coordinate (record v : Json) : Except Record.Fault Int :=
  match Record.integer v with
  | .ok n => .ok n
  | .error .infinite => .error (.number .infinite)
  | .error _ => .error (.pose record)

def ofRecord (record : Json) : Except Record.Fault Pose := do
  let position ← member record record "position"
  let x ← coordinate record (← member record position "x")
  let y ← coordinate record (← member record position "y")
  let heading ← Heading.ofRecord (← member record record "direction")
  return ⟨⟨x, y⟩, heading⟩

end Pose

/-! ## Programs -/

def PerRoutine.collect (read : Routine → Except ε α) : Except ε (PerRoutine α) := do
  let f1 ← read .f1
  let f2 ← read .f2
  let f3 ← read .f3
  let f4 ← read .f4
  let f5 ← read .f5
  return ⟨f1, f2, f3, f4, f5⟩

def Record.countOfRecord (members : List (String × Json)) (key : String) : Except Fault Int :=
  (integer ((Json.lookup? members key).getD (.int 0))).mapError .number

namespace Action

def ofRecord? : Json → Option Action
  | .string s => if (ofName s).isKnown then some (ofName s) else none
  | _ => none

end Action

namespace Instruction

def toRecord (i : Instruction) : Json :=
  .object [("type", .string i.action.name), ("condition", Color.toRecord i.condition)]

def ofRecord (r : Routine) (entry : Json) : Except Record.Fault (Option Instruction) :=
  match entry with
  | .null => .ok none
  | entry => do
    let kind := (entry.get? "type").getD .null
    match Action.ofRecord? kind with
    | some action =>
      return some ⟨action, ← Color.ofRecord ((entry.get? "condition").getD .null)⟩
    | none => .error (.action r.name kind)

end Instruction

namespace Program

def toRecord (p : Program) : Json :=
  .object (p.body.entries.map fun (r, slots) =>
    (r.name, .array (slots.map (Json.ofOption Instruction.toRecord))))

/-- What a value offers one by one: items, the characters of a text, or the keys of an object. -/
def sequence : Json → Except Record.Fault (List Json)
  | .array items => .ok items
  | .string s => .ok (s.toList.map fun c => .string c.toString)
  | .object members => .ok (members.map fun m => .string m.1)
  | _ => .error .notSizable

def routineOfRecord (members : List (String × Json)) (r : Routine) :
    Except Record.Fault (List (Option Instruction)) := do
  let entries ← sequence ((Json.lookup? members r.name).getD (.array []))
  entries.mapM (Instruction.ofRecord r)

def ofRecord : Json → Except Record.Fault Program
  | .object members => return ⟨← PerRoutine.collect (routineOfRecord members)⟩
  | _ => .error .notProgram

def lengthsOfRecord : Json → Except Record.Fault (PerRoutine Int)
  | .object members => PerRoutine.collect fun r => Record.countOfRecord members r.name
  | _ => .error .noMembers

end Program

/-! ## Puzzles -/

namespace Puzzle

def toRecord (q : Puzzle) : Json :=
  .object [
    ("grid", q.grid.toRecord),
    ("robotStart", q.start.toRecord),
    ("functionLengths", .object (q.lengths.entries.map fun (r, n) => (r.name, .int n))),
    ("allowedInstructions", .array (q.allowed.map fun a => .string a.name)),
    ("stepCount", .int q.steps),
    ("qualityScore", .int q.quality),
    ("solutionInstructionCount", .int q.instructionCount)]

/-- A member that counts as given; null, false, zero and everything empty do not. -/
def given? (members : List (String × Json)) (key : String) : Option Json :=
  (Json.lookup? members key).filter Json.isTruthy

def allowedOfRecord (v : Option Json) : Except Record.Fault (List Action) :=
  match v with
  | none => .ok []
  | some v => do
    let kinds ← Program.sequence v
    let unknown := kinds.filter fun k => (Action.ofRecord? k).isNone
    if unknown.isEmpty then return kinds.filterMap Action.ofRecord?
    else .error (.vocabulary unknown)

def lengthsOfRecord : Option Json → Except Record.Fault (PerRoutine Int)
  | none => .ok (.ofFn fun _ => 0)
  | some v => Program.lengthsOfRecord v

def ofWorld (grid : Grid) (start : Pose) (members : List (String × Json)) :
    Except Record.Fault Puzzle := do
  let allowed ← allowedOfRecord (given? members "allowedInstructions")
  let lengths ← lengthsOfRecord (given? members "functionLengths")
  let steps ← Record.countOfRecord members "stepCount"
  let quality ← Record.countOfRecord members "qualityScore"
  let instructionCount ← Record.countOfRecord members "solutionInstructionCount"
  return { grid, start, lengths, allowed, steps, quality, instructionCount }

/-- The start must be on a tile of the grid. -/
def ofRecord : Json → Except Record.Fault Puzzle
  | .object members => do
    let grid ← Grid.ofRecord ((Json.lookup? members "grid").getD .null)
    let start ← Pose.ofRecord ((Json.lookup? members "robotStart").getD .null)
    if (grid.tile? start.position).isSome then ofWorld grid start members
    else .error (.offTile start.position)
  | _ => .error .notPuzzle

end Puzzle

end GridRobot
