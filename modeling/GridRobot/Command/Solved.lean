import GridRobot.Config.Record
import GridRobot.Record.Fault
import GridRobot.Record.Puzzle
import GridRobot.Run.Execution
import GridRobot.Search.Basic

namespace GridRobot

structure FileError where
  number : Nat
  text : String
  path : String
  deriving DecidableEq

namespace FileError

def missing (path : String) : FileError := ⟨2, "No such file or directory", path⟩

def occupied (path : String) : FileError := ⟨17, "File exists", path⟩

def notDirectory (path : String) : FileError := ⟨20, "Not a directory", path⟩

def isDirectory (path : String) : FileError := ⟨21, "Is a directory", path⟩

def message (e : FileError) : String :=
  "[Errno " ++ toString e.number ++ "] " ++ e.text ++ ": " ++ Text.quoted e.path

end FileError

abbrev FileText := Except FileError String

def Issue.line (i : Issue) : String :=
  ".".intercalate i.keys ++ ": " ++ i.complaint.message

def LoadError.message : LoadError → String
  | .unknownPreset name => unknownPresetText name
  | .notJson => "The file does not hold JSON"
  | .invalid issues => "\n".intercalate ("Invalid configuration" :: issues.map Issue.line)

namespace Command

inductive Problem where
  | file (e : FileError)
  | load (e : LoadError)
  | notObject (path : String)
  | record (f : Record.Fault)
  | start (e : VoidStart)
  | unreportable

namespace Problem

def isInput : Problem → Bool
  | .file _ | .load _ | .notObject _ => true
  | .record f => f.isMalformed
  | .start _ | .unreportable => false

def message : Problem → String
  | .file e => e.message
  | .load e => e.message
  | .notObject path => path ++ " does not hold a JSON object"
  | .record f => f.message.getD "A member of the record has the wrong type"
  | .start e => e.message
  | .unreportable => "A figure is beyond the range of floating-point numbers"

def status : Nat := 2

end Problem

end Command

/-! ## Results of searches -/

namespace Trace

def toRecord (t : Trace) : Json :=
  .object [
    ("terminal", .string t.terminal.name),
    ("stepCount", .nat t.steps),
    ("pathLength", .nat t.pathLength),
    ("path", .array (t.path.toList.map Position.toRecord)),
    ("turnPositions", .array (t.turnPositions.toList.map Position.toRecord)),
    ("executedSlots", .array (t.executed.keys.map fun s => .string s.label)),
    ("executedConditionals", .nat t.conditional.size),
    ("selfCalls", .nat t.selfCalls.size),
    ("maxStackDepth", .nat t.stackDepth),
    ("paintRevisits", .nat t.paintRevisits)]

end Trace

namespace Tally

def toRecord (t : Tally) : Json :=
  .object (t.entries.map fun (f, n) => (f.name, .nat n))

end Tally

namespace SearchResult

def diagnostics (r : SearchResult) : List (String × Json) :=
  let summary :=
    match r.trace.map Trace.toRecord with
    | some (.object members) => members
    | _ => []
  ("restarts", .nat r.restarts) :: summary

def members (r : SearchResult) : List (String × Json) := [
  ("success", .bool r.isSuccess),
  ("outcome", .string r.outcome.name),
  ("attempts", .nat r.attempts),
  ("errorType", Json.ofOption .string r.errorName),
  ("errorCounts", r.tally.toRecord),
  ("seed", Json.ofOption .int r.seed),
  ("elapsed", .float (Decimal.roundPlaces 3 r.elapsed)),
  ("puzzle", Json.ofOption Puzzle.toRecord r.puzzle),
  ("solution", Json.ofOption Program.toRecord r.solution),
  ("diagnostics", .object r.diagnostics)]

def toRecord (r : SearchResult) : Json :=
  .object r.members

end SearchResult

/-! ## Files -/

namespace Command

def fileMembers (c : Config) (r : SearchResult) : List (String × Json) :=
  ("config", c.toRecord) :: r.members

def fileText (c : Config) (r : SearchResult) : String :=
  (Json.object (fileMembers c r)).render (.indented 2) 0

def readMembers (path : String) (text : FileText) : Except Problem (List (String × Json)) := do
  match Json.parse? (← text.mapError .file) with
  | some (.object members) => return members
  | some _ => .error (.notObject path)
  | none => .error (.load .notJson)

def member (members : List (String × Json)) (key : String) : Json :=
  (Json.lookup? members key).getD .null

def puzzleOf (members : List (String × Json)) : Except Problem Puzzle :=
  (Puzzle.ofRecord (member members "puzzle")).mapError .record

def programOf (v : Json) : Except Problem Program :=
  (Program.ofRecord v).mapError .record

def configOf (members : List (String × Json)) (preset : String) : Except Problem Config :=
  Except.mapError .load <|
    match member members "config" with
    | .object own => Config.checked (.object own)
    | _ => Config.ofPreset preset

structure Solved where
  puzzle : Puzzle
  solution : Program
  config : Config

/-- The puzzle is read first, then the solution, then the configuration. -/
def Solved.ofMembers (members : List (String × Json)) (preset : String) : Except Problem Solved := do
  let puzzle ← puzzleOf members
  let solution ← programOf (member members "solution")
  let config ← configOf members preset
  return { puzzle, solution, config }

end GridRobot.Command
