import GridRobot.Decimal
import GridRobot.Json.Basic
import GridRobot.Pose
import GridRobot.Text.Integer
import GridRobot.Text.Quoted

namespace GridRobot.Record

inductive NumberFault where
  | notNumeric
  | unreadable (text : String)
  | oversized (digits : Nat)
  | notANumber
  | infinite
  deriving DecidableEq

def NumberFault.message : NumberFault → Option String
  | .unreadable text =>
    some ("invalid literal for int() with base 10: " ++
      String.ofList ((Text.quoted text).toList.take 200))
  | .oversized digits =>
    some ("Exceeds the limit (" ++ toString Text.maxDigits ++
      " digits) for integer string conversion: value has " ++ toString digits ++
      " digits; use sys.set_int_max_str_digits() to increase the limit")
  | .notANumber => some "cannot convert float NaN to integer"
  | .notNumeric | .infinite => none

def integer : Json → Except NumberFault Int
  | .int n => .ok n
  | .bool b => .ok (if b then 1 else 0)
  | .float x =>
    match Decimal.Value.ofFloat x, Decimal.truncated? x with
    | .notANumber, _ => .error .notANumber
    | _, some n => .ok n
    | _, none => .error .infinite
  | .string s =>
    match Text.integer? s with
    | some n => .ok n
    | none =>
      match Text.excess? s with
      | some digits => .error (.oversized digits)
      | none => .error (.unreadable s)
  | .null | .array _ | .object _ => .error .notNumeric

/-! ## Faults -/

inductive Fault where
  | noRows
  | unevenRows
  | cell (v : Json)
  | color (v : Json)
  | pose (record : Json)
  | heading (v : Json)
  | offTile (p : Position)
  | notProgram
  | action (routine : String) (kind : Json)
  | notPuzzle
  | vocabulary (kinds : List Json)
  | notSizable
  | noMembers
  | number (f : NumberFault)

namespace Fault

def isMalformed : Fault → Bool
  | .notSizable | .noMembers | .number _ => false
  | _ => true

def message : Fault → Option String
  | .noRows => some "Grid must be a non-empty list of rows"
  | .unevenRows => some "Grid rows must all have the same length"
  | .cell v => some ("Invalid grid cell: " ++ v.shown)
  | .color v => some ("Unknown colour: " ++ v.shown)
  | .pose v => some ("Invalid robot pose: " ++ v.shown)
  | .heading v => some ("Unknown direction: " ++ v.shown)
  | .offTile p =>
    some ("Robot start (" ++ toString p.x ++ ", " ++ toString p.y ++ ") is not on a tile")
  | .notProgram => some "Program record must be an object"
  | .action routine kind => some ("Unknown instruction type in " ++ routine ++ ": " ++ kind.shown)
  | .notPuzzle => some "Puzzle record must be an object"
  | .vocabulary kinds => some ("Unknown allowed instructions: " ++ (Json.array kinds).shown)
  | .notSizable | .noMembers => none
  | .number f => f.message

end Fault

end GridRobot.Record
