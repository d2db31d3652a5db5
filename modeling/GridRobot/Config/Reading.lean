import GridRobot.Decimal
import GridRobot.Json.Basic
import GridRobot.Text.Number

namespace GridRobot

inductive Complaint where
  | notInteger
  | fraction
  | integerText
  | integerTooLong
  | notFinite
  | notNumber
  | numberText
  | notBool
  | boolText
  | notModel (name : String)
  | atLeast (bound : String)
  | atMost (bound : String)
  | above (bound : String)
  | unknownKey
  | frozen
  deriving DecidableEq

namespace Complaint

def code : Complaint → String
  | .notInteger => "int_type"
  | .fraction => "int_from_float"
  | .integerText => "int_parsing"
  | .integerTooLong => "int_parsing_size"
  | .notFinite => "finite_number"
  | .notNumber => "float_type"
  | .numberText => "float_parsing"
  | .notBool => "bool_type"
  | .boolText => "bool_parsing"
  | .notModel _ => "model_type"
  | .atLeast _ => "greater_than_equal"
  | .atMost _ => "less_than_equal"
  | .above _ => "greater_than"
  | .unknownKey => "extra_forbidden"
  | .frozen => "frozen_instance"

def message : Complaint → String
  | .notInteger => "Input should be a valid integer"
  | .fraction => "Input should be a valid integer, got a number with a fractional part"
  | .integerText => "Input should be a valid integer, unable to parse string as an integer"
  | .integerTooLong => "Unable to parse input string as an integer, exceeded maximum size"
  | .notFinite => "Input should be a finite number"
  | .notNumber => "Input should be a valid number"
  | .numberText => "Input should be a valid number, unable to parse string as a number"
  | .notBool => "Input should be a valid boolean"
  | .boolText => "Input should be a valid boolean, unable to interpret input"
  | .notModel name => "Input should be a valid dictionary or instance of " ++ name
  | .atLeast bound => "Input should be greater than or equal to " ++ bound
  | .atMost bound => "Input should be less than or equal to " ++ bound
  | .above bound => "Input should be greater than " ++ bound
  | .unknownKey => "Extra inputs are not permitted"
  | .frozen => "Instance is frozen"

end Complaint

structure Issue where
  keys : List String
  complaint : Complaint
  deriving DecidableEq

def Issue.under (key : String) (i : Issue) : Issue :=
  { i with keys := key :: i.keys }

/-- A value, or all that is wrong with it. -/
structure Checked (α : Type u) where
  result : Except (List Issue) α

namespace Checked

def ok (a : α) : Checked α := ⟨.ok a⟩

def fail (c : Complaint) : Checked α := ⟨.error [⟨[], c⟩]⟩

def issues (x : Checked α) : List Issue :=
  match x.result with
  | .ok _ => []
  | .error is => is

def pair (x : Checked α) (y : Checked β) : Checked (α × β) :=
  match x.result, y.result with
  | .ok a, .ok b => ok (a, b)
  | _, _ => ⟨.error (x.issues ++ y.issues)⟩

def map (f : α → β) (x : Checked α) : Checked β := ⟨x.result.map f⟩

def apply (f : Checked (α → β)) (x : Checked α) : Checked β :=
  (pair f x).map fun p => p.1 p.2

def under (key : String) (x : Checked α) : Checked α :=
  ⟨x.result.mapError (·.map (Issue.under key))⟩

def test (x : Checked α) (keeps : α → Bool) (c : Complaint) : Checked α :=
  match x.result with
  | .ok a => if keeps a then x else fail c
  | .error _ => x

end Checked

/-! ## Reading -/

instance : Functor Checked where
  map := Checked.map

instance : Applicative Checked where
  pure := Checked.ok
  seq f x := f.apply (x ())

namespace Reading

def wholeLimit : Float := 9223372036854775808

def digitLimit : Nat := 4300

def integer : Json → Checked Int
  | .int n => .ok n
  | .bool b => .ok (if b then 1 else 0)
  | .float x =>
    match Decimal.truncated? x with
    | none => .fail .notFinite
    | some n =>
      if !Decimal.isWhole x then .fail .fraction
      else if x.abs < wholeLimit then .ok n
      else .fail .integerTooLong
  | .string s =>
    match Text.liberalInteger? s with
    | some n => if n.natAbs < Nat.pow 10 digitLimit then .ok n else .fail .integerTooLong
    | none => .fail .integerText
  | _ => .fail .notInteger

def number : Json → Checked Float
  | .float x => .ok x
  | .int n =>
    let x := Float.ofInt n
    if (Decimal.truncated? x).isSome then .ok x else .fail .notNumber
  | .bool b => .ok (if b then 1 else 0)
  | .string s =>
    match Text.liberalDecimal? s with
    | some x => .ok x
    | none => .fail .numberText
  | _ => .fail .notNumber

def trueWords : List String := ["1", "t", "y", "on", "yes", "true"]

def falseWords : List String := ["0", "f", "n", "off", "no", "false"]

def isShort (n : Int) : Bool :=
  let bound : Int := Nat.pow 2 63
  n < bound && -bound ≤ n

/-- One and zero, as numbers and as words, stand for true and false. Any other word or short number is
one that was not understood; the rest have the wrong type. -/
def truth : Json → Checked Bool
  | .bool b => .ok b
  | .int n =>
    if n = 0 then .ok false
    else if n = 1 then .ok true
    else .fail (if isShort n then .boolText else .notBool)
  | .float x => if x == 0 then .ok false else if x == 1 then .ok true else .fail .notBool
  | .string s =>
    let word := s.map Char.toLower
    if trueWords.contains word then .ok true
    else if falseWords.contains word then .ok false
    else .fail .boolText
  | _ => .fail .notBool

def integerFrom (least : Int) (v : Json) : Checked Int :=
  (integer v).test (least ≤ ·) (.atLeast (toString least))

def integerBetween (least most : Int) (v : Json) : Checked Int :=
  (integerFrom least v).test (· ≤ most) (.atMost (toString most))

def natural (v : Json) : Checked Nat :=
  (integerFrom 0 v).map Int.toNat

def positive (v : Json) : Checked Nat :=
  (integerFrom 1 v).map Int.toNat

/-- No bound holds of a value that is no number, and so it is refused. -/
def weight (v : Json) : Checked Float :=
  (number v).test (0 ≤ ·) (.atLeast "0")

def percent (v : Json) : Checked Float :=
  ((number v).test (· ≤ 100) (.atMost "100")).test (0 ≤ ·) (.atLeast "0")

def snakeCase (name : String) : String :=
  String.join (name.toList.map fun c =>
    if c.isUpper then "_" ++ c.toLower.toString else c.toString)

def member? (members : List (String × Json)) (name : String) : Option (String × Json) :=
  (members.find? fun m => m.1 == name) <|> members.find? fun m => m.1 == snakeCase name

def field (members : List (String × Json)) (name : String) (absent : α) (read : Json → Checked α) :
    Checked α :=
  match member? members name with
  | some (key, v) => (read v).under key
  | none => .ok absent

def closed (members : List (String × Json)) (names : List String) (x : Checked α) : Checked α :=
  let used := names.filterMap fun name => (member? members name).map (·.1)
  let extra := (members.filter fun m => !used.contains m.1).map fun m =>
    (⟨[m.1], .unknownKey⟩ : Issue)
  if extra.isEmpty then x else ⟨.error (x.issues ++ extra)⟩

end Reading

end GridRobot
