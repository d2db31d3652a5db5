import GridRobot.Json.Reader
import GridRobot.Text.Integer

namespace GridRobot.Text

def plainInteger? (cs : List Char) : Option Int :=
  let value := fun (ds : List Char) =>
    match ds with
    | [] => none
    | ['0'] => some 0
    | '0' :: _ => none
    | ds => if ds.all Char.isDigit then some (Json.digitsValue ds) else none
  match cs with
  | '-' :: ds => (value ds).map fun n => -(n : Int)
  | ds => (value ds).map fun n => (n : Int)

/-- Leading zeros taken off, with underscores among them. A number that is only zeros keeps its last
character, and one zero stays before a point. -/
def withoutLeadingZeros? (cs : List Char) : Option (List Char) :=
  match cs with
  | '0' :: rest => go '0' rest
  | c :: _ => if c.isDigit || c == '-' then some cs else none
  | [] => none
where
  go (last : Char) : List Char → Option (List Char)
    | [] => some [last]
    | '.' :: rest => some (last :: '.' :: rest)
    | c :: rest =>
      if c == '0' || c == '_' then go c rest
      else if c.isDigit then some (c :: rest)
      else none

def withoutZeroPlaces (cs : List Char) : List Char :=
  match cs.dropWhile (· != '.') with
  | '.' :: places => if places.all (· == '0') then cs.takeWhile (· != '.') else cs
  | _ => cs

def withoutUnderscores? (cs : List Char) : Option (List Char) :=
  let doubled := (cs.zip (cs.drop 1)).contains ('_', '_')
  if cs.contains '_' && !doubled && cs.head? != some '_' && cs.getLast? != some '_' then
    some (cs.filter (· != '_'))
  else none

def bareInteger? (cs : List Char) : Option (List Char) := do
  let unsigned ←
    match trimmed cs with
    | '+' :: '-' :: _ => none
    | '+' :: rest => some rest
    | rest => some rest
  let bare := withoutZeroPlaces (← withoutLeadingZeros? unsigned)
  match withoutUnderscores? bare with
  | some bare => some bare
  | none => if bare.length = cs.length then none else some bare

def liberalInteger? (s : String) : Option Int :=
  let cs := s.toList
  plainInteger? cs <|> (bareInteger? cs).bind plainInteger?

/-- A decimal number with an optional sign, point and exponent, or a word for infinity or for what is
no number. -/
def decimal? (cs : List Char) : Option Float :=
  let magnitude := fun (cs : List Char) =>
    let word := String.ofList (cs.map Char.toLower)
    if word = "inf" ∨ word = "infinity" then some (1.0 / 0.0)
    else if word = "nan" then some (0.0 / 0.0)
    else
      let ds := cs.takeWhile Char.isDigit
      let rest := cs.drop ds.length
      let (places, rest) :=
        match rest with
        | '.' :: rest => (rest.takeWhile Char.isDigit, rest.dropWhile Char.isDigit)
        | _ => ([], rest)
      let (power?, rest) := Json.exponent? rest
      if (ds ++ places).isEmpty || !rest.isEmpty then none
      else some (Json.floatOfScaled false (Json.digitsValue (ds ++ places))
        (power?.getD 0 - places.length))
  match cs with
  | '-' :: rest => (magnitude rest).map fun x => -x
  | '+' :: rest => magnitude rest
  | _ => magnitude cs

def liberalDecimal? (s : String) : Option Float :=
  let cs := s.toList
  decimal? (trimmed cs) <|> (withoutUnderscores? cs).bind fun bare => decimal? (trimmed bare)

/-! ## Numbers as people write them -/

def underscoresBetweenDigits (before : Option Char) : List Char → Bool
  | [] => true
  | '_' :: rest =>
    before.any Char.isDigit && rest.head?.any Char.isDigit &&
      underscoresBetweenDigits (some '_') rest
  | c :: rest => underscoresBetweenDigits (some c) rest

def asciiDigit (c : Char) : Char :=
  match decimalDigit? c with
  | some d => Nat.digitChar d
  | none => c

def real? (s : String) : Option Float :=
  let cs := (trimmed s.toList).map asciiDigit
  if underscoresBetweenDigits none cs then decimal? (cs.filter (· != '_')) else none

end GridRobot.Text
