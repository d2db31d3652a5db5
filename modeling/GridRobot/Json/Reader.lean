import GridRobot.Json.Basic

/-!
Reading stored values from text. Besides the standard grammar the words `NaN`, `Infinity` and
`-Infinity` are numbers. A key that occurs twice keeps its first place and its last value.
-/

namespace GridRobot.Json

def isBlank (c : Char) : Bool :=
  c == ' ' || c == '\t' || c == '\n' || c == '\r'

def skipBlank (cs : List Char) : List Char :=
  cs.dropWhile isBlank

def hexValue? (c : Char) : Option Nat :=
  if c.isDigit then some (c.toNat - '0'.toNat)
  else if 'a' ≤ c ∧ c ≤ 'f' then some (c.toNat - 'a'.toNat + 10)
  else if 'A' ≤ c ∧ c ≤ 'F' then some (c.toNat - 'A'.toNat + 10)
  else none

def hexUnit? : List Char → Option (Nat × List Char)
  | a :: b :: c :: d :: rest => do
    let digits ← [a, b, c, d].mapM hexValue?
    some (digits.foldl (fun n d => 16 * n + d) 0, rest)
  | _ => none

/-- The character of a `\u` escape, whose four digits come next; a high surrogate takes the low one
that follows it. -/
def unicodeEscape? (cs : List Char) : Option (Char × List Char) := do
  let (high, rest) ← hexUnit? cs
  match rest with
  | '\\' :: 'u' :: more =>
    if 0xd800 ≤ high ∧ high < 0xdc00 then
      match hexUnit? more with
      | some (low, after) =>
        if 0xdc00 ≤ low ∧ low < 0xe000 then
          some (Char.ofNat (0x10000 + (high - 0xd800) * 0x400 + (low - 0xdc00)), after)
        else some ('\ufffd', rest)
      | none => some ('\ufffd', rest)
    else some (Char.ofNat high, rest)
  | _ => some (if 0xd800 ≤ high ∧ high < 0xe000 then '\ufffd' else Char.ofNat high, rest)

def simpleEscape? : Char → Option Char
  | '"' => some '"'
  | '\\' => some '\\'
  | '/' => some '/'
  | 'b' => some '\x08'
  | 'f' => some '\x0c'
  | 'n' => some '\n'
  | 'r' => some '\r'
  | 't' => some '\t'
  | _ => none

def stringBody? : Nat → List Char → List Char → Option (String × List Char)
  | 0, _, _ => none
  | fuel + 1, read, cs =>
    match cs with
    | '"' :: rest => some (String.ofList read.reverse, rest)
    | '\\' :: 'u' :: rest => do
      let (c, rest) ← unicodeEscape? rest
      stringBody? fuel (c :: read) rest
    | '\\' :: c :: rest => do
      let c ← simpleEscape? c
      stringBody? fuel (c :: read) rest
    | c :: rest => if c.toNat < 0x20 then none else stringBody? fuel (c :: read) rest
    | [] => none

def digitsValue (ds : List Char) : Nat :=
  ds.foldl (fun n d => 10 * n + (d.toNat - '0'.toNat)) 0

def floatOfScaled (negative : Bool) (n : Nat) (power : Int) : Float :=
  let size :=
    if n = 0 then 0.0
    else
      let lead : Int := (Nat.toDigits 10 n).length + power
      if 400 < lead then 1.0 / 0.0
      else if lead < -400 then 0.0
      else Float.ofScientific n (power < 0) power.natAbs
  if negative then -size else size

def fraction (cs : List Char) : List Char × List Char :=
  match cs with
  | '.' :: rest =>
    let ds := rest.takeWhile Char.isDigit
    if ds.isEmpty then ([], cs) else (ds, rest.dropWhile Char.isDigit)
  | _ => ([], cs)

/-- The exponent in the digits that come next. Without digits the text goes on at the mark, with `cs`. -/
def exponentDigits (cs : List Char) (negative : Bool) (rest : List Char) : Option Int × List Char :=
  let ds := rest.takeWhile Char.isDigit
  if ds.isEmpty then (none, cs)
  else
    let n : Int := digitsValue ds
    (some (if negative then -n else n), rest.dropWhile Char.isDigit)

def signedExponent (cs : List Char) : List Char → Option Int × List Char
  | '-' :: rest => exponentDigits cs true rest
  | '+' :: rest => exponentDigits cs false rest
  | rest => exponentDigits cs false rest

def exponent? : List Char → Option Int × List Char
  | [] => (none, [])
  | c :: rest =>
    if c == 'e' || c == 'E' then signedExponent (c :: rest) rest else (none, c :: rest)

def wholeDigits (cs : List Char) : List Char :=
  match cs with
  | '0' :: _ => ['0']
  | _ => cs.takeWhile Char.isDigit

def magnitude? (negative : Bool) (cs : List Char) : Option (Json × List Char) :=
  let ds := wholeDigits cs
  if ds.isEmpty then none
  else
    let (places, rest) := fraction (cs.drop ds.length)
    let (power?, rest) := exponent? rest
    if places.isEmpty && power?.isNone then
      let n : Int := digitsValue ds
      some (int (if negative then -n else n), rest)
    else
      some (float (floatOfScaled negative (digitsValue (ds ++ places))
        (power?.getD 0 - places.length)), rest)

def number? (cs : List Char) : Option (Json × List Char) :=
  match cs with
  | '-' :: rest => magnitude? true rest
  | _ => magnitude? false cs

def words : List (String × Json) :=
  [("null", null), ("true", bool true), ("false", bool false), ("NaN", float (0.0 / 0.0)),
    ("Infinity", float (1.0 / 0.0)), ("-Infinity", float (-1.0 / 0.0))]

def word? (cs : List Char) : Option (Json × List Char) :=
  words.findSome? fun (w, v) =>
    if w.toList.isPrefixOf cs then some (v, cs.drop w.length) else none

mutual

/-- One value; `fuel` bounds the nesting and the length together. -/
def value? : Nat → List Char → Option (Json × List Char)
  | 0, _ => none
  | fuel + 1, cs =>
    match cs with
    | '"' :: rest => do
      let (s, rest) ← stringBody? (rest.length + 1) [] rest
      some (string s, rest)
    | '[' :: rest =>
      match skipBlank rest with
      | ']' :: rest => some (array [], rest)
      | rest => items? fuel [] rest
    | '{' :: rest =>
      match skipBlank rest with
      | '}' :: rest => some (object [], rest)
      | rest => members? fuel [] rest
    | cs => word? cs <|> number? cs

def items? : Nat → List Json → List Char → Option (Json × List Char)
  | 0, _, _ => none
  | fuel + 1, read, cs => do
    let (v, rest) ← value? fuel (skipBlank cs)
    match skipBlank rest with
    | ',' :: rest => items? fuel (v :: read) rest
    | ']' :: rest => some (array (v :: read).reverse, rest)
    | _ => none

def members? : Nat → List (String × Json) → List Char → Option (Json × List Char)
  | 0, _, _ => none
  | fuel + 1, read, cs => do
    match skipBlank cs with
    | '"' :: rest =>
      let (key, rest) ← stringBody? (rest.length + 1) [] rest
      match skipBlank rest with
      | ':' :: rest =>
        let (v, rest) ← value? fuel (skipBlank rest)
        let read := assign read key v
        match skipBlank rest with
        | ',' :: rest => members? fuel read rest
        | '}' :: rest => some (object read, rest)
        | _ => none
      | _ => none
    | _ => none

end

def parse? (text : String) : Option Json :=
  let cs := text.toList
  match value? (2 * cs.length + 2) (skipBlank cs) with
  | some (v, rest) => if (skipBlank rest).isEmpty then some v else none
  | none => none

end GridRobot.Json
