import GridRobot.Decimal
import GridRobot.Text.Quoted

namespace GridRobot

inductive Json where
  | null
  | bool (b : Bool)
  | int (n : Int)
  | float (x : Float)
  | string (s : String)
  | array (items : List Json)
  | object (members : List (String × Json))
  deriving Inhabited

namespace Json

instance : Coe String Json := ⟨string⟩
instance : Coe Int Json := ⟨int⟩
instance : Coe Bool Json := ⟨bool⟩

def nat (n : Nat) : Json := int n

def ofOption (f : α → Json) : Option α → Json
  | some a => f a
  | none => null

def lookup? (members : List (String × Json)) (key : String) : Option Json :=
  (members.find? fun m => m.1 == key).map (·.2)

def get? : Json → String → Option Json
  | object members, key => lookup? members key
  | _, _ => none

def assign (members : List (String × Json)) (key : String) (v : Json) : List (String × Json) :=
  if members.any fun m => m.1 == key then
    members.map fun m => if m.1 == key then (key, v) else m
  else members ++ [(key, v)]

/-- Whether the value counts as present: null, false, zero and everything empty do not. -/
def isTruthy : Json → Bool
  | null => false
  | bool b => b
  | int n => n != 0
  | float x => x != 0
  | string s => !s.isEmpty
  | array items => !items.isEmpty
  | object members => !members.isEmpty

/-! ## Writing -/

def unicodeEscape (n : Nat) : String :=
  "\\u" ++ Text.hex 4 n

/-- A character of stored text; one that is not printable ASCII is written by its code units. -/
def storedChar (c : Char) : String :=
  if c == '"' then "\\\""
  else if c == '\\' then "\\\\"
  else if c == '\n' then "\\n"
  else if c == '\r' then "\\r"
  else if c == '\t' then "\\t"
  else if c == '\x08' then "\\b"
  else if c == '\x0c' then "\\f"
  else if c.toNat < 0x20 then unicodeEscape c.toNat
  else if c.toNat < 0x7f then c.toString
  else if c.toNat < 0x10000 then unicodeEscape c.toNat
  else
    let offset := c.toNat - 0x10000
    unicodeEscape (0xd800 + offset / 0x400) ++ unicodeEscape (0xdc00 + offset % 0x400)

def storedString (s : String) : String :=
  "\"" ++ String.join (s.toList.map storedChar) ++ "\""

def storedFloat (x : Float) : String :=
  match Decimal.Value.ofFloat x with
  | .notANumber => "NaN"
  | .infinite negative => if negative then "-Infinity" else "Infinity"
  | .finite .. => Decimal.text x

inductive Spacing where
  | compact
  | indented (step : Nat)

def Spacing.enclose (sp : Spacing) (depth : Nat) (opening closing : String) (items : List String) :
    String :=
  if items.isEmpty then opening ++ closing
  else
    match sp with
    | .compact => opening ++ ",".intercalate items ++ closing
    | .indented step =>
      let line := fun depth => "\n" ++ "".pushn ' ' (step * depth)
      opening ++ line (depth + 1) ++ ("," ++ line (depth + 1)).intercalate items ++ line depth ++
        closing

def Spacing.colon : Spacing → String
  | .compact => ":"
  | .indented _ => ": "

mutual

def render (sp : Spacing) (depth : Nat) : Json → String
  | null => "null"
  | bool b => if b then "true" else "false"
  | int n => toString n
  | float x => storedFloat x
  | string s => storedString s
  | array items => sp.enclose depth "[" "]" (renderItems sp (depth + 1) items)
  | object members => sp.enclose depth "\x7b" "\x7d" (renderMembers sp (depth + 1) members)

def renderItems (sp : Spacing) (depth : Nat) : List Json → List String
  | [] => []
  | v :: rest => render sp depth v :: renderItems sp depth rest

def renderMembers (sp : Spacing) (depth : Nat) : List (String × Json) → List String
  | [] => []
  | (key, v) :: rest =>
    (storedString key ++ sp.colon ++ render sp depth v) :: renderMembers sp depth rest

end

mutual

def shown : Json → String
  | null => "None"
  | bool b => if b then "True" else "False"
  | int n => toString n
  | float x => Decimal.text x
  | string s => Text.quoted s
  | array items => "[" ++ ", ".intercalate (shownItems items) ++ "]"
  | object members => "\x7b" ++ ", ".intercalate (shownMembers members) ++ "\x7d"

def shownItems : List Json → List String
  | [] => []
  | v :: rest => shown v :: shownItems rest

def shownMembers : List (String × Json) → List String
  | [] => []
  | (key, v) :: rest => (Text.quoted key ++ ": " ++ shown v) :: shownMembers rest

end

end Json

end GridRobot
