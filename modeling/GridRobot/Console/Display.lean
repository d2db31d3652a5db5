namespace GridRobot

structure Span where
  start : Nat
  stop : Nat
  style : String
  deriving DecidableEq

structure StyledText where
  text : String
  style : String := ""
  spans : List Span := []
  deriving DecidableEq

namespace StyledText

def isShown (c : Char) : Bool :=
  !([7, 8, 11, 12, 13].contains c.toNat)

def plain (text : String) (style : String := "") : StyledText where
  text := String.ofList (text.toList.filter isShown)
  style

/-- The spans of consecutive pieces, each a text and its style, from position `start` on. A piece
without a style has no span, and neither has an empty one. -/
def spansOf (start : Nat) : List (String × String) → List Span
  | [] => []
  | (text, style) :: rest =>
    let stop := start + text.length
    if style.isEmpty || text.isEmpty then spansOf stop rest
    else ⟨start, stop, style⟩ :: spansOf stop rest

def ofPieces (pieces : List (String × String)) : StyledText where
  text := String.join (pieces.map (·.1))
  spans := spansOf 0 pieces

end StyledText

structure Column where
  header : String := ""
  style : String := ""
  justify : String := "left"
  width : Option Nat := none
  deriving DecidableEq

inductive Cell where
  | plain (text : String)
  | styled (text : StyledText)
  deriving DecidableEq

structure Table where
  title : Option String := none
  hasHeader : Bool
  border : String := ""
  columns : List Column
  rows : List (List Cell)
  deriving DecidableEq

inductive Display where
  | line (markup : String)
  | text (t : StyledText)
  | table (t : Table)
  | group (items : List Display)
  | panel (body : Display) (title border : String) (padding : Nat × Nat)

/-! ## Plain text -/

def untagged (cs : List Char) : List Char :=
  go false cs
where
  go (inTag : Bool) : List Char → List Char
    | [] => []
    | '[' :: rest => go true rest
    | ']' :: rest => if inTag then go false rest else ']' :: go false rest
    | c :: rest => if inTag then go true rest else c :: go false rest

def plainText (markup : String) : String :=
  String.ofList (untagged markup.toList)

namespace StyledText

def lines (t : StyledText) : List String :=
  let all := t.text.splitOn "\n"
  if all.getLast? = some "" then all.dropLast else all

end StyledText

namespace Table

def cellText : Cell → String
  | .plain text => text
  | .styled t => t.text

def textRows (t : Table) : List (List String) :=
  (if t.hasHeader then [t.columns.map Column.header] else []) ++ t.rows.map (·.map cellText)

def widths (t : Table) : List Nat :=
  (List.range t.columns.length).map fun i =>
    (t.textRows.map fun row => ((row[i]?).getD "").length).foldl max 0

def lines (t : Table) : List String :=
  t.title.toList ++ t.textRows.map fun row =>
    "  ".intercalate ((row.zip t.widths).map fun (text, width) =>
      text.pushn ' ' (width - text.length))

end Table

namespace Display

mutual

def lines : Display → List String
  | .line markup => [plainText markup]
  | .text t => t.lines
  | .table t => t.lines
  | .group items => groupLines items
  | .panel body title _ _ => ("── " ++ plainText title ++ " ──") :: lines body

def groupLines : List Display → List String
  | [] => []
  | item :: rest => lines item ++ groupLines rest

end

end Display

end GridRobot
