import GridRobot.Console.Display
import GridRobot.Puzzle

namespace GridRobot

inductive Mark where
  | robot (h : Heading)
  | star
  | bare
  deriving DecidableEq

inductive DrawnCell where
  | void
  | tile (color : Option Color) (mark : Mark)
  deriving DecidableEq

def Color.cellStyle : Option Color → String
  | some .red => "on red3"
  | some .green => "on green4"
  | some .blue => "on blue3"
  | none => "on grey50"

namespace Mark

def robotGlyph : Heading → String
  | .up => "▲"
  | .down => "▼"
  | .left => "◀"
  | .right => "▶"

def glyphs : Mark → String
  | .robot h => robotGlyph h ++ " "
  | .star => "★ "
  | .bare => "  "

end Mark

def DrawnCell.piece : DrawnCell → String × String
  | .void => ("  ", "")
  | .tile color mark => (mark.glyphs, "bold white " ++ Color.cellStyle color)

namespace Puzzle

def tiledRows (q : Puzzle) : List Nat :=
  (List.range q.grid.height).filter fun (y : Nat) =>
    (List.range q.grid.width).any fun (x : Nat) => (q.grid.tile? ⟨x, y⟩).isSome

def tiledColumns (q : Puzzle) : List Nat :=
  (List.range q.grid.width).filter fun (x : Nat) =>
    (List.range q.grid.height).any fun (y : Nat) => (q.grid.tile? ⟨x, y⟩).isSome

def extentOf (xs : List Nat) : List Nat :=
  match xs.head?, xs.getLast? with
  | some first, some last => (List.range (last + 1)).drop first
  | _, _ => []

def drawnRange (q : Puzzle) (crop : Bool) : List Nat × List Nat :=
  if crop && !q.tiledRows.isEmpty && !q.tiledColumns.isEmpty then
    (extentOf q.tiledRows, extentOf q.tiledColumns)
  else (List.range q.grid.height, List.range q.grid.width)

def drawnCell (q : Puzzle) (p : Position) : DrawnCell :=
  match q.grid.tile? p with
  | none => .void
  | some t =>
    .tile t.color <|
      if p = q.start.position then .robot q.start.heading
      else if t.hasStar then .star
      else .bare

def drawnCells (q : Puzzle) (crop : Bool) : List (List DrawnCell) :=
  let (rows, columns) := q.drawnRange crop
  rows.map fun (y : Nat) => columns.map fun (x : Nat) => q.drawnCell ⟨x, y⟩

def gridText (q : Puzzle) (crop : Bool) : StyledText :=
  .ofPieces ((q.drawnCells crop).flatMap fun row => row.map DrawnCell.piece ++ [("\n", "")])

end Puzzle

end GridRobot
