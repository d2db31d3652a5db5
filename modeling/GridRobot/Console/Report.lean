import GridRobot.Config.Basic
import GridRobot.Console.GridView
import GridRobot.Decimal
import GridRobot.Search.Basic

namespace GridRobot

def labelled (label text : String) : List Cell :=
  [.plain label, .plain text]

def labelledRows (labelWidth : Nat) (rows : List (List Cell)) : Table where
  hasHeader := false
  columns := [{ style := "dim", width := some labelWidth }, {}]
  rows

namespace Puzzle

def facts (q : Puzzle) : List (List Cell) :=
  let start := "(" ++ toString q.start.position.x ++ ", " ++ toString q.start.position.y ++
    ") facing " ++ q.start.heading.name
  let lengths := (q.lengths.entries.filter fun e => 0 < e.2).map fun (r, n) =>
    r.name ++ "=" ++ toString n
  [labelled "start" start,
    labelled "stars" (toString q.stars.length),
    labelled "functions" ("  ".intercalate lengths),
    labelled "allowed" (", ".intercalate (q.allowed.map Action.name)),
    labelled "steps" (toString q.steps)] ++
    if q.quality = 0 then [] else [labelled "quality" (toString q.quality)]

def display (q : Puzzle) (title : String := "Puzzle") : Display :=
  .panel (.group [.text (q.gridText true), .table (labelledRows 14 q.facts)])
    ("[bold]" ++ title ++ "[/bold]") "puzzle.border" (0, 1)

end Puzzle

namespace Action

def glyph : Action → String
  | .forward => "↑"
  | .turn .left => "↶"
  | .turn .right => "↷"
  | .paint .red => "P:r"
  | .paint .green => "P:g"
  | .paint .blue => "P:b"
  | .noop => "·"
  | .call r => r.name
  | .other n => n

end Action

namespace Program

def slotCell : Option Instruction → Cell
  | none => .styled (.plain "·" "puzzle.dim")
  | some i =>
    let style :=
      if i.condition.isSome then "bold white " ++ Color.cellStyle i.condition else "bold"
    .styled (.plain i.action.glyph style)

def display (p : Program) (title : String := "Solution") : Display :=
  let width := (p.body.toList.map List.length).foldl max 0
  let row := fun (entry : Routine × List (Option Instruction)) =>
    .plain entry.1.name :: entry.2.map slotCell ++
      List.replicate (width - entry.2.length) (.styled (.plain ""))
  .table {
    title := some title
    hasHeader := true
    border := "dim"
    columns := { header := "fn", style := "cyan" } ::
      (List.range width).map fun i => { header := toString i, justify := "center" }
    rows := (p.body.entries.filter fun e => !e.2.isEmpty).map row }

end Program

namespace SearchResult

/-- The failures that occurred, most frequent first; of two with one count the later name first. -/
def ranking (t : Tally) : List (Failure × Nat) :=
  (t.entries.filter fun e => e.2 ≠ 0).mergeSort fun a b =>
    decide (b.2 < a.2) || (a.2 == b.2 && !decide (a.1.name < b.1.name))

def rows (r : SearchResult) : List (List Cell) :=
  let (icon, style) :=
    if r.isSuccess then ("✔", "puzzle.success") else ("✘", "puzzle.error")
  let failures := (ranking r.tally).map fun (f, n) => f.name ++ "=" ++ toString n
  [[.plain "outcome", .styled (.plain (icon ++ " " ++ r.outcome.name) style)],
    labelled "attempts" (toString r.attempts),
    labelled "elapsed" (Decimal.fixedText 2 r.elapsed ++ "s")] ++
    (r.seed.map fun n => labelled "seed" (toString n)).toList ++
    ((r.errorName.filter fun n => !n.isEmpty).map fun n =>
      [.plain "last error", .styled (.plain n "puzzle.warning")]).toList ++
    if failures.isEmpty then [] else [labelled "failures" (", ".intercalate failures)]

def display (r : SearchResult) : List Display :=
  [.panel (.table (labelledRows 12 r.rows)) "[dim]Search[/dim]" "dim" (0, 1)] ++
    (r.puzzle.map fun q => q.display).toList ++
    (r.solution.map fun p => p.display).toList

end SearchResult

namespace Preset

def columns : List Column :=
  { header := "Name", style := "cyan" } ::
    ["Slots", "Max steps", "Min tiles", "Min turns", "Stack", "Self-calls"].map fun header =>
      { header, justify := "right" }

def row (p : Preset) : List Cell :=
  let c := p.config
  .plain p.name ::
    [c.totalSlots, c.maxSteps, c.minTiles, c.minTurns, c.minStackDepth, c.minSelfCalls].map
      fun n => .plain (toString n)

def display (ps : List Preset) : Display :=
  .table {
    title := some "Presets"
    hasHeader := true
    border := "dim"
    columns
    rows := ps.map row }

end Preset

namespace Display

def error (message : String) : Display :=
  .panel (.text (.plain message "red")) "[bold red]Error[/bold red]" "red" (0, 2)

def info (message : String) : Display :=
  .line ("  [puzzle.info]" ++ message ++ "[/puzzle.info]")

end Display

end GridRobot
