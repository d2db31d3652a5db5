import GridRobot.Config.Basic
import GridRobot.Decimal
import GridRobot.Program.Basic
import GridRobot.Run.Evaluation

namespace GridRobot

structure Puzzle where
  grid : Grid
  start : Pose
  lengths : PerRoutine Int
  allowed : List Action := []
  steps : Int := 0
  quality : Int := 0
  instructionCount : Int := 0
  deriving DecidableEq

namespace Puzzle

def stars (p : Puzzle) : List Position :=
  p.grid.stars

end Puzzle

namespace Config

def allowedActions (c : Config) : List Action :=
  [.forward, .turn .left, .turn .right] ++ c.callable.map .call ++ Action.paints

def lengths (c : Config) : PerRoutine Int :=
  .ofFn fun r => c.slotsPerRoutine.get r

end Config

/-! ## Packaging -/

variable {σ : Type} [RandomSource σ]

namespace Grid

def withStars (g : Grid) (ps : List Position) : Grid :=
  ps.foldl (fun g p => g.modify p fun t => { t with hasStar := true }) g

end Grid

namespace Trace

def quality (t : Trace) (c : Config) : Int :=
  let covered := t.coverage c.totalSlots / 100
  let turns := Float.ofNat (min (t.turnPositions.size * 2) 15)
  let fifth := Float.ofNat t.path.size / 5
  let length := if 15 < fifth then 15 else fifth
  (Decimal.scaled? 0 (50 + covered * 20 + turns + length)).getD 0

def starPositions (t : Trace) : List Position :=
  t.turnPositions.toList ++ [t.final.position]

end Trace

namespace Attempt

def solution (a : Attempt) : Program :=
  a.program.pruned a.trace.executed.contains

def puzzle (a : Attempt) (c : Config) : Puzzle where
  grid := a.trace.unpainted.withStars a.trace.starPositions
  start := a.trace.start
  lengths := c.lengths
  allowed := c.allowedActions
  steps := a.trace.steps
  quality := a.trace.quality c
  instructionCount := a.solution.instructionCount

end Attempt

def verify (q : Puzzle) (solution : Program) (c : Config) : StateM σ (Except VoidStart Attempt) :=
  simulate solution c { grid := some q.grid, start := some q.start }

end GridRobot
