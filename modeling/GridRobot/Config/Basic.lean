import GridRobot.Collections
import GridRobot.Program.Instruction

namespace GridRobot

structure ColorRatios where
  red : Float := 1
  green : Float := 1
  blue : Float := 1

/-- Relative weights for the actions of new programs; `turn` is shared by both turns. -/
structure ActionWeights where
  forward : Float := 3
  turn : Float := 2
  call : Float := 3
  paint : Float := 2

structure Config where
  slotsPerRoutine : PerRoutine Nat := ⟨10, 10, 10, 10, 10⟩
  maxSteps : Nat := 1000
  gridSize : Nat := 16
  colorRatios : ColorRatios := {}
  minCoverage : Float := 80
  conditionalPercent : Float := 70
  weights : ActionWeights := {}
  minTiles : Nat := 12
  minBoundingBox : Nat := 3
  minTurns : Nat := 2
  maxDenseTiles : Nat := 3
  /-- A run may stop once its steps exceed this many for each executed slot. -/
  maxAverageExecutions : Float := 1
  minStackDepth : Nat := 1
  minSelfCalls : Nat := 0
  restartAfter : Nat := 1000
  minRetraceRatio : Float := 1
  ignoreLoops : Bool := false
  minPathLength : Nat := 0
  minConditionals : Nat := 0
  minPaintRevisits : Nat := 0
  /-- Negative: unneeded paints are not looked for. -/
  maxUnneededPaints : Int := -1

namespace Config

def maxSlots : Nat := 20

def maxGridSize : Nat := 256

/-- The bounds that hold of every configuration read from a record. -/
structure Valid (c : Config) : Prop where
  slots : ∀ r, c.slotsPerRoutine.get r ≤ maxSlots
  steps : 1 ≤ c.maxSteps
  grid : 1 ≤ c.gridSize ∧ c.gridSize ≤ maxGridSize
  ratios : 0 ≤ c.colorRatios.red ∧ 0 ≤ c.colorRatios.green ∧ 0 ≤ c.colorRatios.blue
  coverage : 0 ≤ c.minCoverage ∧ c.minCoverage ≤ 100
  conditional : 0 ≤ c.conditionalPercent ∧ c.conditionalPercent ≤ 100
  weights : 0 ≤ c.weights.forward ∧ 0 ≤ c.weights.turn ∧ 0 ≤ c.weights.call ∧ 0 ≤ c.weights.paint
  averageExecutions : 0 ≤ c.maxAverageExecutions
  restart : 1 ≤ c.restartAfter
  retraceRatio : 0 ≤ c.minRetraceRatio
  unneededPaints : -1 ≤ c.maxUnneededPaints

def totalSlots (c : Config) : Nat :=
  sum c.slotsPerRoutine.toList

def callable (c : Config) : List Routine :=
  Routine.all.filter fun r => 0 < c.slotsPerRoutine.get r

end Config

/-! ## Presets -/

inductive Preset where
  | standard
  | easy
  | challenge
  deriving DecidableEq

namespace Preset

def all : List Preset := [.standard, .easy, .challenge]

def name : Preset → String
  | .standard => "default"
  | .easy => "easy"
  | .challenge => "challenge"

def ofName? (s : String) : Option Preset :=
  all.find? fun p => p.name == s

def config : Preset → Config
  | .standard => {}
  | .easy => {
      slotsPerRoutine := ⟨5, 0, 0, 0, 0⟩
      maxSteps := 500
      colorRatios := ⟨1, 1, 0⟩
      conditionalPercent := 30
      weights := ⟨4, 3, 0, 0⟩
      minTiles := 8
      maxAverageExecutions := 5
      restartAfter := 500
      minPathLength := 10 }
  | .challenge => {
      slotsPerRoutine := ⟨5, 3, 0, 0, 0⟩
      conditionalPercent := 50
      weights := ⟨3, 2, 3, 0⟩
      minBoundingBox := 4
      minTurns := 3
      maxDenseTiles := 4
      maxAverageExecutions := 8
      minStackDepth := 2
      minSelfCalls := 1
      minRetraceRatio := 1.2
      minPathLength := 20
      minConditionals := 2 }

end Preset

/-! ## Bounds -/

namespace Config

theorem valid_iff (c : Config) :
    c.Valid ↔
      (∀ r ∈ Routine.all, c.slotsPerRoutine.get r ≤ maxSlots) ∧ 1 ≤ c.maxSteps ∧
      (1 ≤ c.gridSize ∧ c.gridSize ≤ maxGridSize) ∧
      (0 ≤ c.colorRatios.red ∧ 0 ≤ c.colorRatios.green ∧ 0 ≤ c.colorRatios.blue) ∧
      (0 ≤ c.minCoverage ∧ c.minCoverage ≤ 100) ∧
      (0 ≤ c.conditionalPercent ∧ c.conditionalPercent ≤ 100) ∧
      (0 ≤ c.weights.forward ∧ 0 ≤ c.weights.turn ∧ 0 ≤ c.weights.call ∧ 0 ≤ c.weights.paint) ∧
      0 ≤ c.maxAverageExecutions ∧ 1 ≤ c.restartAfter ∧ 0 ≤ c.minRetraceRatio ∧
      -1 ≤ c.maxUnneededPaints := by
  constructor
  · rintro ⟨slots, steps, grid, ratios, coverage, conditional, weights, average, restart, retrace, paints⟩
    exact ⟨fun r _ => slots r, steps, grid, ratios, coverage, conditional, weights, average, restart,
      retrace, paints⟩
  · rintro ⟨slots, steps, grid, ratios, coverage, conditional, weights, average, restart, retrace, paints⟩
    exact ⟨fun r => slots r r.mem_all, steps, grid, ratios, coverage, conditional, weights, average,
      restart, retrace, paints⟩

instance (c : Config) : Decidable c.Valid :=
  decidable_of_iff' _ c.valid_iff

end Config

theorem Preset.valid (p : Preset) : p.config.Valid := by
  cases p <;> decide

end GridRobot
