import GridRobot.Grid
import GridRobot.Run.Execution

namespace GridRobot

inductive Failure where
  | boundary
  | coverage
  | loop
  | minTiles
  | minBoundingBox
  | minTurns
  | density
  | minStackDepth
  | minSelfCalls
  | pathTraceRatio
  | minPathLength
  | minConditionals
  | minPaintRevisits
  | unnecessaryPaint
  | other
  deriving DecidableEq

namespace Failure

def all : List Failure := [
  .boundary, .coverage, .loop, .minTiles, .minBoundingBox, .minTurns, .density, .minStackDepth,
  .minSelfCalls, .pathTraceRatio, .minPathLength, .minConditionals, .minPaintRevisits,
  .unnecessaryPaint, .other]

def name : Failure → String
  | .boundary => "boundary"
  | .coverage => "coverage"
  | .loop => "loop"
  | .minTiles => "minTiles"
  | .minBoundingBox => "minBoundingBox"
  | .minTurns => "minTurns"
  | .density => "density"
  | .minStackDepth => "minStackDepth"
  | .minSelfCalls => "minSelfCalls"
  | .pathTraceRatio => "pathTraceRatio"
  | .minPathLength => "minPathLength"
  | .minConditionals => "minConditionals"
  | .minPaintRevisits => "minPaintRevisits"
  | .unnecessaryPaint => "unnecessaryPaint"
  | .other => "other"

def ofName? (s : String) : Option Failure :=
  all.find? fun f => f.name == s

@[simp]
theorem mem_all (f : Failure) : f ∈ all := by
  cases f <;> simp [all]

end Failure

/-- What breaks off the judging of a run. The figures of an unreportable failure exceed the range of
floating-point numbers. -/
inductive Breakdown where
  | void (e : VoidStart)
  | unreportable
  deriving DecidableEq

/-- The outcome of judging a run. A failure says what was measured and what was required. -/
inductive Verdict where
  | passed
  | failed (failure : Failure) (measured required : Float)
  | broken (b : Breakdown)

namespace Verdict

def isPassed : Verdict → Bool
  | .passed => true
  | _ => false

def passes : Verdict → Except Breakdown Bool
  | .passed => .ok true
  | .failed _ _ _ => .ok false
  | .broken b => .error b

def failure? : Verdict → Option Failure
  | .failed f _ _ => some f
  | _ => none

/-- The least whole number that rounds beyond the range of floating-point numbers. -/
def rangeEnd : Nat := Nat.pow 2 1024 - Nat.pow 2 970

def ofCounts (f : Failure) (measured required : Nat) : Verdict :=
  if measured < rangeEnd ∧ required < rangeEnd then
    .failed f (Float.ofNat measured) (Float.ofNat required)
  else .broken .unreportable

end Verdict

/-! ## Thresholds -/

variable {σ : Type} [RandomSource σ]

namespace Trace

def belowCount (f : Failure) (measured required : Nat) : Option Verdict :=
  if measured < required then some (.ofCounts f measured required) else none

def aboveCount (f : Failure) (measured allowed : Nat) : Option Verdict :=
  if allowed < measured then some (.ofCounts f measured allowed) else none

def below (f : Failure) (measured required : Float) : Option Verdict :=
  if measured < required then some (.failed f measured required) else none

def endsIn (t : Trace) (terminal : Terminal) (f : Failure) : Option Verdict :=
  if t.terminal = terminal then some (.ofCounts f t.steps 0) else none

def checks (t : Trace) (c : Config) : List (Option Verdict) := [
  t.endsIn .boundary .boundary,
  t.endsIn .loop .loop,
  below .coverage (t.coverage c.totalSlots) c.minCoverage,
  belowCount .minTiles t.world.tileCount c.minTiles,
  belowCount .minBoundingBox (max t.world.boundingBox.1 t.world.boundingBox.2) c.minBoundingBox,
  belowCount .minTurns t.turnPositions.size c.minTurns,
  aboveCount .density (t.world.denseCount Grid.denseThreshold) c.maxDenseTiles,
  belowCount .minStackDepth t.stackDepth c.minStackDepth,
  belowCount .minSelfCalls t.selfCalls.size c.minSelfCalls,
  belowCount .minPathLength t.pathLength c.minPathLength,
  below .pathTraceRatio (Float.ofNat (retraceLength t.start.heading t.path.toList))
    (c.minRetraceRatio * Float.ofNat c.totalSlots),
  belowCount .minConditionals t.conditional.size c.minConditionals,
  if 0 < c.minPaintRevisits ∧
      (t.painted.isEmpty = true ∨ t.paintRevisits < c.minPaintRevisits) then
    some (.ofCounts .minPaintRevisits t.paintRevisits c.minPaintRevisits)
  else none]

def assess (t : Trace) (c : Config) : Verdict :=
  ((t.checks c).findSome? id).getD .passed

def paintSlots (t : Trace) (p : Program) : List Slot :=
  t.executed.keys.filter fun s => (p.at? s).any (·.action.isPaint)

end Trace

/-- The program still passes on this world with one slot's paint suppressed. -/
def passesWithout (p : Program) (c : Config) (window : Nat) (world : Grid) (start : Pose)
    (slot : Slot) : StateM σ (Except Breakdown Bool) := do
  match ← execute p c ⟨some world, some start, window⟩ fun s => s == slot with
  | .ok t => return (t.assess c).passes
  | .error e => return .error (.void e)

/-- How many of the slots are unneeded, `found` of others being so; the count stops once it exceeds
the budget, or with a re-run that cannot be judged. -/
def countUnneeded (p : Program) (c : Config) (window : Nat) (world : Grid) (start : Pose) :
    Nat → List Slot → StateM σ (Except Breakdown Nat)
  | found, [] => return .ok found
  | found, slot :: rest => do
    match ← passesWithout p c window world start slot with
    | .error b => return .error b
    | .ok true =>
      if c.maxUnneededPaints < (found + 1 : Nat) then return .ok (found + 1)
      else countUnneeded p c window world start (found + 1) rest
    | .ok false => countUnneeded p c window world start found rest

namespace Trace

/-- The verdict on a trace. Paints are examined only if the run passes all else, painted something,
and the configuration sets a budget for them. -/
def evaluate (t : Trace) (p : Program) (c : Config) (window : Nat) : StateM σ Verdict := do
  match t.assess c with
  | .passed =>
    if 0 ≤ c.maxUnneededPaints ∧ t.painted.isEmpty = false then
      match ← countUnneeded p c window t.unpainted t.start 0 (t.paintSlots p) with
      | .ok unneeded =>
        if c.maxUnneededPaints < unneeded then
          return .ofCounts .unnecessaryPaint unneeded c.maxUnneededPaints.toNat
        else return .passed
      | .error b => return .broken b
    else return .passed
  | v => return v

end Trace

structure Attempt where
  program : Program
  trace : Trace
  verdict : Verdict

def simulate (p : Program) (c : Config) (s : Setting) : StateM σ (Except VoidStart Attempt) := do
  match ← execute p c s with
  | .ok trace => return .ok ⟨p, trace, ← trace.evaluate p c s.window⟩
  | .error e => return .error e

end GridRobot
