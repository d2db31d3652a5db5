import GridRobot.Collections
import GridRobot.Draw
import GridRobot.Grid
import GridRobot.Program.Basic

namespace GridRobot

/-- How a run ended; `completed` means that its budget ran out. -/
inductive Terminal where
  | completed
  | earlyExit
  | boundary
  | loop
  deriving DecidableEq

def Terminal.name : Terminal → String
  | .completed => "completed"
  | .earlyExit => "early_exit"
  | .boundary => "boundary"
  | .loop => "loop"

structure Trace where
  world : Grid
  /-- The same tiles in the colours they had before any paint. -/
  unpainted : Grid
  start : Pose
  /-- The robot's present pose, in the end its last. -/
  final : Pose
  terminal : Terminal := .completed
  path : Array Position
  turnPositions : Array Position := #[]
  executed : ArrivalMap Slot Nat := ∅
  conditional : ArrivalMap Slot Unit := ∅
  selfCalls : ArrivalMap Slot Unit := ∅
  called : PerRoutine Bool := .ofFn fun r => r = .f1
  visited : Array Color := #[]
  painted : ArrivalMap Position Color := ∅
  paintRevisits : Nat := 0
  steps : Nat := 0
  stackDepth : Nat := 1
  boundarySlot : Option Slot := none
  recentForwards : List Slot := []

namespace Trace

def pathLength (t : Trace) : Nat :=
  t.path.size - 1

def calledRoutines (t : Trace) : List Routine :=
  Routine.all.filter t.called.get

def coverage (t : Trace) (total : Nat) : Float :=
  if total = 0 then 100 else Float.ofNat t.executed.size / Float.ofNat total * 100

def averageExecutions (t : Trace) : Float :=
  Float.ofNat t.steps / Float.ofNat t.executed.size

end Trace

/-! ## Runs -/

variable {σ : Type} [RandomSource σ]

/-- What stays the same throughout a run. Paints in `suppressed` slots change nothing, and the last
`window` forwards are remembered. -/
structure Rules where
  program : Program
  config : Config
  suppressed : Slot → Bool := fun _ => false
  window : Nat

/-- A run between two fetches. Its trace holds the present pose. -/
structure Run where
  trace : Trace
  entry : Option Heading := none
  /-- The painted positions from which a forward has been made or tried. -/
  departed : List Position := []
  stack : CallStack := .root

inductive Progress where
  | running (r : Run)
  | ended (t : Trace)

def lastOf (n : Nat) (xs : List α) : List α :=
  xs.drop (xs.length - n)

namespace Trace

def begin? (world : Grid) (start : Pose) : Option Trace :=
  (world.tile? start.position).map fun tile =>
    { world, unpainted := world, start, final := start, path := #[start.position]
      visited := tile.color.toList.toArray }

/-- The step at which a slot is executed. A conditional instruction on a tile that was painted and
left before counts as a revisit, provided it waits for the painted colour. -/
def record (t : Trace) (slot : Slot) (i : Instruction) (departed : List Position) : Trace :=
  let counted :=
    { t with
      executed := t.executed.alter slot fun n => n.getD 0 + 1
      steps := t.steps + 1 }
  match i.condition with
  | none => counted
  | some c =>
    let here := t.final.position
    let revisit := departed.contains here && t.painted.get? here == some c
    { counted with
      conditional := counted.conditional.insert slot ()
      paintRevisits := if revisit then t.paintRevisits + 1 else t.paintRevisits }

section Record

variable (t : Trace) (slot : Slot) (i : Instruction) (departed : List Position)

@[simp]
theorem world_record : (t.record slot i departed).world = t.world := by
  unfold record; cases i.condition <;> rfl

@[simp]
theorem unpainted_record : (t.record slot i departed).unpainted = t.unpainted := by
  unfold record; cases i.condition <;> rfl

@[simp]
theorem start_record : (t.record slot i departed).start = t.start := by
  unfold record; cases i.condition <;> rfl

@[simp]
theorem final_record : (t.record slot i departed).final = t.final := by
  unfold record; cases i.condition <;> rfl

@[simp]
theorem terminal_record : (t.record slot i departed).terminal = t.terminal := by
  unfold record; cases i.condition <;> rfl

@[simp]
theorem path_record : (t.record slot i departed).path = t.path := by
  unfold record; cases i.condition <;> rfl

@[simp]
theorem turnPositions_record : (t.record slot i departed).turnPositions = t.turnPositions := by
  unfold record; cases i.condition <;> rfl

@[simp]
theorem selfCalls_record : (t.record slot i departed).selfCalls = t.selfCalls := by
  unfold record; cases i.condition <;> rfl

@[simp]
theorem called_record : (t.record slot i departed).called = t.called := by
  unfold record; cases i.condition <;> rfl

@[simp]
theorem painted_record : (t.record slot i departed).painted = t.painted := by
  unfold record; cases i.condition <;> rfl

@[simp]
theorem stackDepth_record : (t.record slot i departed).stackDepth = t.stackDepth := by
  unfold record; cases i.condition <;> rfl

@[simp]
theorem boundarySlot_record : (t.record slot i departed).boundarySlot = t.boundarySlot := by
  unfold record; cases i.condition <;> rfl

@[simp]
theorem recentForwards_record : (t.record slot i departed).recentForwards = t.recentForwards := by
  unfold record; cases i.condition <;> rfl

@[simp]
theorem steps_record : (t.record slot i departed).steps = t.steps + 1 := by
  unfold record; cases i.condition <;> rfl

@[simp]
theorem executed_record :
    (t.record slot i departed).executed = t.executed.alter slot fun n => n.getD 0 + 1 := by
  unfold record; cases i.condition <;> rfl

@[simp]
theorem conditional_record : (t.record slot i departed).conditional =
    if i.condition.isSome then t.conditional.insert slot () else t.conditional := by
  unfold record; cases i.condition <;> rfl

end Record

def hasSeenEnough (t : Trace) (c : Config) : Bool :=
  c.minCoverage ≤ t.coverage c.totalSlots && c.maxAverageExecutions ≤ t.averageExecutions

def isBack (t : Trace) (c : Config) : Bool :=
  !c.ignoreLoops && decide (1 < t.steps) && t.final == t.start

def place (t : Trace) (p : Position) (c : Color) : Trace :=
  { t with
    world := t.world.put p (some ⟨some c, false⟩)
    unpainted := t.unpainted.put p (some ⟨some c, false⟩) }

def moveTo (t : Trace) (p : Position) (turning : Bool) : Trace :=
  { t with
    turnPositions := if turning then t.turnPositions.push t.final.position else t.turnPositions
    final := { t.final with position := p }
    path := t.path.push p
    visited := t.visited ++ ((t.world.tile? p).bind (·.color)).toList.toArray }

def paint (t : Trace) (c : Color) : Trace :=
  let here := t.final.position
  match t.world.tile? here with
  | some tile =>
    if tile.color = some c then t
    else
      { t with
        world := t.world.put here (some { tile with color := some c })
        visited := t.visited.push c
        painted := t.painted.insert here c }
  | none => t

end Trace

namespace Run

def unlessBack (r : Run) (c : Config) (t : Trace) : Progress :=
  if t.isBack c then .ended { t with terminal := .loop } else .running { r with trace := t }

def departing (rules : Rules) (r : Run) (slot : Slot) : Run :=
  let here := r.trace.final.position
  { r with
    trace :=
      { r.trace with recentForwards := lastOf rules.window (r.trace.recentForwards ++ [slot]) }
    departed :=
      if r.trace.painted.contains here && !r.departed.contains here then here :: r.departed
      else r.departed }

def arrive (rules : Rules) (r : Run) (target : Position) : Progress :=
  let heading := r.trace.final.heading
  let turning := r.entry.any fun entry => entry.isQuarterTurn heading
  unlessBack { r with entry := some heading } rules.config (r.trace.moveTo target turning)

def forward (rules : Rules) (r : Run) (slot : Slot) : StateM σ Progress := do
  let r := r.departing rules slot
  let target := r.trace.final.position.step r.trace.final.heading
  if ¬ r.trace.world.Contains target then
    return .ended { r.trace with terminal := .boundary, boundarySlot := some slot }
  else if (r.trace.world.tile? target).isSome then return r.arrive rules target
  else
    let color ← Color.drawWeighted rules.config.colorRatios
    return arrive rules { r with trace := r.trace.place target color } target

def turn (rules : Rules) (r : Run) (t : Turn) : Progress :=
  r.unlessBack rules.config
    { r.trace with final := { r.trace.final with heading := r.trace.final.heading.turned t } }

def call (r : Run) (slot : Slot) (callee : Routine) : Run :=
  let stack := ⟨callee, 0⟩ :: r.stack
  { r with
    stack
    trace :=
      { r.trace with
        called := r.trace.called.set callee true
        selfCalls :=
          if slot.routine = callee then r.trace.selfCalls.insert slot () else r.trace.selfCalls
        stackDepth := max r.trace.stackDepth stack.length } }

def paint (rules : Rules) (r : Run) (slot : Slot) (c : Color) : Run :=
  if rules.suppressed slot then r else { r with trace := r.trace.paint c }

def act (rules : Rules) (r : Run) (slot : Slot) (action : Action) : StateM σ Progress :=
  match action with
  | .forward => r.forward rules slot
  | .turn t => return r.turn rules t
  | .call callee => return .running (r.call slot callee)
  | .paint c => return .running (r.paint rules slot c)
  | .noop | .other _ => return .running r

/-- One fetch. Empty slots and instructions that wait for another colour are passed over. -/
def advance (rules : Rules) (r : Run) : StateM σ Progress := do
  let (stack, slot?) := r.stack.fetch rules.program
  let r := { r with stack }
  match slot? with
  | none => return .running r
  | some slot =>
    match rules.program.at? slot with
    | none => return .running r
    | some i =>
      if !i.runsOn (r.trace.world.tile? r.trace.final.position) then return .running r
      else
        let t := r.trace.record slot i r.departed
        if t.hasSeenEnough rules.config then return .ended { t with terminal := .earlyExit }
        else act rules { r with trace := t } slot i.action

def finish (rules : Rules) : Nat → Run → StateM σ Trace
  | 0, r => return r.trace
  | fetches + 1, r => do
    if rules.config.maxSteps ≤ r.trace.steps then return r.trace
    else
      match ← r.advance rules with
      | .running r => finish rules fetches r
      | .ended t => return t

def fetchesPerStep : Nat := 100

end Run

structure VoidStart where
  position : Position
  deriving DecidableEq

def VoidStart.message (e : VoidStart) : String :=
  "Robot cannot start on void at (" ++ toString e.position.x ++ ", " ++ toString e.position.y ++ ")"

def defaultWindow : Nat := 5

/-- The world a run is given. Without a grid it is a fresh one; without a start the robot stands in
the centre, facing anywhere. -/
structure Setting where
  grid : Option Grid := none
  start : Option Pose := none
  window : Nat := defaultWindow

namespace Setting

def centre (c : Config) : Position :=
  let middle : Nat := c.gridSize / 2
  ⟨middle, middle⟩

def drawHeading : StateM σ Heading :=
  RandomSource.choose Heading.all (by decide)

def drawFresh (c : Config) : StateM σ (Grid × Pose) := do
  let color ← Color.drawWeighted c.colorRatios
  let world := (Grid.empty c.gridSize c.gridSize).put (centre c) (some ⟨some color, false⟩)
  return (world, ⟨centre c, ← drawHeading⟩)

/-- The world and the start pose. A fresh world draws its facing even if a start is given. -/
def prepare (s : Setting) (c : Config) : StateM σ (Grid × Pose) := do
  match s.grid, s.start with
  | none, start? =>
    let (world, start) ← drawFresh c
    return (world, start?.getD start)
  | some world, some start => return (world, start)
  | some world, none => return (world, ⟨centre c, ← drawHeading⟩)

end Setting

def runFrom? (rules : Rules) (world : Grid) (start : Pose) : StateM σ (Option Trace) :=
  match Trace.begin? world start with
  | none => return none
  | some trace =>
    some <$> Run.finish rules (rules.config.maxSteps * Run.fetchesPerStep) { trace }

def execute (p : Program) (c : Config) (s : Setting) (suppressed : Slot → Bool := fun _ => false) :
    StateM σ (Except VoidStart Trace) := do
  let (world, start) ← s.prepare c
  match ← runFrom? ⟨p, c, suppressed, s.window⟩ world start with
  | some trace => return .ok trace
  | none => return .error ⟨start.position⟩

end GridRobot
