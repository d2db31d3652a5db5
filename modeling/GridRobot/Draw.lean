import GridRobot.Config.Basic
import GridRobot.Program.Basic
import GridRobot.Random

namespace GridRobot

open RandomSource

variable {σ : Type} [RandomSource σ]

namespace Color

theorem others_ne_nil (c : Option Color) : others c ≠ [] := by
  rcases c with _ | _ | _ | _ <;> decide

def drawWeighted (ratios : ColorRatios) : StateM σ Color := do
  let roll := (← unit) * (ratios.red + ratios.green + ratios.blue)
  return if roll < ratios.red then .red
    else if roll < ratios.red + ratios.green then .green
    else .blue

def drawOther (exclude : Option Color) : StateM σ Color :=
  choose (others exclude) (others_ne_nil exclude)

def drawCondition (percent : Float) (exclude : Option Color) : StateM σ (Option Color) := do
  if percent ≤ (← unit) * 100 then return none
  else return some (← drawOther exclude)

end Color

namespace Turn

def draw : StateM σ Turn :=
  either .left .right

end Turn

namespace Action

def drawPaint : StateM σ Action :=
  choose paints (by decide)

/-- An action with odds by weight. Calls go to the routines that have slots. After an unconditional
turn, `repeated`, the turns' share is halved and only the same turn is drawn. -/
def draw (weights : ActionWeights) (callable : List Routine) (repeated : Option Turn) :
    StateM σ Action := do
  let callWeight := if callable.isEmpty then 0.0 else weights.call
  let turnWeight := if repeated.isSome then weights.turn / 2 else weights.turn
  let roll := (← unit) * (weights.forward + turnWeight + callWeight + weights.paint)
  if roll < weights.forward then return .forward
  else if roll < weights.forward + turnWeight then
    match repeated with
    | some t => return .turn t
    | none => return .turn (← Turn.draw)
  else if h : roll < weights.forward + turnWeight + callWeight ∧ callable ≠ [] then
    return .call (← choose callable h.2)
  else drawPaint

def closing (callable : List Routine) : List Action :=
  [.forward, .turn .left, .turn .right] ++ ((callable.filter (· ≠ .f1)).map .call) ++ paints

end Action

namespace Program

def repeatedTurn (before : Option Instruction) : Option Turn :=
  match before with
  | some ⟨.turn t, none⟩ => some t
  | _ => none

/-- An instruction to follow `before`: its condition differs from the one before. `last` marks the
slot that closes the root routine; an unconditional call to the root would recurse there for ever, so
it gets a condition or another action. -/
def drawInstruction (c : Config) (before : Option Instruction) (last : Bool) :
    StateM σ Instruction := do
  let condition ← Color.drawCondition c.conditionalPercent (before.bind (·.condition))
  let repeated := if condition.isNone then repeatedTurn before else none
  let action ← Action.draw c.weights c.callable repeated
  if last && action == .call .f1 && condition.isNone then
    if ← happens 0.5 then
      return ⟨action, some (← choose Color.all (by decide))⟩
    else
      return ⟨← choose (Action.closing c.callable) (by simp [Action.closing]), none⟩
  else return ⟨action, condition⟩

def drawSlots (c : Config) (r : Routine) (before : Option Instruction) :
    Nat → StateM σ (List (Option Instruction))
  | 0 => return []
  | n + 1 => do
    let i ← drawInstruction c before (r == .f1 && n == 0)
    return some i :: (← drawSlots c r (some i) n)

def draw (c : Config) : StateM σ Program := do
  let routine (r : Routine) : StateM σ (List (Option Instruction)) :=
    drawSlots c r none (c.slotsPerRoutine.get r)
  let f1 ← routine .f1
  let f2 ← routine .f2
  let f3 ← routine .f3
  let f4 ← routine .f4
  let f5 ← routine .f5
  return ⟨⟨f1, f2, f3, f4, f5⟩⟩

end Program

end GridRobot
