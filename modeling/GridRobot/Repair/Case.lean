import GridRobot.Draw
import GridRobot.Program.Address
import GridRobot.Program.Basic
import GridRobot.Repair.Policy
import GridRobot.Run.Execution

namespace GridRobot

def isUnconditionalCall (slot : Option Instruction) : Bool :=
  slot.any fun i => i.condition.isNone && i.action.isCall

namespace Program

/-- The indices, from `i` on, of the slots after an unconditional call; `called` tells that there was
one before. -/
def blockedIndices (called : Bool) (i : Nat) : List (Option Instruction) → List Nat
  | [] => []
  | slot :: rest =>
    if called then i :: blockedIndices true (i + 1) rest
    else blockedIndices (isUnconditionalCall slot) (i + 1) rest

def blocked (p : Program) : List Slot :=
  Routine.all.flatMap fun r => (blockedIndices false 0 (p.body.get r)).map (Slot.mk r)

def callerBefore? (p : Program) (r : Routine) : Nat → Option Slot
  | 0 => none
  | i + 1 => if isUnconditionalCall (p.at? ⟨r, i⟩) then some ⟨r, i⟩ else callerBefore? p r i

end Program

/-! ## Cases -/

/-- What a run showed that repairs make use of. Slots are given by address, so that evidence may also
be written down by hand. -/
structure Evidence where
  executed : List Address
  visited : List Color
  painted : List Color
  called : PerRoutine Bool
  boundarySlot : Option Address
  recentForwards : List Address

def Evidence.ofTrace (t : Trace) : Evidence where
  executed := t.executed.keys.map .ofSlot
  visited := t.visited.toList
  painted := t.painted.entries.map (·.2)
  called := t.called
  boundarySlot := t.boundarySlot.map .ofSlot
  recentForwards := t.recentForwards.map .ofSlot

structure Case where
  program : Program
  evidence : Evidence
  config : Config
  policy : Policy

/-- A random computation on a working copy of the program. It breaks down at an address that a program
does not have, and at a choice among none. -/
abbrev Repair (σ : Type) := StateT Program (ExceptT AddressError (StateM σ))

/-- A way to repair a case: it edits the working copy and tells whether it applied. -/
abbrev Strategy (σ : Type) := Case → Repair σ Bool

namespace Case

open RandomSource

variable {σ : Type} [RandomSource σ]

def unexecuted (c : Case) : List Slot :=
  c.program.slots.filter fun s => !c.evidence.executed.contains (.ofSlot s)

def commonColor (c : Case) : Color :=
  Color.mostCommon c.evidence.visited

def chance (c : Case) (o : Odds) : Float :=
  c.policy.chance o.name

def executedWhere (c : Case) (p : Instruction → Bool) : Except AddressError (List Address) :=
  c.evidence.executed.filterM fun a => do return (← c.program.read a).any p

def unexecutedWhere (c : Case) (p : Instruction → Bool) : List Slot :=
  c.unexecuted.filter fun s => (c.program.at? s).any p

/-! ## Edits -/

def place (a : Address) (action : Action) (condition : Option Color) : Repair σ Bool := do
  set (← (← get).write a (some ⟨action, condition⟩))
  return true

def amend (a : Address) (f : Instruction → Instruction) : Repair σ Bool := do
  match ← (← get).read a with
  | none => return false
  | some i =>
    set (← (← get).write a (some (f i)))
    return true

def retype (a : Address) (action : Action) : Repair σ Bool :=
  amend a fun i => { i with action }

def recondition (a : Address) (condition : Option Color) : Repair σ Bool :=
  amend a fun i => { i with condition }

/-! ## Rolls and choices -/

def drawn (x : StateM σ α) : Repair σ α :=
  StateT.lift (ExceptT.lift x)

def roll (c : Case) (o : Odds) : Repair σ Bool :=
  drawn (happens (c.chance o))

def onRoll (c : Case) (o : Odds) (next : Repair σ Bool) : Repair σ Bool := do
  if ← c.roll o then next else return false

def pick : List α → Repair σ α
  | [] => throw .noneToChoose
  | a :: rest => drawn (chooseCons a rest)

def onOne (candidates : List α) (next : α → Repair σ Bool) : Repair σ Bool := do
  if candidates.isEmpty then return false else next (← pick candidates)

def onOneRolled (c : Case) (candidates : List α) (o : Odds) (next : α → Repair σ Bool) :
    Repair σ Bool :=
  if candidates.isEmpty then return false else c.onRoll o do next (← pick candidates)

def drawTurn : Repair σ Action := do
  return .turn (← drawn Turn.draw)

def drawMove (c : Case) : Repair σ Action := do
  if ← c.roll .genericConditionalMoveForward then return .forward else drawTurn

def drawAction (c : Case) : Repair σ Action :=
  drawn (Action.draw c.config.weights c.config.callable none)

/-- Walks the slots in order and rolls for each conditional instruction that satisfies `p`; the first
roll that is met makes its instruction unconditional. -/
def dropConditionWhere (c : Case) (p : Instruction → Bool) (o : Odds) : Repair σ Bool :=
  go c.program.slots
where
  go : List Slot → Repair σ Bool
    | [] => return false
    | s :: rest => do
      if (c.program.at? s).any fun i => i.condition.isSome && p i then
        if ← c.roll o then recondition (.ofSlot s) none else go rest
      else go rest

end Case

end GridRobot
