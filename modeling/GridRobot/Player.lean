import GridRobot.Program.Basic
import GridRobot.Puzzle

/-!
Playing a program on a puzzle, one executed instruction at a time. Nothing is placed: moving off the
tiles loses, and so does finding nothing to execute or spending the step budget. The game is won as
soon as every star of the puzzle is collected.
-/

namespace GridRobot

inductive GameStatus where
  | idle
  | running
  | paused
  | won
  | lost
  deriving DecidableEq

namespace GameStatus

def name : GameStatus → String
  | .idle => "idle"
  | .running => "running"
  | .paused => "paused"
  | .won => "won"
  | .lost => "lost"

def isOver (s : GameStatus) : Bool :=
  s == .won || s == .lost

end GameStatus

structure Game where
  grid : Grid
  pose : Pose
  stack : CallStack := .root
  status : GameStatus := .idle
  steps : Nat := 0
  collected : List Position := []
  lastSlot : Option Slot := none
  deriving DecidableEq

structure Player where
  puzzle : Puzzle
  maxSteps : Nat
  program : Program
  game : Game

namespace Player

def defaultMaxSteps : Nat := 10000

/-- Fetches allowed in search of the next instruction that applies. -/
def maxFetches : Nat := 1000

def freshGame (q : Puzzle) : Game where
  grid := q.grid
  pose := q.start

def ofPuzzle (q : Puzzle) (maxSteps : Nat := defaultMaxSteps) : Player where
  puzzle := q
  maxSteps := maxSteps
  program := .ofLengths q.lengths
  game := freshGame q

def reset (p : Player) : Player :=
  { p with game := freshGame p.puzzle }

def load (p : Player) (program : Program) : Player :=
  { p with program, game := freshGame p.puzzle }

def restore (p : Player) (g : Game) : Player :=
  { p with game := g }

/-! ## The game -/

def collect (stars : List Position) (g : Game) : Game :=
  let here := g.pose.position
  let collected :=
    if stars.contains here && !g.collected.contains here then g.collected ++ [here]
    else g.collected
  let won := !stars.isEmpty && stars.all collected.contains
  { g with collected, status := if won then .won else g.status }

def seek (program : Program) (g : Game) : Nat → CallStack → CallStack × Option (Slot × Instruction)
  | 0, stack => (stack, none)
  | fetches + 1, stack =>
    match stack.fetch program with
    | (stack, none) => seek program g fetches stack
    | (stack, some slot) =>
      match program.at? slot with
      | none => seek program g fetches stack
      | some i =>
        if i.runsOn (g.grid.tile? g.pose.position) then (stack, some (slot, i))
        else seek program g fetches stack

def act (g : Game) : Action → Game
  | .forward =>
    let target := g.pose.position.step g.pose.heading
    if (g.grid.tile? target).isNone then { g with status := .lost }
    else { g with pose := { g.pose with position := target } }
  | .turn t => { g with pose := { g.pose with heading := g.pose.heading.turned t } }
  | .call r => { g with stack := ⟨r, 0⟩ :: g.stack }
  | .paint c => { g with grid := g.grid.modify g.pose.position fun t => { t with color := some c } }
  | .noop | .other _ => g

def withoutSpent (program : Program) (stack : CallStack) : CallStack :=
  stack.dropWhile fun f => decide ((program.body.get f.routine).length ≤ f.next)

/-- What follows an executed instruction, unless it ended the game: a star is collected, the stack is
cleared of spent routines, and the budget is checked. -/
def settle (p : Player) (g : Game) : Game :=
  if g.status ≠ .running then g
  else
    let g := collect p.puzzle.stars g
    if g.status ≠ .running then g
    else
      let stack := withoutSpent p.program g.stack
      { g with
        stack := if stack.isEmpty then .root else stack
        status := if p.maxSteps ≤ g.steps then .lost else .running }

def execute (p : Player) (g : Game) : Game :=
  match seek p.program g maxFetches g.stack with
  | (stack, none) => { g with stack, status := .lost }
  | (stack, some (slot, i)) =>
    let g := act { g with stack, lastSlot := some slot } i.action
    settle p { g with steps := g.steps + 1 }

/-! ## Control -/

/-- Starts or goes on; a game that is over is begun anew. A star under the start counts before the
first step. -/
def start (p : Player) : Player :=
  let p := if p.game.status.isOver then p.reset else p
  let running := { p.game with status := .running }
  { p with game := if running.steps = 0 then collect p.puzzle.stars running else running }

def pause (p : Player) : Player :=
  if p.game.status = .running then { p with game := { p.game with status := .paused } } else p

def resume (p : Player) : Player :=
  if p.game.status = .paused then { p with game := { p.game with status := .running } } else p

/-- Executes the next instruction that applies; an idle game starts first, and one that is paused or
over stays as it is. -/
def step (p : Player) : Player :=
  let p := if p.game.status = .idle then p.start else p
  if p.game.status = .running then { p with game := p.execute p.game } else p

def stepWhileRunning : Nat → Player → Player
  | 0, p => p
  | n + 1, p => if p.game.status = .running then stepWhileRunning n p.step else p

/-- Starts and plays to the end. Each step counts against the budget, so as many as are left, and one
more, are enough. -/
def run (p : Player) : Player :=
  let p := p.start
  stepWhileRunning (p.maxSteps - p.game.steps + 1) p

/-! ## Views -/

def currentSlot? (p : Player) : Option Slot :=
  match p.game.stack with
  | [] => none
  | f :: _ =>
    if f.next < (p.program.body.get f.routine).length then some ⟨f.routine, f.next⟩ else none

def starsLeft (p : Player) : Nat :=
  (p.puzzle.stars.filter fun s => !p.game.collected.contains s).length

end Player

end GridRobot
