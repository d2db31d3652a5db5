import GridRobot.Proofs.Player.Session
import GridRobot.Proofs.Run.Access
import GridRobot.Random

namespace GridRobot

namespace Guarded

/-! ## Guarded games -/

def seek (program : Program) (g : Game) :
    Nat → CallStack → Except Refusal (CallStack × Option (Slot × Instruction))
  | 0, stack => return (stack, none)
  | fetches + 1, stack =>
    match stack.fetch program with
    | (stack, none) => seek program g fetches stack
    | (stack, some slot) => do
      match ← program.slotAt slot with
      | none => seek program g fetches stack
      | some i =>
        if i.runsOn (← g.grid.tileAt g.pose.position) then return (stack, some (slot, i))
        else seek program g fetches stack

def actInGame (g : Game) : Action → Except Refusal Game
  | .forward => do
    let target := g.pose.position.step g.pose.heading
    if (← g.grid.tileAt target).isNone then return { g with status := .lost }
    else return { g with pose := { g.pose with position := target } }
  | .turn t => return { g with pose := { g.pose with heading := g.pose.heading.turned t } }
  | .call r => return { g with stack := ⟨r, 0⟩ :: g.stack }
  | .paint c => do
    match ← g.grid.tileAt g.pose.position with
    | some tile =>
      return { g with grid := g.grid.put g.pose.position (some { tile with color := some c }) }
    | none => return g
  | .noop | .other _ => return g

def executeInGame (p : Player) (g : Game) : Except Refusal Game := do
  match ← seek p.program g Player.maxFetches g.stack with
  | (stack, none) => return { g with stack, status := .lost }
  | (stack, some (slot, i)) =>
    let g ← actInGame { g with stack, lastSlot := some slot } i.action
    return p.settle { g with steps := g.steps + 1 }

def step (p : Player) : Except Refusal Player := do
  let p := if p.game.status = .idle then p.start else p
  if p.game.status = .running then return { p with game := ← executeInGame p p.game } else return p

def stepWhileRunning : Nat → Player → Except Refusal Player
  | 0, p => return p
  | n + 1, p => do
    if p.game.status = .running then stepWhileRunning n (← step p) else return p

def run (p : Player) : Except Refusal Player :=
  let p := p.start
  stepWhileRunning (p.maxSteps - p.game.steps + 1) p

/-! ## The same games -/

theorem seek_eq (program : Program) (g : Game) (fetches : Nat) (stack : CallStack) :
    seek program g fetches stack = .ok (Player.seek program g fetches stack) := by
  induction fetches generalizing stack with
  | zero => rfl
  | succ fetches ih =>
    unfold seek Player.seek
    cases fetched : stack.fetch program with
    | mk stack slot? =>
      cases slot? with
      | none => exact ih stack
      | some slot =>
        refine bind_eq_ok.mpr ⟨_, Program.slotAt_eq (CallStack.hasSlot_of_fetch fetched), ?_⟩
        dsimp only
        cases program.at? slot with
        | none => exact ih stack
        | some i =>
          refine bind_eq_ok.mpr ⟨_, Grid.tileAt_eq _ _, ?_⟩
          dsimp only
          split
          · rfl
          · exact ih stack

theorem actInGame_eq (g : Game) (action : Action) : actInGame g action = .ok (Player.act g action) := by
  cases action with
  | forward =>
    refine bind_eq_ok.mpr ⟨_, Grid.tileAt_eq _ _, ?_⟩
    unfold Player.act
    dsimp only
    split <;> rfl
  | paint c =>
    refine bind_eq_ok.mpr ⟨_, Grid.tileAt_eq _ _, ?_⟩
    unfold Player.act Grid.modify
    cases g.grid.tile? g.pose.position <;> rfl
  | turn | call | noop | other => rfl

theorem executeInGame_eq (p : Player) (g : Game) : executeInGame p g = .ok (p.execute g) := by
  refine bind_eq_ok.mpr ⟨_, seek_eq _ _ _ _, ?_⟩
  unfold Player.execute
  cases Player.seek p.program g Player.maxFetches g.stack with
  | mk stack found =>
    cases found with
    | none => rfl
    | some found => exact bind_eq_ok.mpr ⟨_, actInGame_eq _ _, rfl⟩

theorem step_eq (p : Player) : step p = .ok p.step := by
  unfold step Player.step
  dsimp only
  generalize (if p.game.status = .idle then p.start else p) = p
  split
  · exact bind_eq_ok.mpr ⟨_, executeInGame_eq _ _, rfl⟩
  · rfl

theorem stepWhileRunning_eq (n : Nat) (p : Player) :
    stepWhileRunning n p = .ok (Player.stepWhileRunning n p) := by
  induction n generalizing p with
  | zero => rfl
  | succ n ih =>
    unfold stepWhileRunning Player.stepWhileRunning
    split
    · exact bind_eq_ok.mpr ⟨_, step_eq p, ih _⟩
    · rfl

theorem run_eq (p : Player) : run p = .ok p.run :=
  stepWhileRunning_eq _ _

end Guarded

/-! ## Accepted records -/

variable {σ : Type} [RandomSource σ]

/-- A puzzle that was read from a record can be run and played with any program. No access is refused,
the run has a trace, and the game is won or lost. -/
theorem accepted_runs {v : Json} {q : Puzzle} (accepted : Puzzle.ofRecord v = .ok q) (p : Program) :
    (∀ (c : Config) (window : Nat) (suppressed : Slot → Bool) (source : σ), ∃ t after,
      execute p c { grid := some q.grid, start := some q.start, window } suppressed source =
          (.ok t, after) ∧
        Guarded.execute p c q.grid q.start window suppressed source = (.ok t, after)) ∧
      ∀ maxSteps, ∃ played, played = ((Player.ofPuzzle q maxSteps).load p).run ∧
        Guarded.run ((Player.ofPuzzle q maxSteps).load p) = .ok played ∧
        (played.game.status = .won ∨ played.game.status = .lost) := by
  have formed := Puzzle.wellFormed_of_ofRecord accepted
  constructor
  · intro c window suppressed source
    obtain ⟨t, after, guarded, ran⟩ :=
      Guarded.execute_eq p c formed.grounded window suppressed source
    exact ⟨t, after, ran, guarded⟩
  · intro maxSteps
    obtain ⟨n, -, -, finished⟩ := ((Player.ofPuzzle q maxSteps).load p).run_ends
    exact ⟨_, rfl, Guarded.run_eq _, finished⟩

def unevenProgram : Program :=
  ⟨⟨[some ⟨.forward, some .red⟩, some ⟨.call .f2, none⟩, none, some ⟨.forward, none⟩], [],
    [some ⟨.paint .green, none⟩], [], []⟩⟩

theorem accepted_runs_strip :
    Puzzle.ofRecord strip.toRecord = .ok strip ∧
      (∃ t after, Guarded.execute unevenProgram {} strip.grid strip.start 5 (fun _ => false)
        (⟨#[0.5], 0, false⟩ : Tape) = (.ok t, after)) ∧
      ∃ played, Guarded.run ((Player.ofPuzzle strip 9).load unevenProgram) = .ok played ∧
        played.game.status = .won := by
  obtain ⟨runs, plays⟩ := accepted_runs (σ := Tape) (v := strip.toRecord) (q := strip) rfl unevenProgram
  obtain ⟨t, after, -, guarded⟩ := runs {} 5 (fun _ => false) ⟨#[0.5], 0, false⟩
  obtain ⟨played, same, guarded', -⟩ := plays 9
  refine ⟨rfl, ⟨t, after, guarded⟩, played, guarded', ?_⟩
  rw [same]
  decide

end GridRobot
