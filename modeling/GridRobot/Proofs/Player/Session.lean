import Mathlib.Logic.Function.Iterate
import GridRobot.Proofs.Player.Mirror

namespace GridRobot

/-! ## Regular games -/

structure Grid.SameStars (g h : Grid) : Prop where
  width : g.width = h.width
  height : g.height = h.height
  star : ∀ q, (g.tile? q).map (·.hasStar) = (h.tile? q).map (·.hasStar)

theorem Grid.SameStars.modify {g h : Grid} (same : g.SameStars h) (p : Position) {f : Tile → Tile}
    (keeps : ∀ t, (f t).hasStar = t.hasStar) : (g.modify p f).SameStars h where
  width := (g.width_modify p f).trans same.width
  height := (g.height_modify p f).trans same.height
  star q := (g.map_tile?_modify p q (·.hasStar) keeps).trans (same.star q)

theorem Grid.isSome_tile?_modify (g : Grid) (p q : Position) (f : Tile → Tile) :
    ((g.modify p f).tile? q).isSome = (g.tile? q).isSome := by
  simpa using congrArg Option.isSome (g.map_tile?_modify p q (fun _ => ()) fun _ => rfl)

def Puzzle.Cleared (q : Puzzle) (collected : List Position) : Prop :=
  q.stars ≠ [] ∧ ∀ star ∈ q.stars, star ∈ collected

/-- A game of the puzzle whose robot is on a tile and has collected stars only. -/
structure Game.OnPuzzle (g : Game) (q : Puzzle) : Prop where
  grid : g.grid.SameStars q.grid
  standing : (g.grid.tile? g.pose.position).isSome = true
  collected : ∀ p ∈ g.collected, p ∈ q.stars

/-- What holds of every game of a player. One that is not over has a step left. -/
structure Game.Regular (g : Game) (q : Puzzle) (maxSteps : Nat) : Prop extends g.OnPuzzle q where
  steps : g.steps ≤ maxSteps
  left : g.status.isOver = false → g.steps < maxSteps
  won : g.status = .won ↔ q.Cleared g.collected

variable {q : Puzzle} {maxSteps : Nat} {g : Game}

theorem Game.OnPuzzle.congr {h : Game} (on : g.OnPuzzle q) (grid : h.grid = g.grid)
    (here : h.pose.position = g.pose.position) (collected : h.collected = g.collected) :
    h.OnPuzzle q := by
  obtain ⟨stars, standing, within⟩ := on
  refine ⟨?_, ?_, ?_⟩
  · rwa [grid]
  · rwa [grid, here]
  · rwa [collected]

theorem Game.Regular.uncleared (regular : g.Regular q maxSteps) (unwon : g.status ≠ .won) :
    ¬ q.Cleared g.collected :=
  fun cleared => unwon (regular.won.mpr cleared)

theorem GameStatus.isOver_iff {status : GameStatus} :
    status.isOver = true ↔ status = .won ∨ status = .lost := by
  simp [isOver]

theorem GameStatus.ne_won {status : GameStatus} (going : status.isOver = false) : status ≠ .won := by
  rintro rfl
  cases going

theorem Game.Regular.withStatus (regular : g.Regular q maxSteps) (going : g.status.isOver = false)
    {status : GameStatus} (goes : status.isOver = false) :
    Game.Regular { g with status } q maxSteps where
  toOnPuzzle := regular.congr rfl rfl rfl
  steps := regular.steps
  left _ := regular.left going
  won := iff_of_false (GameStatus.ne_won goes) (regular.uncleared (GameStatus.ne_won going))

namespace Player

variable {p : Player}

theorem regular_freshGame (grounded : (q.grid.tile? q.start.position).isSome = true)
    (budget : 1 ≤ maxSteps) : (freshGame q).Regular q maxSteps where
  grid := ⟨rfl, rfl, fun _ => rfl⟩
  standing := grounded
  collected _ mem := absurd mem List.not_mem_nil
  steps := Nat.zero_le _
  left _ := budget
  won := by
    constructor
    · exact nofun
    · rintro ⟨starred, all⟩
      obtain ⟨star, mem⟩ := List.exists_mem_of_ne_nil _ starred
      exact absurd (all star mem) List.not_mem_nil

/-! ## Stars -/

theorem collect_cases (q : Puzzle) (g : Game) :
    (collect q.stars g).status = .won ∧ q.Cleared (collect q.stars g).collected ∨
      (collect q.stars g).status = g.status ∧ ¬ q.Cleared (collect q.stars g).collected := by
  have cleared : (!q.stars.isEmpty && q.stars.all (collect q.stars g).collected.contains) = true ↔
      q.Cleared (collect q.stars g).collected := by
    simp [Puzzle.Cleared]
  rw [status_collect_eq, ← cleared]
  split
  · rename_i all
    exact .inl ⟨rfl, all⟩
  · rename_i some
    exact .inr ⟨rfl, some⟩

theorem onPuzzle_collect (on : g.OnPuzzle q) : (collect q.stars g).OnPuzzle q := by
  refine ⟨on.grid, on.standing, fun p mem => ?_⟩
  by_cases star : p ∈ q.stars
  · exact star
  · unfold collect at mem
    dsimp only at mem
    split at mem
    · rename_i new
      rcases List.mem_append.mp mem with before | here
      · exact on.collected p before
      · rw [Bool.and_eq_true, List.contains_iff_mem] at new
        rw [List.mem_singleton.mp here]
        exact new.1
    · exact on.collected p mem

theorem regular_collect (on : g.OnPuzzle q) (running : g.status = .running)
    (left : g.steps < maxSteps) : (collect q.stars g).Regular q maxSteps := by
  refine ⟨onPuzzle_collect on, Nat.le_of_lt left, fun _ => left, ?_⟩
  rcases collect_cases q g with ⟨won, cleared⟩ | ⟨same, uncleared⟩
  · exact iff_of_true won cleared
  · refine iff_of_false ?_ uncleared
    rw [same, running]
    decide

/-! ## Steps -/

theorem onPuzzle_act (on : g.OnPuzzle q) (action : Action) : (act g action).OnPuzzle q := by
  cases action with
  | forward =>
    unfold act
    dsimp only
    split
    · exact on.congr rfl rfl rfl
    · rename_i onto
      exact ⟨on.grid, by simpa [Option.isSome_iff_ne_none] using onto, on.collected⟩
  | paint c =>
    refine ⟨on.grid.modify _ fun _ => rfl, ?_, on.collected⟩
    exact (Grid.isSome_tile?_modify _ _ _ _).trans on.standing
  | turn | call | noop | other => exact on.congr rfl rfl rfl

theorem status_act (running : g.status = .running) (action : Action) :
    (act g action).status = .running ∨ (act g action).status = .lost := by
  cases action with
  | forward =>
    unfold act
    dsimp only
    split
    · exact .inr rfl
    · exact .inl running
  | turn | call | paint | noop | other => exact .inl running

inductive Settled (p : Player) (g : Game) : Game → Prop
  | ended (past : g.status ≠ .running) : Settled p g g
  | cleared (running : g.status = .running)
      (cleared : p.puzzle.Cleared (collect p.puzzle.stars g).collected) :
      Settled p g { collect p.puzzle.stars g with status := .won }
  | spent (running : g.status = .running)
      (uncleared : ¬ p.puzzle.Cleared (collect p.puzzle.stars g).collected)
      (spent : p.maxSteps ≤ g.steps) (stack : CallStack) :
      Settled p g { collect p.puzzle.stars g with stack, status := .lost }
  | goesOn (running : g.status = .running)
      (uncleared : ¬ p.puzzle.Cleared (collect p.puzzle.stars g).collected)
      (left : g.steps < p.maxSteps) (stack : CallStack) :
      Settled p g { collect p.puzzle.stars g with stack, status := .running }

theorem settled (p : Player) (g : Game) : p.Settled g (settle p g) := by
  unfold settle
  by_cases running : g.status = .running
  · rw [if_neg (not_not_intro running)]
    dsimp only
    rcases collect_cases p.puzzle g with ⟨won, cleared⟩ | ⟨same, uncleared⟩
    · rw [if_pos (by rw [won]; decide)]
      have whole : collect p.puzzle.stars g = { collect p.puzzle.stars g with status := .won } := by
        rw [← won]
      rw [whole]
      exact .cleared running cleared
    · rw [if_neg (not_not_intro (same.trans running))]
      by_cases spent : p.maxSteps ≤ g.steps
      · rw [if_pos (show p.maxSteps ≤ (collect p.puzzle.stars g).steps from spent)]
        exact .spent running uncleared spent _
      · rw [if_neg (show ¬ p.maxSteps ≤ (collect p.puzzle.stars g).steps from spent)]
        exact .goesOn running uncleared (Nat.not_le.mp spent) _
  · rw [if_pos running]
    exact .ended running

theorem execute_cases (p : Player) (g : Game) :
    (∃ stack, p.execute g = { g with stack, status := .lost }) ∨
      ∃ stack lastSlot action, p.Settled
        { act { g with stack, lastSlot } action with steps := g.steps + 1 } (p.execute g) := by
  unfold execute
  split
  · rename_i stack _
    exact .inl ⟨stack, rfl⟩
  · rename_i stack slot i _
    refine .inr ⟨stack, some slot, i.action, ?_⟩
    dsimp only
    rw [steps_act]
    exact p.settled _

theorem regular_execute (regular : g.Regular p.puzzle p.maxSteps) (running : g.status = .running) :
    (p.execute g).Regular p.puzzle p.maxSteps := by
  have uncleared := regular.uncleared (by rw [running]; decide)
  have left := regular.left (by rw [running]; rfl)
  rcases p.execute_cases g with ⟨stack, stalled⟩ | ⟨stack, lastSlot, action, settled⟩
  · rw [stalled]
    exact ⟨regular.congr rfl rfl rfl, regular.steps, nofun, iff_of_false nofun uncleared⟩
  have before : Game.OnPuzzle { g with stack, lastSlot } p.puzzle := regular.congr rfl rfl rfl
  have on := onPuzzle_act before action
  have status := status_act (g := { g with stack, lastSlot }) running action
  have kept := collected_act { g with stack, lastSlot } action
  generalize act { g with stack, lastSlot } action = acted at on status kept settled
  have on : Game.OnPuzzle { acted with steps := g.steps + 1 } p.puzzle := on.congr rfl rfl rfl
  have gathered := onPuzzle_collect on
  generalize p.execute g = h at settled
  cases settled with
  | ended past =>
    have lost : acted.status = .lost := status.resolve_left past
    refine ⟨on, left, fun going => ?_, iff_of_false ?_ (kept ▸ uncleared)⟩
    · rw [lost] at going
      cases going
    · rw [lost]
      decide
  | cleared _ cleared =>
    exact ⟨gathered.congr rfl rfl rfl, left, nofun, iff_of_true rfl cleared⟩
  | spent _ uncleared => exact ⟨gathered.congr rfl rfl rfl, left, nofun, iff_of_false nofun uncleared⟩
  | goesOn _ uncleared more =>
    exact ⟨gathered.congr rfl rfl rfl, left, fun _ => more, iff_of_false nofun uncleared⟩

structure Regular (p : Player) (q : Puzzle) (maxSteps : Nat) : Prop where
  puzzle : p.puzzle = q
  budget : p.maxSteps = maxSteps
  game : p.game.Regular q maxSteps

theorem start_eq (p : Player) : ∃ g, (g = freshGame p.puzzle ∨ g = p.game ∧ g.status.isOver = false) ∧
    p.start = { p with game :=
      if g.steps = 0 then collect p.puzzle.stars { g with status := .running }
      else { g with status := .running } } := by
  unfold start
  by_cases finished : p.game.status.isOver = true
  · rw [if_pos finished]
    exact ⟨freshGame p.puzzle, .inl rfl, rfl⟩
  · rw [if_neg finished]
    exact ⟨p.game, .inr ⟨rfl, Bool.eq_false_iff.mpr finished⟩, rfl⟩

section Keeps

variable (fresh : (freshGame q).Regular q maxSteps)

include fresh

theorem Regular.start (regular : p.Regular q maxSteps) : p.start.Regular q maxSteps := by
  obtain ⟨rfl, rfl, game⟩ := regular
  obtain ⟨g, chosen, started⟩ := p.start_eq
  have begun : g.Regular p.puzzle p.maxSteps ∧ g.status.isOver = false := by
    rcases chosen with rfl | ⟨rfl, going⟩
    · exact ⟨fresh, rfl⟩
    · exact ⟨game, going⟩
  obtain ⟨regular, going⟩ := begun
  have running : Game.Regular { g with status := .running } p.puzzle p.maxSteps :=
    regular.withStatus going rfl
  rw [started]
  refine ⟨rfl, rfl, ?_⟩
  dsimp only
  split
  · exact regular_collect running.toOnPuzzle rfl (running.left rfl)
  · exact running

theorem Regular.step (regular : p.Regular q maxSteps) : p.step.Regular q maxSteps := by
  have begun : (if p.game.status = .idle then p.start else p).Regular q maxSteps := by
    split
    · exact regular.start fresh
    · exact regular
  unfold Player.step
  dsimp only
  generalize (if p.game.status = .idle then p.start else p) = p at begun
  obtain ⟨rfl, rfl, game⟩ := begun
  split
  · rename_i running
    exact ⟨rfl, rfl, regular_execute game running⟩
  · exact ⟨rfl, rfl, game⟩

theorem Regular.stepWhileRunning (n : Nat) (regular : p.Regular q maxSteps) :
    (stepWhileRunning n p).Regular q maxSteps := by
  induction n generalizing p with
  | zero => exact regular
  | succ n ih =>
    unfold Player.stepWhileRunning
    split
    · exact ih (regular.step fresh)
    · exact regular

theorem Regular.run (regular : p.Regular q maxSteps) : p.run.Regular q maxSteps :=
  (regular.start fresh).stepWhileRunning fresh _

end Keeps

/-! ## Playing to the end -/

theorem status_start (p : Player) :
    p.start.game.status = .running ∨ p.start.game.status.isOver = true := by
  obtain ⟨g, -, started⟩ := p.start_eq
  rw [started]
  dsimp only
  split
  · rcases collect_cases p.puzzle { g with status := .running } with ⟨won, -⟩ | ⟨same, -⟩
    · exact .inr (by rw [won]; rfl)
    · exact .inl same
  · exact .inl rfl

theorem step_of_idle (idle : p.game.status = .idle) : p.step = p.start.step := by
  have started : p.start.game.status ≠ .idle := by
    rcases p.status_start with running | finished
    · rw [running]
      decide
    · intro idle
      rw [idle] at finished
      cases finished
  simp only [step, idle, started, if_true, if_false]

theorem status_execute (running : g.status = .running) :
    (p.execute g).status.isOver = true ∨
      (p.execute g).status = .running ∧ (p.execute g).steps = g.steps + 1 ∧
        g.steps + 1 < p.maxSteps := by
  rcases p.execute_cases g with ⟨stack, stalled⟩ | ⟨stack, lastSlot, action, settled⟩
  · rw [stalled]
    exact .inl rfl
  have status := status_act (g := { g with stack, lastSlot }) running action
  generalize act { g with stack, lastSlot } action = acted at status settled
  generalize p.execute g = h at settled
  cases settled with
  | ended past =>
    have lost : acted.status = .lost := status.resolve_left past
    exact .inl (by rw [lost]; rfl)
  | cleared | spent => exact .inl rfl
  | goesOn _ _ left => exact .inr ⟨rfl, rfl, left⟩

theorem stepWhileRunning_ends {n : Nat}
    (begun : p.game.status = .running ∨ p.game.status.isOver = true)
    (enough : p.maxSteps - p.game.steps < n) :
    ∃ m, stepWhileRunning n p = step^[m] p ∧ (∀ k < m, (step^[k] p).game.status = .running) ∧
      (stepWhileRunning n p).game.status.isOver = true := by
  induction n generalizing p with
  | zero => cases enough
  | succ n ih =>
    unfold stepWhileRunning
    by_cases running : p.game.status = .running
    · rw [if_pos running]
      have stepped := step_of_running running
      have ended : ∃ m, stepWhileRunning n p.step = step^[m] p.step ∧
          (∀ k < m, (step^[k] p.step).game.status = .running) ∧
          (stepWhileRunning n p.step).game.status.isOver = true := by
        rw [stepped]
        rcases status_execute running with finished | ⟨going, steps, left⟩
        · have past : (p.execute p.game).status ≠ .running := by
            intro going
            rw [going] at finished
            cases finished
          rw [stepWhileRunning_over past]
          exact ⟨0, rfl, by simp, finished⟩
        · -- the step has used up a part of the budget that `n` is more than
          refine ih (.inl going) ?_
          dsimp only
          omega
      obtain ⟨m, same, going, finished⟩ := ended
      refine ⟨m + 1, same, fun k earlier => ?_, finished⟩
      cases k with
      | zero => exact running
      | succ k => exact going k (Nat.lt_of_succ_lt_succ earlier)
    · rw [if_neg running]
      exact ⟨0, rfl, by simp, begun.resolve_left running⟩

theorem run_ends (p : Player) :
    ∃ n, p.run = step^[n] p.start ∧ (∀ k < n, (step^[k] p.start).game.status = .running) ∧
      (p.run.game.status = .won ∨ p.run.game.status = .lost) := by
  obtain ⟨n, played, going, finished⟩ := stepWhileRunning_ends p.status_start (Nat.lt_succ_self _)
  exact ⟨n, played, going, GameStatus.isOver_iff.mp finished⟩

/-! ## Sessions -/

/-- What a user can ask for. `restore n` takes up the `n`-th game that was kept. -/
inductive Operation where
  | load (program : Program)
  | start
  | step
  | run
  | pause
  | resume
  | reset
  | snapshot
  | restore (n : Nat)

structure Session where
  player : Player
  kept : List Game := []

namespace Session

def perform (s : Session) : Operation → Session
  | .load program => { s with player := s.player.load program }
  | .start => { s with player := s.player.start }
  | .step => { s with player := s.player.step }
  | .run => { s with player := s.player.run }
  | .pause => { s with player := s.player.pause }
  | .resume => { s with player := s.player.resume }
  | .reset => { s with player := s.player.reset }
  | .snapshot => { s with kept := s.kept ++ [s.player.game] }
  | .restore n =>
    match s.kept[n]? with
    | some g => { s with player := s.player.restore g }
    | none => s

def after (s : Session) (asked : List Operation) : Session :=
  asked.foldl perform s

structure Regular (s : Session) (q : Puzzle) (maxSteps : Nat) : Prop where
  player : s.player.Regular q maxSteps
  kept : ∀ g ∈ s.kept, g.Regular q maxSteps

theorem Regular.perform {s : Session} (fresh : (freshGame q).Regular q maxSteps)
    (regular : s.Regular q maxSteps) (asked : Operation) : (s.perform asked).Regular q maxSteps := by
  obtain ⟨player, kept⟩ := regular
  have restored {g : Game} (known : g.Regular q maxSteps) (program : Program) :
      ({ s.player with program, game := g }).Regular q maxSteps :=
    ⟨player.puzzle, player.budget, known⟩
  cases asked with
  | load program => exact ⟨restored (player.puzzle ▸ fresh) program, kept⟩
  | start => exact ⟨player.start fresh, kept⟩
  | step => exact ⟨player.step fresh, kept⟩
  | run => exact ⟨player.run fresh, kept⟩
  | reset => exact ⟨restored (player.puzzle ▸ fresh) s.player.program, kept⟩
  | pause =>
    refine ⟨?_, kept⟩
    change s.player.pause.Regular q maxSteps
    unfold pause
    split
    · rename_i running
      exact restored (player.game.withStatus (by rw [running]; rfl) rfl) _
    · exact player
  | resume =>
    refine ⟨?_, kept⟩
    change s.player.resume.Regular q maxSteps
    unfold resume
    split
    · rename_i paused
      exact restored (player.game.withStatus (by rw [paused]; rfl) rfl) _
    · exact player
  | snapshot =>
    refine ⟨player, fun g mem => ?_⟩
    rcases List.mem_append.mp mem with before | now
    · exact kept g before
    · rw [List.mem_singleton.mp now]
      exact player.game
  | restore n =>
    unfold Session.perform
    dsimp only
    split
    · rename_i g found
      exact ⟨restored (kept g (List.mem_of_getElem? found)) _, kept⟩
    · exact ⟨player, kept⟩

theorem Regular.after {s : Session} (fresh : (freshGame q).Regular q maxSteps)
    (regular : s.Regular q maxSteps) (asked : List Operation) :
    (s.after asked).Regular q maxSteps := by
  induction asked generalizing s with
  | nil => exact regular
  | cons first asked ih => exact ih (regular.perform fresh first)

end Session

end Player

/-- Whatever is asked of a player of a puzzle that starts on a tile, its game is regular, and playing on
from there ends the game. -/
theorem regular_after {q : Puzzle} (grounded : (q.grid.tile? q.start.position).isSome = true)
    {maxSteps : Nat} (budget : 1 ≤ maxSteps) (asked : List Player.Operation) :
    let p := (Player.Session.after ⟨.ofPuzzle q maxSteps, []⟩ asked).player
    p.puzzle = q ∧ p.game.Regular q maxSteps ∧
      ∃ n, p.run = Player.step^[n] p.start ∧
        (∀ k < n, (Player.step^[k] p.start).game.status = .running) ∧
        (p.run.game.status = .won ∨ p.run.game.status = .lost) := by
  intro p
  have fresh := Player.regular_freshGame grounded budget
  have begun : Player.Session.Regular ⟨.ofPuzzle q maxSteps, []⟩ q maxSteps :=
    ⟨⟨rfl, rfl, fresh⟩, nofun⟩
  obtain ⟨puzzle, -, game⟩ := (begun.after fresh asked).player
  exact ⟨puzzle, game, p.run_ends⟩

def strip : Puzzle where
  grid := ⟨4, 1, #v[#v[some ⟨some .red, false⟩, some ⟨some .blue, true⟩, some ⟨none, true⟩, none]]⟩
  start := ⟨⟨0, 0⟩, .right⟩
  lengths := ⟨2, 0, 0, 0, 0⟩

def stripAsked : List Player.Operation :=
  [.load ⟨⟨[some ⟨.paint .green, none⟩, some ⟨.forward, none⟩], [], [], [], []⟩⟩, .step, .step, .snapshot,
    .step, .pause, .step, .restore 0, .resume, .run, .pause]

theorem regular_after_strip :
    ∃ p, p = (Player.Session.after ⟨.ofPuzzle strip 9, []⟩ stripAsked).player ∧
      p.game.status = .won ∧ p.game.steps = 4 ∧ strip.Cleared p.game.collected ∧
      p.game.grid.SameStars strip.grid ∧ p.game.grid ≠ strip.grid := by
  obtain ⟨-, regular, -⟩ := regular_after (q := strip) rfl (show 1 ≤ 9 by decide) stripAsked
  have won : (Player.Session.after ⟨.ofPuzzle strip 9, []⟩ stripAsked).player.game.status = .won := by
    decide
  exact ⟨_, rfl, won, by decide, regular.won.mp won, regular.grid, by decide⟩

end GridRobot
