import GridRobot.Proofs.Player.Parity
import GridRobot.Proofs.Puzzle.Verification

namespace GridRobot

variable {σ : Type} [RandomSource σ]

theorem Trace.Visits.mono {t u : Trace} {stars : List Position} (visits : t.Visits stars)
    (onward : t.Onward u) : u.Visits stars :=
  ⟨visits.1, fun q star => onward.path q (visits.2 q star)⟩

theorem Dispatch.path_of_ended {rules : Rules} {r : Run} {slot : Slot} {i : Instruction}
    {drawn : Option Color} {t : Trace} (dispatched : Dispatch rules r slot i drawn (.ended t))
    (inside : t.terminal ≠ .boundary) (unlooped : t.terminal ≠ .loop) :
    t.path = r.trace.path := by
  generalize last : Progress.ended t = progress at dispatched
  cases dispatched with
  | earlyExit =>
    cases last
    exact Trace.path_record _ _ _ _
  | act _ effect =>
    rcases effect.ended last.symm with boundary | ⟨loop, -⟩
    · exact absurd boundary inside
    · exact absurd loop unlooped

theorem Event.Follows.path_of_ended {rules : Rules} {r : Run} {e : Event} {t : Trace}
    (follows : e.Follows rules r) (last : e.after = .ended t) (inside : t.terminal ≠ .boundary)
    (unlooped : t.terminal ≠ .loop) : t.path = r.trace.path := by
  obtain ⟨drawn, dispatched⟩ := follows.dispatched
  rw [follows.before, last] at dispatched
  exact dispatched.path_of_ended inside unlooped

namespace Player

def Reaches (p : Player) (e : Event) : Prop :=
  e.skipped - e.origin.spent p.program < maxFetches

theorem Beside.run_to {rules : Rules} {r : Run} {log : List Event} {t : Trace} {p : Player} {n : Nat}
    (beside : p.Beside r) (steps : Steps rules r log t) (same : rules.program = p.program)
    (free : ∀ slot, rules.suppressed slot = false) (inside : t.terminal ≠ .boundary)
    (unlooped : t.terminal ≠ .loop) (grounded : r.trace.Grounded) (traced : r.trace.Traced)
    (still : p.puzzle.grid = r.trace.unpainted) (old : t.unpainted = p.puzzle.grid)
    (visits : t.Visits p.puzzle.stars) (budget : rules.config.maxSteps ≤ p.maxSteps)
    (enough : p.maxSteps < p.game.steps + n) :
    ((stepWhileRunning n p).game.status = .won ↔
        ∀ e ∈ log, ¬ e.before.trace.Visits p.puzzle.stars → p.Reaches e) ∧
      ((stepWhileRunning n p).game.status = .won → (stepWhileRunning n p).game.steps ≤ t.steps) := by
  -- along the log, for as long as the player is beside the run and neither has won nor stalls
  induction log generalizing r p n with
  | nil =>
    cases steps
    have won := beside.won visits
    rw [stepWhileRunning_over (by rw [won]; decide)]
    refine ⟨⟨fun _ e mem => ?_, fun _ => won⟩, fun _ => ?_⟩
    · cases mem
    · exact Nat.le_of_eq beside.mirrors.steps
  | cons e log ih =>
    have follows := steps.follows
    have onward := steps.onward grounded traced
    by_cases visited : r.trace.Visits p.puzzle.stars
    -- The player has stopped, while the run goes on over tiles that it does not need.
    · have won := beside.won visited
      rw [stepWhileRunning_over (by rw [won]; decide)]
      refine ⟨⟨fun _ e mem unvisited => ?_, fun _ => won⟩, fun _ => ?_⟩
      · exact absurd (visited.mono (steps.onward_before grounded traced e mem)) unvisited
      · rw [beside.mirrors.steps]
        exact onward.steps
    have unvisited : ¬ e.before.trace.Visits p.puzzle.stars := by
      rw [follows.before]
      exact visited
    have running := (beside.running visited (Nat.lt_of_lt_of_le follows.left budget)).1
    obtain ⟨m, rfl⟩ : ∃ m, n = m + 1 := by
      have left := follows.left
      rw [← beside.mirrors.steps] at left
      exact ⟨n - 1, by omega⟩
    rw [stepWhileRunning, if_pos running]
    by_cases near : p.Reaches e
    · cases steps with
      | ended _ last =>
        -- The instruction that ends the run moves nowhere, so that no star can be left before it.
        have path := follows.path_of_ended last inside unlooped
        exact absurd ⟨visits.1, fun q star => path ▸ visits.2 q star⟩ visited
      | @step _ next _ _ _ _ went later =>
        obtain ⟨grounded', traced', -⟩ := follows.next went grounded traced
        have nothing := later.placesNothing follows went grounded traced (old.trans still)
        obtain ⟨g, stepped, -, -, goes, -⟩ := beside.keeps_up running same follows near grounded
          traced free nothing fun u last => by
            rw [went] at last
            cases last
        have unpainted := follows.unpainted_eq went nothing
        have count : g.steps = p.game.steps + 1 := by
          rw [(goes next went).mirrors.steps, beside.mirrors.steps]
          exact follows.steps_succ went traced
        obtain ⟨wins, bounded⟩ := ih (goes next went) later same grounded' traced'
          (still.trans unpainted.symm) old visits budget (n := m) (by
            change p.maxSteps < g.steps + m
            omega)
        rw [stepped]
        refine ⟨wins.trans ?_, bounded⟩
        rw [List.forall_mem_cons]
        exact ⟨fun all => ⟨fun _ => near, all⟩, fun all => all.2⟩
    · have lost := beside.stalls running same follows (Nat.not_lt.mp near)
      rw [stepWhileRunning_over (by rw [lost]; decide), lost]
      refine ⟨⟨fun won => ?_, fun all => absurd (all e List.mem_cons_self unvisited) near⟩, fun won => ?_⟩
      · cases won
      · cases won

end Player

/-! ## The stars of a puzzle -/

def Trace.Starless (t : Trace) : Prop :=
  ∀ q tile, t.unpainted.tile? q = some tile → tile.hasStar = false

theorem Effect.starless {rules : Rules} {r : Run} {slot : Slot} {action : Action}
    {drawn : Option Color} {progress : Progress}
    (effect : Effect rules r slot action drawn progress) (grounded : r.trace.Grounded)
    (starless : r.trace.Starless) : progress.trace.Starless := by
  by_cases nothing : r.trace.PlacesNothing action
  · unfold Trace.Starless
    rw [effect.unpainted_eq nothing]
    exact starless
  cases effect with
  | boundary outside => exact absurd (fun _ inside => absurd inside outside) nothing
  | move tile onto => exact absurd (fun _ _ => by rw [onto]; rfl) nothing
  | pave c inside =>
    obtain ⟨turning, terminal, came⟩ :=
      Run.trace_arrive rules (r.paving rules slot c) r.trace.ahead
    intro q tile there
    rw [came] at there
    have placed := (grounded.tile?_place inside c q).2.symm.trans there
    split at placed
    · cases placed
      rfl
    · exact starless q tile placed
  | turn | call | paint | noop | other => exact absurd (by rintro ⟨⟩) nothing

structure Trace.Charted (t : Trace) : Prop where
  grounded : t.Grounded
  traced : t.Traced
  starless : t.Starless

theorem Dispatch.charted {rules : Rules} {r : Run} {slot : Slot} {i : Instruction}
    {drawn : Option Color} {progress : Progress}
    (dispatched : Dispatch rules r slot i drawn progress) (charted : r.trace.Charted) :
    progress.trace.Charted := by
  obtain ⟨grounded, traced, starless⟩ := charted
  refine ⟨dispatched.grounded grounded, (dispatched.extension traced).traced, ?_⟩
  have recorded : (r.trace.record slot i r.departed).Starless := by
    unfold Trace.Starless
    rwa [Trace.unpainted_record]
  cases dispatched with
  | earlyExit => exact recorded
  | act _ effect =>
    exact effect.starless (grounded.congr (by simp) (by simp) (by simp)) recorded

theorem charted_of_execute {p : Program} {c : Config} (valid : c.Valid) {s : Setting}
    (fresh : s.grid = none) {suppressed : Slot → Bool} {source after : σ} {t : Trace}
    (ran : execute p c s suppressed source = (.ok t, after)) : t.Charted := by
  obtain ⟨begun, log, begins, logged⟩ := runFrom?_eq_some.mp (execute_eq_ok.mp ran)
  refine logged.preserves Dispatch.charted ⟨Trace.grounded_begin begins, Trace.traced_begin begins, ?_⟩
  obtain ⟨tile, here, rfl⟩ := Trace.begin?_eq_some begins
  obtain ⟨color, heading, last, prepared⟩ := Setting.prepare_fresh fresh c source
  intro q tile there
  rw [prepared] at there
  dsimp only at there
  rw [Setting.tile?_freshWorld valid.grid.1] at there
  split at there
  · cases there
    rfl
  · cases there

namespace Attempt

theorem mem_stars {a : Attempt} (starless : a.trace.Starless) (c : Config) {q : Position} :
    q ∈ (a.puzzle c).stars ↔
      (a.trace.unpainted.tile? q).isSome = true ∧ q ∈ a.trace.starPositions := by
  change q ∈ (a.trace.unpainted.withStars a.trace.starPositions).stars ↔ _
  rw [Grid.mem_stars, Grid.tile?_withStars]
  cases there : a.trace.unpainted.tile? q with
  | none => simp
  | some tile => simp [starless q tile there]

theorem visits_stars {a : Attempt} (charted : a.trace.Charted) (c : Config) :
    a.trace.Visits (a.puzzle c).stars := by
  obtain ⟨grounded, traced, starless⟩ := charted
  constructor
  · apply List.ne_nil_of_mem (a := a.trace.final.position)
    rw [mem_stars starless, grounded.placed]
    exact ⟨grounded.standing, by simp [Trace.starPositions]⟩
  · intro q star
    have listed := ((mem_stars starless c).mp star).2
    rw [Trace.starPositions, List.mem_append, List.mem_singleton, Array.mem_toList_iff] at listed
    rcases listed with turned | rfl
    · exact traced.turns q turned
    · exact traced.final

end Attempt

/-! ## Playing the solution -/

def Attempt.player (a : Attempt) (c : Config) : Player :=
  (Player.ofPuzzle (a.puzzle c) (max c.maxSteps Player.defaultMaxSteps)).load a.solution

/-- The solution of a puzzle made in a fresh world runs on the puzzle as the program ran before, and a
player of it wins, within the steps of that run, exactly if it reaches every instruction before which
a star is left. -/
theorem run_solution {p : Program} {c : Config} (valid : c.Valid) {s : Setting}
    (fresh : s.grid = none) {source after : σ} {a : Attempt}
    (simulated : simulate p c s source = (.ok a, after)) (passed : a.verdict.isPassed = true) :
    ∃ begun log t, Trace.begin? (a.puzzle c).grid (a.puzzle c).start = some begun ∧
      (∀ (τ : Type) [RandomSource τ] (other : τ),
        Logged ⟨a.solution, c, fun _ => false, defaultWindow⟩ (c.maxSteps * Run.fetchesPerStep) .root 0
          { trace := begun } other log t other) ∧
      a.trace.Matches t ∧
      ((a.player c).run.game.status = .won ↔
        ∀ e ∈ log, ¬ e.before.trace.Visits (a.puzzle c).stars → (a.player c).Reaches e) ∧
      ((a.player c).run.game.status = .won → (a.player c).run.game.steps ≤ a.trace.steps) := by
  obtain ⟨between, ran, rfl, judged⟩ := simulate_eq_ok.mp simulated
  have charted := charted_of_execute valid fresh ran
  have ran := execute_eq_ok.mp ran
  have colors := Grid.sameColors_withStars a.trace.unpainted a.trace.starPositions
  obtain ⟨begun, log, t, begins, matched, unpainted, -, replayed⟩ :=
    runFrom?_replays_logged ran (fun _ executed => executed) colors defaultWindow
  rw [← runFrom?_start ran] at begins
  have assessed := ((a.trace.evaluate_isPassed_iff a.program c s.window between).mp
    (by rw [judged]; exact passed)).1
  obtain ⟨inside, unlooped⟩ := Trace.unstopped_of_assess assessed
  have terminal : t.terminal = a.trace.terminal := matched.congr (f := Trace.terminal) fun _ _ _ => rfl
  have path : t.path = a.trace.path := matched.congr (f := Trace.path) fun _ _ _ => rfl
  have steps : t.steps = a.trace.steps := matched.congr (f := Trace.steps) fun _ _ _ => rfl
  have visits : t.Visits (a.puzzle c).stars := by
    unfold Trace.Visits
    rw [path]
    exact a.visits_stars charted c
  have still : (a.puzzle c).grid = begun.unpainted := by
    obtain ⟨tile, here, rfl⟩ := Trace.begin?_eq_some begins
    rfl
  have budget : 0 < max c.maxSteps Player.defaultMaxSteps :=
    Nat.lt_of_lt_of_le (by decide) (Nat.le_max_right _ _)
  have beside := (Player.ofPuzzle (a.puzzle c) (max c.maxSteps Player.defaultMaxSteps)).beside_start_load
    a.solution begins budget
  obtain ⟨wins, bounded⟩ := beside.run_to (replayed σ between).steps rfl (fun _ => rfl)
    (terminal ▸ inside) (terminal ▸ unlooped) (Trace.grounded_begin begins) (Trace.traced_begin begins) still unpainted visits
    (Nat.le_max_left _ _)
    (n := (a.player c).start.maxSteps - (a.player c).start.game.steps + 1) (by
      change (a.player c).start.maxSteps < (a.player c).start.game.steps + _
      omega)
  rw [steps] at bounded
  exact ⟨begun, log, t, begins, replayed, matched, wins, bounded⟩

/-! ## A solution that is called too deep -/

def spiralWorld : Config where
  slotsPerRoutine := ⟨2, 20, 20, 20, 20⟩
  maxSteps := 74
  gridSize := 5
  minCoverage := 10
  minTiles := 0
  minBoundingBox := 0
  minTurns := 0
  maxDenseTiles := 25
  maxAverageExecutions := 1000
  minRetraceRatio := 0

def spiral : Program where
  body := {
    f1 := [some ⟨.call .f2, none⟩, some ⟨.forward, none⟩]
    f2 := [some ⟨.forward, none⟩, some ⟨.turn .left, some .green⟩, some ⟨.call .f3, some .red⟩,
      some ⟨.call .f3, some .green⟩] ++ List.replicate 16 none
    f3 := some ⟨.call .f4, none⟩ :: List.replicate 19 none
    f4 := some ⟨.call .f5, none⟩ :: List.replicate 19 none
    f5 := some ⟨.call .f2, none⟩ :: List.replicate 19 none }

def spiralTape : Tape where
  entries := #[0.1, 0.1, 0.5, 0.5, 0.1, 0.5, 0.1, 0.5, 0.1, 0.1, 0.5, 0.1, 0.1, 0.5, 0.1, 0.9, 0.1]

def spiralPuzzle : Puzzle where
  grid := ⟨5, 5, #v[
    #v[some ⟨some .green, true⟩, some ⟨some .red, false⟩, some ⟨some .red, false⟩,
      some ⟨some .green, true⟩, none],
    #v[some ⟨some .red, false⟩, some ⟨some .green, true⟩, some ⟨some .green, true⟩,
      some ⟨some .red, false⟩, none],
    #v[some ⟨some .blue, false⟩, some ⟨some .red, false⟩, some ⟨some .red, false⟩,
      some ⟨some .red, false⟩, none],
    #v[some ⟨some .red, true⟩, some ⟨some .green, true⟩, some ⟨some .red, false⟩,
      some ⟨some .green, true⟩, none],
    #v[none, none, none, none, none]]⟩
  start := ⟨⟨2, 2⟩, .up⟩
  lengths := spiralWorld.lengths
  allowed := spiralWorld.allowedActions
  steps := 74
  quality := 67
  instructionCount := 9

theorem valid_spiralWorld : spiralWorld.Valid := by
  decide

theorem simulate_spiral :
    ∃ a after, simulate spiral spiralWorld {} spiralTape = (.ok a, after) ∧
      a.verdict.isPassed = true ∧ a.solution = spiral ∧ a.puzzle spiralWorld = spiralPuzzle := by
  have evaluated : (simulate spiral spiralWorld {} spiralTape).1.toOption.any (fun a =>
      a.verdict.isPassed && decide (a.solution = spiral ∧ a.puzzle spiralWorld = spiralPuzzle)) =
        true := by
    decide +kernel
  obtain ⟨a, after, ran, tested⟩ := exists_ok_of_any evaluated
  rw [Bool.and_eq_true, decide_eq_true_eq] at tested
  exact ⟨a, after, ran, tested⟩

theorem lost_spiral {a : Attempt} (solution : a.solution = spiral)
    (puzzle : a.puzzle spiralWorld = spiralPuzzle) :
    (a.player spiralWorld).run.game.status = .lost := by
  rw [Attempt.player, solution, puzzle]
  decide +kernel

theorem run_solution_spiral :
    ∃ (a : Attempt) (after : Tape) (log : List Event) (t : Trace),
      simulate spiral spiralWorld {} spiralTape = (.ok a, after) ∧
      a.verdict.isPassed = true ∧ a.trace.Matches t ∧
      ∃ e ∈ log, ¬ e.before.trace.Visits (a.puzzle spiralWorld).stars ∧
        ¬ (a.player spiralWorld).Reaches e := by
  obtain ⟨a, after, ran, passed, solution, puzzle⟩ := simulate_spiral
  obtain ⟨begun, log, t, -, -, matched, wins, -⟩ := run_solution valid_spiralWorld rfl ran passed
  refine ⟨a, after, log, t, ran, passed, matched, ?_⟩
  rw [lost_spiral solution puzzle] at wins
  have stuck := mt wins.mpr (by decide)
  simpa using stuck

/-- A run passes and a player of its solution loses, on the way back from nested calls. -/
theorem solution_can_lose :
    ¬ ∀ (c : Config) (p : Program) (source after : Tape) (a : Attempt), c.Valid →
      p.lengths = c.slotsPerRoutine → simulate p c {} source = (.ok a, after) →
        a.verdict.isPassed = true →
          (a.player c).run.game.status = .won ∧ (a.player c).run.game.steps ≤ a.trace.steps := by
  intro claim
  obtain ⟨a, after, ran, passed, solution, puzzle⟩ := simulate_spiral
  have won := (claim spiralWorld spiral spiralTape after a valid_spiralWorld rfl ran passed).1
  rw [lost_spiral solution puzzle] at won
  cases won

end GridRobot
