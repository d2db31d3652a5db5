import Mathlib.Logic.Function.Iterate
import GridRobot.Proofs.Player.Mirror
import GridRobot.Proofs.Player.Session
import GridRobot.Proofs.Run.Replay

namespace GridRobot

def Trace.through (t : Trace) (log : List Event) : Trace :=
  log.foldl (fun _ e => e.after.trace) t

/-- A player can do on `g` what the run did: the instruction comes up within the fetches that it
allows, it was not left undone, and it led onto no void. -/
structure Event.Playable (g : Grid) (e : Event) : Prop where
  near : e.skipped < Player.maxFetches
  executed : ∀ t, e.after = .ended t → t.terminal ≠ .earlyExit
  enters : e.instruction.action = .forward → g.Contains e.before.trace.ahead →
    (g.tile? e.before.trace.ahead).isSome = true

namespace Event

variable {rules : Rules} {r : Run} {e : Event} {g : Grid}

theorem Playable.placesNothing (playable : e.Playable g) (follows : e.Follows rules r)
    (grounded : r.trace.Grounded) (still : g = r.trace.unpainted) :
    r.trace.PlacesNothing e.instruction.action := by
  intro forward inside
  have known := playable.enters forward
  rw [follows.before, still] at known
  rw [← grounded.placed]
  exact known ((grounded.contains_iff _).mpr inside)

theorem Playable.ends_at_boundary (playable : e.Playable g) (follows : e.Follows rules r)
    (noLoops : rules.config.ignoreLoops = true) (t : Trace) (last : e.after = .ended t) :
    t.terminal = .boundary := by
  obtain ⟨drawn, dispatched⟩ := follows.dispatched
  rw [last] at dispatched
  rcases dispatched.ended with early | boundary | ⟨-, loops⟩
  · exact absurd early (playable.executed t last)
  · exact boundary
  · rw [noLoops] at loops
    cases loops

end Event

namespace Player

/-! ## Many steps -/

theorem step_over {p : Player} (past : p.game.status.isOver = true) : p.step = p := by
  have stopped : p.game.status = .won ∨ p.game.status = .lost := by
    simpa [GameStatus.isOver] using past
  rcases stopped with status | status <;> simp [step, status]

theorem iterate_step_over {p : Player} (past : p.game.status.isOver = true) (n : Nat) :
    step^[n] p = p :=
  Function.iterate_fixed (step_over past) n

theorem Beside.running_of_open {p : Player} {r : Run} (beside : p.Beside r)
    (unwon : p.game.status ≠ .won) (left : p.game.steps < p.maxSteps) :
    p.game.status = .running := by
  have unvisited : ¬ r.trace.Visits p.puzzle.stars := fun visits => unwon (beside.won visits)
  rw [beside.mirrors.steps] at left
  exact (beside.running unvisited left).1

theorem Beside.running_before {p : Player} {r : Run} (beside : p.Beside r) (n : Nat)
    (unwon : (step^[n] p).game.status ≠ .won) (left : (step^[n] p).game.steps < p.maxSteps) :
    p.game.status = .running := by
  by_cases visits : r.trace.Visits p.puzzle.stars
  · have won := beside.won visits
    rw [iterate_step_over (by rw [won]; rfl)] at unwon
    exact absurd won unwon
  by_cases past : p.maxSteps ≤ r.trace.steps
  · have lost := beside.lost visits past
    rw [iterate_step_over (by rw [lost]; rfl), beside.mirrors.steps] at left
    exact absurd past (Nat.not_le.mpr left)
  · exact (beside.running visits (Nat.not_le.mp past)).1

structure Did (p : Player) (t : Trace) (log : List Event) : Prop where
  kept : ∃ g, step^[log.length] p = { p with game := g }
  mirrors : (step^[log.length] p).game.Mirrors (t.through log)
  slots : ∀ n (h : n < log.length), (step^[n + 1] p).game.lastSlot = some log[n].slot

def Facing (p : Player) (rules : Rules) (e : Event) : Prop :=
  p.game.status = .running ∧ ∃ r, p.Beside r ∧ e.Follows rules r ∧ r.trace.Grounded ∧
    p.puzzle.grid = r.trace.unpainted

theorem Did.cons {p q : Player} {t : Trace} {e : Event} {log : List Event} (stepped : p.step = q)
    (kept : ∃ g, q = { p with game := g }) (slot : q.game.lastSlot = some e.slot)
    (did : q.Did e.after.trace log) : p.Did t (e :: log) := by
  subst stepped
  refine ⟨?_, did.mirrors, ?_⟩
  · obtain ⟨g, first⟩ := kept
    obtain ⟨h, others⟩ := did.kept
    refine ⟨h, ?_⟩
    rw [List.length_cons, Function.iterate_succ_apply, others, first]
  · intro n within
    cases n with
    | zero => exact slot
    | succ n =>
      rw [Function.iterate_succ_apply]
      exact did.slots n (Nat.lt_of_succ_lt_succ within)

theorem Beside.follow {rules : Rules} {t : Trace} {done rest : List Event}
    (noLoops : rules.config.ignoreLoops = true) (free : ∀ slot, rules.suppressed slot = false)
    {r : Run} {p : Player} (beside : p.Beside r) (same : rules.program = p.program)
    (steps : Steps rules r (done ++ rest) t) (grounded : r.trace.Grounded)
    (traced : r.trace.Traced) (still : p.puzzle.grid = r.trace.unpainted)
    (playable : ∀ e ∈ done, e.Playable p.puzzle.grid)
    (unwon : (step^[done.length] p).game.status ≠ .won)
    (left : (step^[done.length] p).game.steps < p.maxSteps) :
    p.Did r.trace done ∧
      ∀ e later, rest = e :: later → (step^[done.length] p).Facing rules e := by
  induction done generalizing r p with
  | nil =>
    refine ⟨⟨⟨p.game, rfl⟩, beside.mirrors, ?_⟩, ?_⟩
    · intro n within
      cases within
    · rintro e later rfl
      exact ⟨beside.running_of_open unwon left, r, beside, steps.follows, grounded, still⟩
  | cons e done ih =>
    have running := beside.running_before _ unwon left
    have follows := steps.follows
    have possible := playable e List.mem_cons_self
    have nothing := possible.placesNothing follows grounded still
    obtain ⟨g, stepped, slot, mirrors, goes, -⟩ := beside.keeps_up running same follows
      (Nat.lt_of_le_of_lt (Nat.sub_le _ _) possible.near) grounded traced free nothing
      (possible.ends_at_boundary follows noLoops)
    rw [List.length_cons, Function.iterate_succ_apply, stepped] at unwon left ⊢
    rw [List.cons_append] at steps
    -- Whether the run goes on is said by `steps`, which does not tell `done` from `rest`.
    generalize all : done ++ rest = log at steps
    cases steps with
    | ended _ last =>
      obtain ⟨rfl, rfl⟩ := List.append_eq_nil_iff.mp all
      refine ⟨.cons stepped ⟨g, rfl⟩ slot ⟨⟨g, rfl⟩, mirrors, ?_⟩, ?_⟩
      · intro n within
        cases within
      · rintro _ _ ⟨⟩
    | @step _ next _ _ _ _ went later =>
      obtain ⟨grounded', traced', -⟩ := follows.next went grounded traced
      have unpainted := follows.unpainted_eq went nothing
      obtain ⟨did, facing⟩ := ih (goes next went) same (all ▸ later) grounded' traced'
        (still.trans unpainted.symm) (fun e mem => playable e (List.mem_cons_of_mem _ mem)) unwon left
      exact ⟨.cons stepped ⟨g, rfl⟩ slot (by rw [went]; exact did), facing⟩

theorem Facing.loses {p : Player} {rules : Rules} {e : Event} (facing : p.Facing rules e)
    (same : rules.program = p.program) (near : e.skipped < maxFetches)
    (forward : e.instruction.action = .forward)
    (void : p.puzzle.grid.tile? e.before.trace.ahead = none) :
    p.step.game.status = .lost ∧ p.step.game.pose = p.game.pose := by
  obtain ⟨running, r, beside, follows, grounded, still⟩ := facing
  have sought := seek_of_finds (beside.finds running same follows)
    (Nat.lt_of_le_of_lt (Nat.sub_le _ _) near)
  have ahead : p.game.grid.tile? (p.game.pose.position.step p.game.pose.heading) = none := by
    have placed := grounded.placed r.trace.ahead
    rw [follows.before, still] at void
    rw [show r.trace.unpainted.tile? r.trace.ahead = none from void] at placed
    rw [beside.mirrors.tiles, beside.mirrors.pose]
    exact Option.isNone_iff_eq_none.mp (Option.isSome_eq_false_iff.mp placed.symm)
  rw [step_of_running running, execute, sought]
  simp [act, forward, ahead, settle]

/-! ## From the start -/

section Load

variable (p : Player) (program : Program)

theorem beside_start_load {begun : Trace}
    (begins : Trace.begin? p.puzzle.grid p.puzzle.start = some begun) (budget : 0 < p.maxSteps) :
    (p.load program).start.Beside { trace := begun } := by
  obtain ⟨tile, here, rfl⟩ := Trace.begin?_eq_some begins
  have collected (q : Position) (star : q ∈ p.puzzle.stars) :
      q ∈ (collect p.puzzle.stars { freshGame p.puzzle with status := .running }).collected ↔
        q ∈ #[p.puzzle.start.position] := by
    rw [mem_collect star]
    simp [freshGame]
  obtain ⟨won, unwon⟩ := status_collect (t :=
    { world := p.puzzle.grid, unpainted := p.puzzle.grid, start := p.puzzle.start,
      final := p.puzzle.start, path := #[p.puzzle.start.position],
      visited := tile.color.toList.toArray }) collected
  refine ⟨⟨rfl, fun _ => rfl, rfl⟩, collected, won, fun _ past => ?_, fun unvisited _ => ?_⟩
  · exact absurd past (Nat.not_le.mpr budget)
  · exact ⟨unwon unvisited, (CallStack.settled_root program).symm⟩

theorem step_load : (p.load program).step = (p.load program).start.step :=
  step_of_idle rfl

theorem iterate_step_load (n : Nat) :
    step^[n + 1] (p.load program) = step^[n + 1] (p.load program).start := by
  rw [Function.iterate_succ_apply, Function.iterate_succ_apply, step_load]

theorem Did.of_start {p : Player} {program : Program} {t : Trace} {e : Event} {log : List Event}
    (did : (p.load program).start.Did t (e :: log)) : (p.load program).Did t (e :: log) := by
  obtain ⟨⟨g, kept⟩, mirrors, slots⟩ := did
  rw [List.length_cons, ← iterate_step_load] at kept mirrors
  refine ⟨⟨g, kept⟩, mirrors, fun n within => ?_⟩
  rw [iterate_step_load]
  exact slots n within

end Load

end Player

/-- After as many steps as there are playable events at the head of a run's log the player has done
what they say. If a forward onto void comes next, the player loses where it stands, unless it had won
from the start. -/
theorem step_parity {σ : Type} [RandomSource σ] {q : Puzzle} {program : Program} {c : Config}
    {window : Nat} (noLoops : c.ignoreLoops = true) {begun : Trace}
    (begins : Trace.begin? q.grid q.start = some begun) {source after : σ} {t : Trace}
    {done rest : List Event}
    (logged : Logged ⟨program, c, fun _ => false, window⟩ (c.maxSteps * Run.fetchesPerStep) .root 0
      { trace := begun } source (done ++ rest) t after)
    (player : Player) (onPuzzle : player.puzzle = q) (playable : ∀ e ∈ done, e.Playable q.grid)
    (unwon : (Player.step^[done.length] (player.load program)).game.status ≠ .won)
    (left : (Player.step^[done.length] (player.load program)).game.steps < player.maxSteps) :
    execute program c ⟨some q.grid, some q.start, window⟩ (fun _ => false) source = (.ok t, after) ∧
      (player.load program).Did begun done ∧
      ∀ e later, rest = e :: later → e.skipped < Player.maxFetches →
        e.instruction.action = .forward → q.grid.tile? e.before.trace.ahead = none →
        (done = [] → (player.load program).start.game.status ≠ .won) →
          (Player.step^[done.length + 1] (player.load program)).game.status = .lost ∧
            (Player.step^[done.length + 1] (player.load program)).game.pose =
              (Player.step^[done.length] (player.load program)).game.pose := by
  subst onPuzzle
  refine ⟨execute_eq_ok.mpr (runFrom?_eq_some.mpr ⟨begun, _, begins, logged⟩), ?_⟩
  have grounded := Trace.grounded_begin begins
  have traced := Trace.traced_begin begins
  have still : player.puzzle.grid = begun.unpainted := by
    obtain ⟨tile, here, rfl⟩ := Trace.begin?_eq_some begins
    rfl
  have budget := Nat.lt_of_le_of_lt (Nat.zero_le _) left
  have beside := player.beside_start_load program begins budget
  cases done with
  | nil =>
    refine ⟨⟨⟨_, rfl⟩, ?_, ?_⟩, ?_⟩
    · obtain ⟨tile, here, rfl⟩ := Trace.begin?_eq_some begins
      exact ⟨rfl, fun _ => rfl, rfl⟩
    · intro n within
      cases within
    · intro e later here near forward void started
      have follow := beside.follow noLoops (fun _ => rfl) rfl logged.steps grounded traced
        still playable (started rfl) left
      have lost := (follow.2 e later here).loses rfl near forward void
      rw [List.length_nil, Function.iterate_zero_apply, ← Player.step_load] at lost
      exact lost
  | cons first done =>
    rw [List.length_cons, Player.iterate_step_load] at unwon left
    obtain ⟨did, facing⟩ := beside.follow noLoops (fun _ => rfl) rfl logged.steps grounded traced still
      playable unwon left
    refine ⟨did.of_start, ?_⟩
    intro e later here near forward void _
    obtain ⟨g, kept⟩ := did.kept
    have lost := (facing e later here).loses (by rw [kept]; rfl) near forward (by rw [kept]; exact void)
    rw [Function.iterate_succ_apply', List.length_cons, Player.iterate_step_load]
    exact lost

/-! ## Two puzzles for a forward -/

def keepMoving : Program :=
  ⟨⟨[some ⟨.forward, none⟩], [], [], [], []⟩⟩

def twoSteps : Config where
  maxSteps := 2
  ignoreLoops := true

def corridor : Puzzle where
  grid := ⟨4, 1, #v[#v[some ⟨some .red, false⟩, some ⟨some .blue, true⟩, none,
    some ⟨some .green, true⟩]]⟩
  start := ⟨⟨0, 0⟩, .right⟩
  lengths := ⟨1, 0, 0, 0, 0⟩

def corridorTrace : Trace where
  world := corridor.grid
  unpainted := corridor.grid
  start := corridor.start
  final := corridor.start
  path := #[corridor.start.position]
  visited := #[.red]

theorem logged_corridor :
    ∃ first second t after,
      Logged ⟨keepMoving, twoSteps, fun _ => false, defaultWindow⟩ 200 .root 0
        { trace := corridorTrace } (⟨#[0.5], 0, false⟩ : Tape) ([first] ++ [second]) t after ∧
      first.Playable corridor.grid ∧ second.skipped < Player.maxFetches ∧
      second.instruction.action = .forward ∧
      corridor.grid.tile? second.before.trace.ahead = none :=
  ⟨_, _, _, _,
    .executed (by decide) rfl (.act (by decide +kernel) (.move ⟨some .blue, true⟩ rfl)) rfl
      (.passed (by decide) rfl
        (.executed (by decide) rfl (.act (by decide +kernel) (.pave _ (by decide) rfl)) rfl
          (.spent (by decide)))),
    ⟨by decide, by rintro _ ⟨⟩, fun _ _ => rfl⟩, by decide, rfl, rfl⟩

theorem step_parity_corridor :
    (Player.step^[2] ((Player.ofPuzzle corridor).load keepMoving)).game.status = .lost ∧
      (Player.step^[2] ((Player.ofPuzzle corridor).load keepMoving)).game.pose =
        ⟨⟨1, 0⟩, .right⟩ := by
  obtain ⟨first, second, t, after, logged, playable, near, forward, void⟩ := logged_corridor
  have unwon : (Player.step^[1] ((Player.ofPuzzle corridor).load keepMoving)).game.status ≠ .won := by
    decide
  have left : (Player.step^[1] ((Player.ofPuzzle corridor).load keepMoving)).game.steps <
      Player.defaultMaxSteps := by
    decide
  obtain ⟨-, -, loses⟩ := step_parity (q := corridor) rfl rfl logged (Player.ofPuzzle corridor) rfl
    (by rintro e mem; rw [List.mem_singleton.mp mem]; exact playable) unwon left
  exact loses second [] rfl near forward void (by rintro ⟨⟩)

def starAtStart : Puzzle where
  grid := ⟨1, 1, #v[#v[some ⟨some .red, true⟩]]⟩
  start := ⟨⟨0, 0⟩, .right⟩
  lengths := ⟨1, 0, 0, 0, 0⟩

def starTrace : Trace where
  world := starAtStart.grid
  unpainted := starAtStart.grid
  start := starAtStart.start
  final := starAtStart.start
  path := #[starAtStart.start.position]
  visited := #[.red]

/-- A step that starts the game can win it, whatever the program does first. -/
theorem first_step_can_win :
    ¬ ∀ (q : Puzzle) (program : Program) (c : Config) (window : Nat) (begun : Trace)
        (source after : Tape) (t : Trace) (done later : List Event) (e : Event) (player : Player),
      c.ignoreLoops = true → Trace.begin? q.grid q.start = some begun →
      Logged ⟨program, c, fun _ => false, window⟩ (c.maxSteps * Run.fetchesPerStep) .root 0
        { trace := begun } source (done ++ e :: later) t after →
      player.puzzle = q → (∀ e ∈ done, e.Playable q.grid) →
      (Player.step^[done.length] (player.load program)).game.status ≠ .won →
      (Player.step^[done.length] (player.load program)).game.steps < player.maxSteps →
      e.skipped < Player.maxFetches → e.instruction.action = .forward →
      q.grid.tile? e.before.trace.ahead = none →
        (Player.step^[done.length + 1] (player.load program)).game.status = .lost := by
  intro claim
  have logged : ∃ e t,
      Logged ⟨keepMoving, twoSteps, fun _ => false, defaultWindow⟩ 200 .root 0
        { trace := starTrace } (⟨#[0.5], 0, false⟩ : Tape) [e] t ⟨#[0.5], 0, false⟩ ∧
      e.skipped < Player.maxFetches ∧ e.instruction.action = .forward ∧
      starAtStart.grid.tile? e.before.trace.ahead = none :=
    ⟨_, _, .ended (by decide) rfl (.act (by decide +kernel) (.boundary (by decide))) rfl, by decide,
      rfl, rfl⟩
  obtain ⟨e, t, logged, near, forward, void⟩ := logged
  have lost := claim starAtStart keepMoving twoSteps defaultWindow starTrace _ _ t [] [] e
    (Player.ofPuzzle starAtStart) rfl rfl logged rfl (by simp) (by decide) (by decide) near forward void
  have won : (Player.step^[1] ((Player.ofPuzzle starAtStart).load keepMoving)).game.status = .won := by
    decide
  rw [List.length_nil, won] at lost
  cases lost

end GridRobot
