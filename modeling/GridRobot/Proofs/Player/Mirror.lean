import GridRobot.Proofs.Grid.Layout
import GridRobot.Proofs.Player.Seek
import GridRobot.Proofs.Run.Path

/-!
A player beside a run of the same program. `Player.Beside` relates them between two instructions, and
`Beside.keeps_up` says that it survives an instruction that places no tile.
-/

namespace GridRobot

def Trace.Visits (t : Trace) (stars : List Position) : Prop :=
  stars ≠ [] ∧ ∀ q ∈ stars, q ∈ t.path

structure Game.Mirrors (g : Game) (t : Trace) : Prop where
  pose : g.pose = t.final
  tiles : ∀ q, g.grid.tile? q = t.world.tile? q
  steps : g.steps = t.steps

namespace Player

/-! ## Parts of a step -/

section Act

variable (g : Game) (action : Action)

@[simp]
theorem steps_act : (act g action).steps = g.steps := by
  cases action with
  | forward => unfold act; dsimp only; split <;> rfl
  | _ => rfl

@[simp]
theorem collected_act : (act g action).collected = g.collected := by
  cases action with
  | forward => unfold act; dsimp only; split <;> rfl
  | _ => rfl

@[simp]
theorem lastSlot_act : (act g action).lastSlot = g.lastSlot := by
  cases action with
  | forward => unfold act; dsimp only; split <;> rfl
  | _ => rfl

end Act

theorem mem_collect {stars : List Position} {g : Game} {q : Position} (star : q ∈ stars) :
    q ∈ (collect stars g).collected ↔ q ∈ g.collected ∨ q = g.pose.position := by
  unfold collect
  dsimp only
  by_cases new : stars.contains g.pose.position && !g.collected.contains g.pose.position
  · rw [if_pos new, List.mem_append, List.mem_singleton]
  · rw [if_neg new]
    constructor
    · exact .inl
    · rintro (collected | rfl)
      · exact collected
      · simpa [star] using new

theorem status_collect_eq (stars : List Position) (g : Game) :
    (collect stars g).status =
      if !stars.isEmpty && stars.all (collect stars g).collected.contains then .won else g.status :=
  rfl

theorem status_collect {stars : List Position} {g : Game} {t : Trace}
    (collected : ∀ q ∈ stars, q ∈ (collect stars g).collected ↔ q ∈ t.path) :
    (t.Visits stars → (collect stars g).status = .won) ∧
      (¬ t.Visits stars → (collect stars g).status = g.status) := by
  have all : (stars.all (collect stars g).collected.contains = true) ↔ ∀ q ∈ stars, q ∈ t.path := by
    rw [List.all_eq_true]
    constructor
    · intro all q star
      exact (collected q star).mp (by simpa using all q star)
    · intro visited q star
      simpa using (collected q star).mpr (visited q star)
  have visits : (!stars.isEmpty && stars.all (collect stars g).collected.contains) = true ↔
      t.Visits stars := by
    rw [Bool.and_eq_true, all]
    simp [Trace.Visits]
  rw [status_collect_eq]
  constructor
  · intro visited
    rw [if_pos (visits.mpr visited)]
  · intro unvisited
    rw [if_neg (unvisited ∘ visits.mp)]

end Player

structure Game.Acted (g : Game) (progress : Progress) : Prop where
  pose : g.pose = progress.trace.final
  tiles : ∀ q, g.grid.tile? q = progress.trace.world.tile? q
  stays : ∀ r, progress = .running r → g.status = .running ∧ g.stack = r.stack
  ends : ∀ t, progress = .ended t → g.status = .lost

theorem Game.Acted.unlessBack {g : Game} {r : Run} {c : Config} {t : Trace}
    (unlooped : ∀ u, r.unlessBack c t = .ended u → u.terminal ≠ .loop) (pose : g.pose = t.final)
    (tiles : ∀ q, g.grid.tile? q = t.world.tile? q) (running : g.status = .running)
    (stack : g.stack = r.stack) : g.Acted (r.unlessBack c t) := by
  rcases r.unlessBack_cases c t with goes | ⟨-, back⟩
  · rw [goes]
    refine ⟨pose, tiles, ?_, ?_⟩
    · rintro _ ⟨⟩
      exact ⟨running, stack⟩
    · rintro _ ⟨⟩
  · exact absurd rfl (unlooped _ back)

theorem Effect.acted {rules : Rules} {r : Run} {slot : Slot} {action : Action}
    {drawn : Option Color} {progress : Progress} {g : Game}
    (effect : Effect rules r slot action drawn progress) (grounded : r.trace.Grounded)
    (free : rules.suppressed slot = false)
    (nothing : r.trace.PlacesNothing action)
    (unlooped : ∀ t, progress = .ended t → t.terminal ≠ .loop) (pose : g.pose = r.trace.final)
    (tiles : ∀ q, g.grid.tile? q = r.trace.world.tile? q) (running : g.status = .running)
    (stack : g.stack = r.stack) : (Player.act g action).Acted progress := by
  cases effect with
  | boundary outside =>
    have void := Grid.tile?_eq_none_of_not_contains outside
    have lost : Player.act g .forward = { g with status := .lost } := by
      simp [Player.act, tiles, pose, void]
    rw [lost]
    refine ⟨pose, tiles, ?_, fun _ _ => rfl⟩
    rintro _ ⟨⟩
  | move tile onto =>
    have moved : Player.act g .forward =
        { g with pose := { g.pose with position := r.trace.ahead } } := by
      simp [Player.act, tiles, pose, onto]
    rw [moved]
    refine .unlessBack unlooped ?_ tiles running stack
    simp only [pose]
    rfl
  | pave c inside void =>
    have there := nothing rfl inside
    rw [void] at there
    cases there
  | turn t =>
    refine .unlessBack unlooped ?_ tiles running stack
    simp only [Player.act, pose]
  | call callee =>
    refine ⟨pose, tiles, ?_, ?_⟩
    · rintro _ ⟨⟩
      exact ⟨running, congrArg _ stack⟩
    · rintro _ ⟨⟩
  | paint c =>
    obtain ⟨tile, here⟩ := Option.isSome_iff_exists.mp grounded.standing
    have painted : r.paint rules slot c = { r with trace := r.trace.paint c } := by
      simp [Run.paint, free]
    rw [painted]
    refine ⟨?_, fun q => ?_, ?_, ?_⟩
    · exact pose.trans (r.trace.final_paint c).symm
    · change (g.grid.modify g.pose.position _).tile? q = (r.trace.paint c).world.tile? q
      rw [Grid.tile?_modify, Trace.tile?_paint here, pose, tiles]
      split
      · rename_i there
        rw [there, show r.trace.world.tile? r.trace.final.position = some tile from here]
        rfl
      · rfl
    · rintro _ ⟨⟩
      exact ⟨running, stack⟩
    · rintro _ ⟨⟩
  | noop =>
    refine ⟨pose, tiles, ?_, ?_⟩
    · rintro _ ⟨⟩
      exact ⟨running, stack⟩
    · rintro _ ⟨⟩
  | other name =>
    refine ⟨pose, tiles, ?_, ?_⟩
    · rintro _ ⟨⟩
      exact ⟨running, stack⟩
    · rintro _ ⟨⟩

/-! ## A whole step -/

namespace Player

/-- The player has come to where the run is between two instructions. -/
structure Beside (p : Player) (r : Run) : Prop where
  mirrors : p.game.Mirrors r.trace
  collected : ∀ q ∈ p.puzzle.stars, q ∈ p.game.collected ↔ q ∈ r.trace.path
  won : r.trace.Visits p.puzzle.stars → p.game.status = .won
  lost : ¬ r.trace.Visits p.puzzle.stars → p.maxSteps ≤ r.trace.steps → p.game.status = .lost
  running : ¬ r.trace.Visits p.puzzle.stars → r.trace.steps < p.maxSteps →
    p.game.status = .running ∧ p.game.stack = r.stack.settled p.program

theorem Beside.of_running {p : Player} {r : Run} (beside : p.Beside r)
    (running : p.game.status = .running) :
    ¬ r.trace.Visits p.puzzle.stars ∧ p.game.stack = r.stack.settled p.program := by
  have unvisited : ¬ r.trace.Visits p.puzzle.stars := by
    intro visits
    rw [beside.won visits] at running
    cases running
  have left : r.trace.steps < p.maxSteps := by
    apply Nat.lt_of_not_le
    intro past
    rw [beside.lost unvisited past] at running
    cases running
  exact ⟨unvisited, (beside.running unvisited left).2⟩

theorem settle_beside {p : Player} {g : Game} {next : Run} (acted : g.Acted (.running next))
    (steps : g.steps = next.trace.steps)
    (collected : ∀ q ∈ p.puzzle.stars,
      q ∈ g.collected ∨ q = next.trace.final.position ↔ q ∈ next.trace.path) :
    ({ p with game := settle p g }).Beside next := by
  obtain ⟨running, stack⟩ := acted.stays next rfl
  have gathered (q : Position) (star : q ∈ p.puzzle.stars) :
      q ∈ (collect p.puzzle.stars g).collected ↔ q ∈ next.trace.path := by
    rw [mem_collect star, acted.pose]
    exact collected q star
  obtain ⟨won, unwon⟩ := status_collect gathered
  have settled : settle p g =
      if (collect p.puzzle.stars g).status ≠ .running then collect p.puzzle.stars g
      else { collect p.puzzle.stars g with
        stack := g.stack.settled p.program
        status := if p.maxSteps ≤ g.steps then .lost else .running } := by
    unfold settle
    rw [if_neg (not_not_intro running)]
    rfl
  -- A game that is won keeps the stack it had, which `Beside` leaves open.
  by_cases visits : next.trace.Visits p.puzzle.stars
  · rw [settled, if_pos (by rw [won visits]; decide)]
    exact ⟨⟨acted.pose, acted.tiles, steps⟩, gathered, won, absurd visits, absurd visits⟩
  · have unfinished := (unwon visits).trans running
    rw [settled, if_neg (not_not_intro unfinished)]
    refine ⟨⟨acted.pose, acted.tiles, steps⟩, gathered, fun visited => absurd visited visits, ?_, ?_⟩
    · intro _ past
      rw [← steps] at past
      exact if_pos past
    · intro _ left
      rw [← steps] at left
      exact ⟨if_neg (Nat.not_le.mpr left), by rw [stack]⟩

theorem settle_acted {p : Player} {g : Game} {progress : Progress} (acted : g.Acted progress)
    (steps : g.steps = progress.trace.steps)
    (collected : ∀ q ∈ p.puzzle.stars,
      q ∈ g.collected ∨ q = progress.trace.final.position ↔ q ∈ progress.trace.path) :
    (settle p g).Mirrors progress.trace ∧
      (∀ next, progress = .running next → ({ p with game := settle p g }).Beside next) ∧
      (∀ t, progress = .ended t → (settle p g).status = .lost) := by
  cases progress with
  | running next =>
    have beside := settle_beside acted steps collected
    refine ⟨beside.mirrors, ?_, ?_⟩
    · rintro _ ⟨⟩
      exact beside
    · rintro _ ⟨⟩
  | ended t =>
    have lost := acted.ends t rfl
    have past : settle p g = g := by
      unfold settle
      rw [if_pos (by rw [lost]; decide)]
    rw [past]
    refine ⟨⟨acted.pose, acted.tiles, steps⟩, ?_, ?_⟩
    · rintro _ ⟨⟩
    · rintro _ ⟨⟩
      exact lost

theorem lastSlot_settle (p : Player) (g : Game) : (settle p g).lastSlot = g.lastSlot := by
  unfold settle
  split
  · rfl
  · dsimp only
    split <;> rfl

theorem step_of_running {p : Player} (running : p.game.status = .running) :
    p.step = { p with game := p.execute p.game } := by
  simp [step, running]

theorem stepWhileRunning_over {p : Player} (past : p.game.status ≠ .running) (n : Nat) :
    stepWhileRunning n p = p := by
  cases n with
  | zero => rfl
  | succ n => rw [stepWhileRunning, if_neg past]

section Step

variable {p : Player} {rules : Rules} {r : Run} {e : Event}

theorem Beside.finds (beside : p.Beside r) (running : p.game.status = .running)
    (same : rules.program = p.program) (follows : e.Follows rules r) :
    p.game.stack.Finds p.program (p.game.grid.tile? p.game.pose.position)
      (e.skipped - e.origin.spent p.program) e.before.stack e.slot e.instruction := by
  have found := follows.found.settled.2
  rw [(beside.of_running running).2, beside.mirrors.tiles, beside.mirrors.pose, follows.origin,
    ← same]
  exact found

theorem Beside.stalls (beside : p.Beside r) (running : p.game.status = .running)
    (same : rules.program = p.program) (follows : e.Follows rules r)
    (far : maxFetches ≤ e.skipped - e.origin.spent p.program) : p.step.game.status = .lost := by
  have missed := seek_too_far (beside.finds running same follows) far
  rw [step_of_running running]
  simp only [execute]
  cases sought : seek p.program p.game maxFetches p.game.stack with
  | mk stack found =>
    rw [sought] at missed
    dsimp only at missed
    rw [missed]

/-- The player does what the run does, unless the run places a tile, turns back at its start or has
seen enough. -/
theorem Beside.keeps_up (beside : p.Beside r) (running : p.game.status = .running)
    (same : rules.program = p.program) (follows : e.Follows rules r)
    (near : e.skipped - e.origin.spent p.program < maxFetches) (grounded : r.trace.Grounded)
    (traced : r.trace.Traced) (free : ∀ slot, rules.suppressed slot = false)
    (nothing : r.trace.PlacesNothing e.instruction.action)
    (ends : ∀ t, e.after = .ended t → t.terminal = .boundary) :
    ∃ g, p.step = { p with game := g } ∧ g.lastSlot = some e.slot ∧
      g.Mirrors e.after.trace ∧
      (∀ next, e.after = .running next → ({ p with game := g }).Beside next) ∧
      (∀ t, e.after = .ended t → g.status = .lost) := by
  have sought := seek_of_finds (beside.finds running same follows) near
  obtain ⟨slot, i, origin, skipped, before, after⟩ := e
  obtain ⟨-, -, -, before_eq, drawn, dispatched⟩ := follows
  dsimp only at *
  obtain ⟨stack, stack_eq⟩ : ∃ stack, before.stack = stack := ⟨_, rfl⟩
  rw [stack_eq] at sought before_eq
  subst before_eq
  have extended := dispatched.extension traced
  cases dispatched with
  | earlyExit => cases ends _ rfl
  | act more effect =>
    have acted := effect.acted (g := { p.game with stack, lastSlot := some slot })
      (grounded.congr (by simp) (by simp) (by simp)) (free slot)
      (by simpa using nothing) (fun t last => by rw [ends t last]; decide)
      (by simpa using beside.mirrors.pose) (by simpa using beside.mirrors.tiles) running rfl
    have stepped : p.step =
        { p with
          game := settle p
            { act { p.game with stack, lastSlot := some slot } i.action with
              steps := p.game.steps + 1 } } := by
      rw [step_of_running running, execute, sought]
      dsimp only
      rw [steps_act]
    refine ⟨_, stepped, ?_, settle_acted ⟨acted.pose, acted.tiles, acted.stays, acted.ends⟩ ?_ ?_⟩
    · rw [lastSlot_settle]
      exact lastSlot_act _ _
    · rw [extended.steps, Trace.steps_record, ← beside.mirrors.steps]
    · intro q star
      rw [extended.path, Trace.path_record, ← beside.collected q star]
      simp only [collected_act]

end Step

end Player

end GridRobot
