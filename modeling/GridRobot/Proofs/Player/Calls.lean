import GridRobot.Proofs.Player.Session
import GridRobot.Proofs.Run.Calls

namespace GridRobot

theorem CallStack.Follows.settled {p : Program} {s : CallStack} {done : List Slot}
    (follows : s.Follows p done) : (s.settled p).Follows p done :=
  (follows.suffix (List.dropWhile_suffix _)).rooted

namespace Player

variable {p : Player} {program : Program} {g : Game} {done : List Slot}

/-! ## One instruction -/

theorem acted_act (g : Game) (action : Action) :
    CallStack.Acted action g.stack (act g action).stack := by
  cases action with
  | forward =>
    unfold act
    dsimp only
    split <;> exact .other _ rfl
  | call callee => exact .call callee _
  | turn | paint | noop | other => exact .other _ rfl

theorem settle_frame (p : Player) (g : Game) :
    (settle p g).steps = g.steps ∧ (settle p g).lastSlot = g.lastSlot ∧
      ((settle p g).stack = g.stack ∨ (settle p g).stack = g.stack.settled p.program) := by
  unfold settle
  split
  · exact ⟨rfl, rfl, .inl rfl⟩
  · dsimp only
    split
    · exact ⟨rfl, rfl, .inl rfl⟩
    · exact ⟨rfl, rfl, .inr rfl⟩

theorem follows_settle (follows : g.stack.Follows p.program done) :
    (settle p g).stack.Follows p.program done := by
  rcases (settle_frame p g).2.2 with same | settled
  · rwa [same]
  · rw [settled]
    exact follows.settled

theorem seek_cases (g : Game) (n : Nat) {s : CallStack} (follows : s.Follows program done) :
    (∃ t, seek program g n s = (t, none) ∧ t.Follows program done) ∨
      ∃ (u t : CallStack) (slot : Slot) (i : Instruction), u.Follows program done ∧
        u.next program (g.grid.tile? g.pose.position) = (t, some (slot, i)) ∧
        seek program g n s = (t, some (slot, i)) := by
  induction n generalizing s with
  | zero => exact .inl ⟨s, rfl, follows⟩
  | succ n ih =>
    rw [seek_succ]
    cases fetched : s.next program (g.grid.tile? g.pose.position) with
    | mk t found =>
      cases found with
      | none => exact ih (follows.next fetched)
      | some found => exact .inr ⟨s, t, found.1, found.2, follows, fetched, rfl⟩

theorem follows_execute (follows : g.stack.Follows p.program done) :
    (∃ stack, p.execute g = { g with stack, status := .lost } ∧ stack.Follows p.program done) ∨
      ∃ slot, (p.execute g).steps = g.steps + 1 ∧ (p.execute g).lastSlot = some slot ∧
        p.program.Enters done slot.routine ∧
        (p.execute g).stack.Follows p.program (done ++ [slot]) := by
  unfold execute
  rcases seek_cases g maxFetches follows with
    ⟨t, sought, follows⟩ | ⟨u, t, slot, i, follows, fetched, sought⟩
  · rw [sought]
    exact .inl ⟨t, rfl, follows⟩
  · rw [sought]
    dsimp only
    refine .inr ⟨slot, ?_, ?_, follows.enters fetched, ?_⟩
    · rw [(settle_frame p _).1, steps_act]
    · rw [(settle_frame p _).2.1]
      exact lastSlot_act _ _
    · exact follows_settle (follows.act fetched (acted_act { g with stack := t, lastSlot := some slot } _))

/-! ## Play -/

def executes (p : Player) : List Slot :=
  if p.game.steps < p.step.game.steps then p.step.game.lastSlot.toList else []

/-- The states of a player since its program was loaded or its game was reset, and the slots that the
present game has executed. -/
inductive Plays (program : Program) : List Slot → Player → Prop
  | load (p : Player) : Plays program [] (p.load program)
  | reset {p : Player} (loaded : p.program = program) : Plays program [] p.reset
  | start {p : Player} {done : List Slot} (plays : Plays program done p) :
      Plays program (if p.game.status.isOver then [] else done) p.start
  | step {p : Player} {done : List Slot} (plays : Plays program done p) :
      Plays program (done ++ p.executes) p.step
  | pause {p : Player} {done : List Slot} (plays : Plays program done p) :
      Plays program done p.pause
  | resume {p : Player} {done : List Slot} (plays : Plays program done p) :
      Plays program done p.resume

/-- The game has executed these slots, and its stack follows from them. -/
structure Follows (p : Player) (program : Program) (done : List Slot) : Prop where
  loaded : p.program = program
  stack : p.game.stack.Follows program done
  first : program.EntersFirst done
  steps : p.game.steps = done.length
  last : p.game.lastSlot = done.getLast?

namespace Follows

theorem fresh (loaded : p.program = program) (fresh : p.game = freshGame p.puzzle) :
    p.Follows program [] where
  loaded := loaded
  stack := by
    rw [fresh]
    exact .root program
  first := by simp [Program.EntersFirst]
  steps := by rw [fresh]; rfl
  last := by rw [fresh]; rfl

theorem withGame (follows : p.Follows program done) (stack : g.stack = p.game.stack)
    (steps : g.steps = p.game.steps) (last : g.lastSlot = p.game.lastSlot) :
    Follows { p with game := g } program done where
  loaded := follows.loaded
  stack := stack ▸ follows.stack
  first := follows.first
  steps := steps.trans follows.steps
  last := last.trans follows.last

theorem start (follows : p.Follows program done) :
    p.start.Follows program (if p.game.status.isOver then [] else done) := by
  have begun : (if p.game.status.isOver then p.reset else p).Follows program
      (if p.game.status.isOver then [] else done) := by
    split
    · exact .fresh follows.loaded rfl
    · exact follows
  unfold Player.start
  dsimp only
  generalize (if p.game.status.isOver then p.reset else p) = p at begun
  split
  · exact begun.withGame rfl rfl rfl
  · exact begun.withGame rfl rfl rfl

theorem pause (follows : p.Follows program done) : p.pause.Follows program done := by
  unfold Player.pause
  split
  · exact follows.withGame rfl rfl rfl
  · exact follows

theorem resume (follows : p.Follows program done) : p.resume.Follows program done := by
  unfold Player.resume
  split
  · exact follows.withGame rfl rfl rfl
  · exact follows

theorem execute (follows : p.Follows program done) :
    Follows { p with game := p.execute p.game } program done ∨
      ∃ slot, Follows { p with game := p.execute p.game } program (done ++ [slot]) := by
  obtain ⟨rfl, stack, first, steps, last⟩ := follows
  rcases follows_execute stack with ⟨spent, stalled, follows⟩ | ⟨slot, more, now, enters, follows⟩
  · rw [stalled]
    exact .inl ⟨rfl, follows, first, steps, last⟩
  · refine .inr ⟨slot, rfl, follows, first.concat enters, ?_, ?_⟩
    · rw [List.length_append, ← steps]
      exact more
    · rw [List.getLast?_concat]
      exact now

theorem step (follows : p.Follows program done) : p.step.Follows program (done ++ p.executes) := by
  have begun : (if p.game.status = .idle then p.start else p).Follows program done := by
    split
    · rename_i idle
      have started := follows.start
      rwa [idle, if_neg (by decide)] at started
    · exact follows
  have stepped : p.step.Follows program done ∨ ∃ slot, p.step.Follows program (done ++ [slot]) := by
    unfold Player.step
    dsimp only
    generalize (if p.game.status = .idle then p.start else p) = p at begun
    split
    · exact begun.execute
    · exact .inl begun
  rcases stepped with stalled | ⟨slot, went⟩
  · have none : p.executes = [] := if_neg (by rw [stalled.steps, follows.steps]; exact Nat.lt_irrefl _)
    rwa [none, List.append_nil]
  · have one : p.executes = [slot] := by
      rw [executes, if_pos (by rw [went.steps, follows.steps]; simp), went.last]
      simp
    rwa [one]

end Follows

theorem Plays.follows (plays : Plays program done p) : p.Follows program done := by
  induction plays with
  | load p => exact .fresh rfl rfl
  | reset loaded => exact .fresh loaded rfl
  | start _ ih => exact ih.start
  | step _ ih => exact ih.step
  | pause _ ih => exact ih.pause
  | resume _ ih => exact ih.resume

theorem Plays.stepWhileRunning (n : Nat) (plays : Plays program done p) :
    ∃ done, Plays program done (stepWhileRunning n p) := by
  induction n generalizing p done with
  | zero => exact ⟨done, plays⟩
  | succ n ih =>
    unfold Player.stepWhileRunning
    split
    · exact ih plays.step
    · exact ⟨done, plays⟩

/-! ## Sessions -/

def Operation.renews : Operation → Bool
  | .load _ | .reset => true
  | _ => false

def Operation.restores : Operation → Bool
  | .restore _ => true
  | _ => false

namespace Session

variable {s : Session}

theorem plays_renewed {first : Operation} (renews : first.renews = true) :
    ∃ program, Plays program [] (s.perform first).player := by
  cases first with
  | load program => exact ⟨program, .load _⟩
  | reset => exact ⟨s.player.program, .reset rfl⟩
  | start | step | run | pause | resume | snapshot | restore => cases renews

theorem plays_perform {asked : Operation} (plays : Plays program done s.player)
    (goes : asked.restores = false) : ∃ program done, Plays program done (s.perform asked).player := by
  cases asked with
  | load program => exact ⟨program, _, .load _⟩
  | start => exact ⟨program, _, plays.start⟩
  | step => exact ⟨program, _, plays.step⟩
  | run => exact ⟨program, plays.start.stepWhileRunning _⟩
  | pause => exact ⟨program, _, plays.pause⟩
  | resume => exact ⟨program, _, plays.resume⟩
  | reset => exact ⟨s.player.program, _, .reset rfl⟩
  | snapshot => exact ⟨program, done, plays⟩
  | restore => cases goes

theorem plays_after {asked : List Operation} (plays : Plays program done s.player)
    (go : ∀ a ∈ asked, a.restores = false) :
    ∃ program done, Plays program done (s.after asked).player := by
  induction asked generalizing s program done with
  | nil => exact ⟨program, done, plays⟩
  | cons first asked ih =>
    obtain ⟨goes, go⟩ := List.forall_mem_cons.mp go
    obtain ⟨_, _, plays⟩ := plays_perform plays goes
    exact ih plays go

end Session

end Player

/-- Call stacks are in order throughout a run, and throughout a game that has been loaded or reset and
is not replaced by one kept before. -/
theorem calls_nested :
    (∀ (σ : Type) [RandomSource σ] (p : Program) (c : Config) (s : Setting) (suppressed : Slot → Bool)
      (source after : σ) (t : Trace), execute p c s suppressed source = (.ok t, after) →
      ∃ begun log,
        Trace.begin? (s.prepare c source).1.1 (s.prepare c source).1.2 = some begun ∧
        Logged ⟨p, c, suppressed, s.window⟩ (c.maxSteps * Run.fetchesPerStep) .root 0
          { trace := begun } (s.prepare c source).2 log t after ∧
        Run.NestsCalls ⟨p, c, suppressed, s.window⟩ (c.maxSteps * Run.fetchesPerStep)
          { trace := begun } (s.prepare c source).2 log t) ∧
    ∀ (s : Player.Session) (first : Player.Operation) (asked : List Player.Operation),
      first.renews = true → (∀ a ∈ asked, a.restores = false) →
      let p := (s.after (first :: asked)).player
      ∃ done, Player.Plays p.program done p ∧ p.Follows p.program done := by
  constructor
  · intro σ _ p c s suppressed source after t ran
    obtain ⟨begun, log, begins, logged⟩ := runFrom?_eq_some.mp (execute_eq_ok.mp ran)
    have shallow : begun.stackDepth = 1 := by
      obtain ⟨tile, here, rfl⟩ := Trace.begin?_eq_some begins
      rfl
    exact ⟨begun, log, begins, logged, logged.nestsCalls shallow⟩
  · intro s first asked renews go p
    obtain ⟨_, plays⟩ := Player.Session.plays_renewed (s := s) renews
    obtain ⟨_, done, plays⟩ := Player.Session.plays_after plays go
    have loaded : p.program = _ := plays.follows.loaded
    rw [← loaded] at plays
    exact ⟨done, plays, plays.follows⟩

def oneAndTwo : Config where
  slotsPerRoutine := ⟨1, 2, 0, 0, 0⟩
  maxSteps := 20
  maxAverageExecutions := 1000

def backAndForth : Program :=
  ⟨⟨[some ⟨.call .f2, none⟩], [some ⟨.turn .right, none⟩, some ⟨.call .f1, none⟩], [], [], []⟩⟩

theorem calls_nested_backAndForth :
    (∃ t after, execute backAndForth oneAndTwo loneTile (fun _ => false)
        (⟨#[0.5], 0, false⟩ : Tape) = (.ok t, after) ∧
      t.terminal = .loop ∧ t.stackDepth = 8 ∧
      ∃ log : List Event, backAndForth.EntersFirst (log.map (·.slot)) ∧
        8 ≤ 1 + log.countP (·.instruction.action.isCall)) ∧
    ∃ p : Player, p = (Player.Session.after ⟨.ofPuzzle strip 9, []⟩
        [.load backAndForth, .step, .step, .step]).player ∧
      p.game.stack = [⟨.f1, 0⟩, ⟨.f2, 2⟩, ⟨.f1, 1⟩] ∧
      ∃ done, p.Follows backAndForth done ∧ done.length = 3 := by
  constructor
  · have evaluated : (execute backAndForth oneAndTwo loneTile (fun _ => false)
        (⟨#[0.5], 0, false⟩ : Tape)).1.toOption.any (fun t =>
          decide (t.terminal = .loop ∧ t.stackDepth = 8)) = true := by
      decide +kernel
    obtain ⟨t, after, ran, tested⟩ := exists_ok_of_any evaluated
    obtain ⟨looped, depth⟩ := of_decide_eq_true tested
    obtain ⟨begun, log, -, -, nests⟩ := calls_nested.1 _ _ _ _ _ _ _ _ ran
    exact ⟨t, after, ran, looped, depth, log, nests.first, depth ▸ nests.bounded⟩
  · obtain ⟨done, -, follows⟩ := calls_nested.2 ⟨.ofPuzzle strip 9, []⟩ (.load backAndForth)
      [.step, .step, .step] rfl (by decide)
    have steps : (Player.Session.after ⟨.ofPuzzle strip 9, []⟩
        [.load backAndForth, .step, .step, .step]).player.game.steps = 3 := by
      decide
    exact ⟨_, rfl, by decide, done, follows, follows.steps.symm.trans steps⟩

end GridRobot
