import GridRobot.Proofs.Player.Parity
import GridRobot.Proofs.Player.Session

/-!
Pausing a game. A player under a user's control is always one of two: the player that plain steps lead
to, or the same one held. A pause holds it, a resume or a start lets it go again, and only a step made
while it is let go moves it on, so nothing of a game depends on when it was held.
-/

namespace GridRobot

namespace Player

variable {p : Player}

/-! ## Starting again -/

/-- A star under the robot has been collected before anything runs, so that starting again finds nothing
to do. -/
def Gathered (p : Player) : Prop :=
  p.game.status = .running → p.game.steps = 0 → collect p.puzzle.stars p.game = p.game

theorem collect_collect (stars : List Position) (g : Game) :
    collect stars (collect stars g) = collect stars g := by
  have gathered (pose : Pose) (collected : List Position) :
      let kept :=
        if stars.contains pose.position && !collected.contains pose.position then
          collected ++ [pose.position]
        else collected
      (stars.contains pose.position && !kept.contains pose.position) = false := by
    dsimp only
    split
    · simp
    · rename_i had
      exact Bool.eq_false_iff.mpr had
  have twice (won : Bool) : (if won then .won else if won then .won else g.status) =
      if won then .won else g.status := by
    cases won <;> rfl
  unfold collect
  dsimp only
  rw [gathered g.pose g.collected, if_neg Bool.false_ne_true, twice]

theorem gathered_start (p : Player) : p.start.Gathered := by
  obtain ⟨g, -, started⟩ := p.start_eq
  rw [started]
  by_cases fresh : g.steps = 0
  · rw [if_pos fresh]
    intro _ _
    exact collect_collect _ _
  · rw [if_neg fresh]
    intro _ unmoved
    exact absurd unmoved fresh

theorem gathered_step (gathered : p.Gathered) : p.step.Gathered := by
  have begun : (if p.game.status = .idle then p.start else p).Gathered := by
    split
    · exact p.gathered_start
    · exact gathered
  unfold step
  dsimp only
  generalize (if p.game.status = .idle then p.start else p) = p at begun
  split
  · rename_i running
    intro going unmoved
    rcases status_execute running with finished | ⟨-, moved, -⟩
    · rw [going] at finished
      cases finished
    · rw [moved] at unmoved
      cases unmoved
  · exact begun

theorem gathered_iterate_step (gathered : p.Gathered) (n : Nat) : (step^[n] p).Gathered := by
  induction n generalizing p with
  | zero => exact gathered
  | succ n ih => exact ih (gathered_step gathered)

def withStatus (p : Player) (status : GameStatus) : Player :=
  { p with game := { p.game with status } }

theorem withStatus_of_eq {status : GameStatus} (same : p.game.status = status) :
    p.withStatus status = p := by
  subst same
  rfl

theorem start_withStatus (gathered : p.Gathered) (running : p.game.status = .running)
    {status : GameStatus} (going : status.isOver = false) : (p.withStatus status).start = p := by
  have again : { p.game with status := .running } = p.game := by
    rw [← running]
  have unmoved : (if p.game.steps = 0 then collect p.puzzle.stars p.game else p.game) = p.game := by
    split
    · rename_i unmoved
      exact gathered running unmoved
    · rfl
  simp only [start, withStatus, going, Bool.false_eq_true, if_false, again, unmoved]

/-! ## Control -/

inductive Control where
  | start
  | pause
  | resume
  | step
  deriving DecidableEq

def control (p : Player) : Control → Player
  | .start => p.start
  | .pause => p.pause
  | .resume => p.resume
  | .step => p.step

def controlled (p : Player) (asked : List Control) : Player :=
  asked.foldl control p

def stepsMade (p : Player) : List Control → Nat
  | [] => 0
  | first :: asked =>
    (if first = .step ∧ (p.game.status = .idle ∨ p.game.status = .running) then 1 else 0) +
      (p.control first).stepsMade asked

/-- No game is over before the last call, so that no start begins it anew. -/
def Undecided (p : Player) (asked : List Control) : Prop :=
  ∀ n < asked.length, (p.controlled (asked.take n)).game.status.isOver = false

theorem Undecided.first {first : Control} {asked : List Control}
    (undecided : p.Undecided (first :: asked)) : p.game.status.isOver = false :=
  undecided 0 (Nat.zero_lt_succ _)

theorem Undecided.later {first : Control} {asked : List Control}
    (undecided : p.Undecided (first :: asked)) : (p.control first).Undecided asked :=
  fun n within => undecided (n + 1) (Nat.succ_lt_succ within)

theorem pause_eq_withStatus (p : Player) : ∃ status, p.pause = p.withStatus status := by
  unfold pause
  split
  · exact ⟨.paused, rfl⟩
  · exact ⟨p.game.status, rfl⟩

theorem resume_eq_withStatus (p : Player) : ∃ status, p.resume = p.withStatus status := by
  unfold resume
  split
  · exact ⟨.running, rfl⟩
  · exact ⟨p.game.status, rfl⟩

/-! ## Plain steps, held or not -/

inductive Held (plain : Player) : Player → Prop
  | no (begun : plain.game.status = .running ∨ plain.game.status.isOver = true) : Held plain plain
  | yes (running : plain.game.status = .running) : Held plain (plain.withStatus .paused)

theorem begun_step (begun : p.game.status = .running ∨ p.game.status.isOver = true) :
    p.step.game.status = .running ∨ p.step.game.status.isOver = true := by
  rcases begun with running | finished
  · rw [step_of_running running]
    rcases status_execute running with finished | ⟨going, -⟩
    · exact .inr finished
    · exact .inl going
  · rw [step_over finished]
    exact .inr finished

theorem held_control {plain q : Player} (held : Held plain q) (gathered : plain.Gathered)
    (going : q.game.status.isOver = false) (asked : Control) :
    Held (step^[q.stepsMade [asked]] plain) (q.control asked) := by
  cases held with
  | no begun =>
    have running := begun.resolve_right (by rw [going]; exact Bool.false_ne_true)
    cases asked with
    | start =>
      have same := start_withStatus gathered running going
      rw [withStatus_of_eq rfl] at same
      rw [control, same]
      exact .no begun
    | pause =>
      have held : plain.pause = plain.withStatus .paused := if_pos running
      rw [control, held]
      exact .yes running
    | resume =>
      have same : plain.resume = plain := if_neg (by rw [running]; decide)
      rw [control, same]
      exact .no begun
    | step =>
      have made : plain.stepsMade [.step] = 1 := if_pos ⟨rfl, .inr running⟩
      rw [made]
      exact .no (begun_step begun)
  | yes running =>
    cases asked with
    | start =>
      rw [control, start_withStatus gathered running rfl]
      exact .no (.inl running)
    | pause => exact .yes running
    | resume =>
      have same : (plain.withStatus .paused).resume = plain := withStatus_of_eq running
      rw [control, same]
      exact .no (.inl running)
    | step => exact .yes running

theorem stepsMade_cons (p : Player) (first : Control) (asked : List Control) :
    p.stepsMade (first :: asked) = p.stepsMade [first] + (p.control first).stepsMade asked :=
  rfl

theorem held_controlled {plain q : Player} (held : Held plain q) (gathered : plain.Gathered)
    {asked : List Control} (undecided : q.Undecided asked) :
    Held (step^[q.stepsMade asked] plain) (q.controlled asked) := by
  induction asked generalizing plain q with
  | nil => exact held
  | cons first asked ih =>
    rw [stepsMade_cons, Nat.add_comm, Function.iterate_add_apply]
    exact ih (held_control held gathered undecided.first first)
      (gathered_iterate_step gathered _) undecided.later

theorem held_of_idle (idle : p.game.status = .idle) {asked : List Control}
    (begins : .start ∈ asked ∨ .step ∈ asked) (undecided : p.Undecided asked) :
    Held (step^[p.stepsMade asked] p.start) (p.controlled asked) := by
  -- up to the first start or step nothing happens; from there on it is `held_controlled`
  induction asked with
  | nil => rcases begins with begins | begins <;> cases begins
  | cons first asked ih =>
    rw [stepsMade_cons, Nat.add_comm, Function.iterate_add_apply]
    have waits (same : p.control first = p) (more : .start ∈ asked ∨ .step ∈ asked) :
        Held (step^[(p.control first).stepsMade asked] p.start)
          ((p.control first).controlled asked) := by
      have later := undecided.later
      rw [same] at later ⊢
      exact ih more later
    cases first with
    | start => exact held_controlled (.no p.status_start) p.gathered_start undecided.later
    | step =>
      have made : p.stepsMade [.step] = 1 := if_pos ⟨rfl, .inl idle⟩
      have begun : Held p.start.step (p.control .step) := by
        rw [control, step_of_idle idle]
        exact .no (begun_step p.status_start)
      rw [made]
      exact held_controlled begun (gathered_step p.gathered_start) undecided.later
    | pause => exact waits (if_neg (by rw [idle]; decide)) (by simpa using begins)
    | resume => exact waits (if_neg (by rw [idle]; decide)) (by simpa using begins)

theorem Held.eq_withStatus {plain q : Player} (held : Held plain q) :
    q = plain.withStatus q.game.status ∧
      plain.game.status = if q.game.status = .paused then .running else q.game.status := by
  cases held with
  | no begun =>
    have unheld : plain.game.status ≠ .paused := by
      intro paused
      rw [paused] at begun
      rcases begun with begun | begun <;> cases begun
    exact ⟨rfl, (if_neg unheld).symm⟩
  | yes running => exact ⟨rfl, running⟩

theorem Held.eq_of_over {plain q : Player} (held : Held plain q)
    (finished : q.game.status.isOver = true) : q = plain := by
  cases held with
  | no => rfl
  | yes => cases finished

/-- Steps beyond the last of a game change nothing, so that plain steps that end a game lead where playing
on does. -/
theorem iterate_step_eq_run {n : Nat} (finished : (step^[n] p.start).game.status.isOver = true) :
    step^[n] p.start = p.run := by
  obtain ⟨m, played, going, won⟩ := p.run_ends
  have ended : (step^[m] p.start).game.status.isOver = true := by
    rw [← played]
    exact GameStatus.isOver_iff.mpr won
  have enough : m ≤ n := by
    by_contra fewer
    rw [going n (Nat.not_le.mp fewer)] at finished
    cases finished
  obtain ⟨more, rfl⟩ := Nat.exists_eq_add_of_le' enough
  rw [Function.iterate_add_apply, iterate_step_over ended, played]

end Player

/-- Whatever pauses and resumes come between, a player is where one start and the steps made while it was
idle or running lead, but for being held; and a game so decided is the one that playing on decides. -/
theorem controlled_eq_iterate_step (p : Player) {asked : List Player.Control}
    (begins : .start ∈ asked ∨ .step ∈ asked) (undecided : p.reset.Undecided asked) :
    let q := p.reset.controlled asked
    let plain := Player.step^[p.reset.stepsMade asked] p.reset.start
    q = plain.withStatus q.game.status ∧
      plain.game.status = (if q.game.status = .paused then .running else q.game.status) ∧
      (∀ r : Player, (∃ status, r.pause = r.withStatus status) ∧
        ∃ status, r.resume = r.withStatus status) ∧
      (q.game.status = .won ∨ q.game.status = .lost → q = p.reset.run) := by
  intro q plain
  have held : Player.Held plain q := Player.held_of_idle rfl begins undecided
  obtain ⟨same, status⟩ := held.eq_withStatus
  refine ⟨same, status, fun r => ⟨r.pause_eq_withStatus, r.resume_eq_withStatus⟩, fun finished => ?_⟩
  have finished := GameStatus.isOver_iff.mpr finished
  have ends := held.eq_of_over finished
  rw [ends] at finished ⊢
  exact Player.iterate_step_eq_run finished

def heldStrip : Player :=
  (Player.ofPuzzle strip 9).load
    ⟨⟨[some ⟨.paint .green, none⟩, some ⟨.forward, none⟩], [], [], [], []⟩⟩

def heldAsked : List Player.Control :=
  [.pause, .step, .step, .pause, .step, .start, .pause, .resume, .step, .step]

theorem controlled_strip :
    .start ∈ heldAsked ∧ heldStrip.reset.Undecided heldAsked ∧
      (heldStrip.reset.controlled heldAsked).game.status = .won ∧
      heldStrip.reset.stepsMade heldAsked = 4 ∧
      heldStrip.reset.controlled heldAsked = heldStrip.reset.run := by
  have starts : .start ∈ heldAsked := by decide
  have undecided : heldStrip.reset.Undecided heldAsked := by
    unfold Player.Undecided
    decide
  have won : (heldStrip.reset.controlled heldAsked).game.status = .won := by decide
  obtain ⟨-, -, -, run⟩ := controlled_eq_iterate_step heldStrip (.inl starts) undecided
  exact ⟨starts, undecided, won, by decide, run (.inl won)⟩

end GridRobot
