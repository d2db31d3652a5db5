import GridRobot.Search.Basic

namespace GridRobot.Search

variable {σ τ : Type} [RandomSource σ] [Clock τ]

def readClock (s : Search σ τ) : Float × Search σ τ :=
  let (now, clock) := Clock.now s.clock
  (now, { s with clock })

def drawn (s : Search σ τ) (x : StateM σ α) : α × Search σ τ :=
  let (a, source) := x s.source
  (a, { s with source })

def progress (s : Search σ τ) : Snapshot × Search σ τ :=
  let (now, s) := s.readClock
  (⟨s.attempts, now - s.startedAt, s.lastFailure, s.tally, s.restarts⟩, s)

/-- Begins anew with this time and number of attempts to spend; the source, the clock and the
snapshots are kept. -/
def start (s : Search σ τ) (timeout : Option Float) (maxAttempts : Option Int) : Search σ τ :=
  let (now, s) := s.readClock
  { rules := s.rules
    source := s.source
    clock := s.clock
    startedAt := now
    lastReport := now
    deadline := timeout.map (now + ·)
    maxAttempts
    snapshots := s.snapshots }

def stop (s : Search σ τ) : Search σ τ :=
  { s with stopRequested := true }

/-! ## Candidates -/

def claim (s : Search σ τ) (p : Program) : Option (Search σ τ) :=
  if s.seen.contains p.signature then none
  else some { s with seen := s.seen.insert p.signature }

/-- The first unseen one of so many programs drawn; a draw without a program ends the tries. -/
def claimDrawn (draw : StateM σ (Option Program)) : Nat → Search σ τ → Option Program × Search σ τ
  | 0, s => (none, s)
  | tries + 1, s =>
    match s.drawn draw with
    | (none, s) => (none, s)
    | (some p, s) =>
      match s.claim p with
      | some s => (some p, s)
      | none => claimDrawn draw tries s

def drawRepair (rules : SearchRules) (a : Attempt) : StateM σ (Option Program) := do
  let case : Case := ⟨a.program, .ofTrace a.trace, rules.config, rules.policy⟩
  return (← (repair case a.verdict.failure?).run).toOption

def drawFresh (rules : SearchRules) : StateM σ (Option Program) :=
  some <$> Program.draw rules.config

def claimFresh (s : Search σ τ) : Option Program × Search σ τ :=
  claimDrawn (drawFresh s.rules) s.rules.tries s

def nextProgram (s : Search σ τ) : Option Program × Search σ τ :=
  match s.parent with
  | none => s.claimFresh
  | some parent =>
    match claimDrawn (drawRepair s.rules parent) s.rules.tries s with
    | (some p, s) => (some p, s)
    | (none, s) => claimFresh { s with parent := none }

/-! ## Attempts -/

def finish (s : Search σ τ) (outcome : Outcome) (winner : Option Attempt) : Search σ τ :=
  let (now, s) := s.readClock
  let result : SearchResult := {
    outcome
    attempts := s.attempts
    tally := s.tally
    errorName :=
      if outcome = .success then none
      else some ((s.lastFailure.map Failure.name).getD outcome.name)
    puzzle := winner.map fun a => a.puzzle s.rules.config
    solution := winner.map Attempt.solution
    seed := s.rules.seed
    elapsed := now - s.startedAt
    restarts := s.restarts
    trace := winner.map (·.trace) }
  { s with result := some result }

def report (s : Search σ τ) : Search σ τ :=
  let s :=
    if s.rules.observed then
      let (snapshot, s) := s.progress
      { s with snapshots := s.snapshots.push snapshot }
    else s
  let (now, s) := s.readClock
  if s.rules.reportInterval ≤ now - s.lastReport then { s with lastReport := now } else s

def fail (s : Search σ τ) (f : Failure) (parent : Option Attempt) : Search σ τ :=
  report { s with tally := s.tally.add f, lastFailure := some f, parent }

def tryProgram (s : Search σ τ) (p : Program) : Option Attempt × Search σ τ :=
  if s.rules.breaksDown s.attempts then (none, s)
  else
    match s.drawn (simulate p s.rules.config { window := s.rules.window }) with
    | (.ok a, s) =>
      match a.verdict with
      | .broken _ => (none, s)
      | _ => (some a, s)
    | (.error _, s) => (none, s)

/-- What becomes of the search by a run: it succeeds, or goes on from the failing attempt; after a
breakdown it goes on from nothing. -/
def judge (s : Search σ τ) (p : Program) : Search σ τ :=
  match s.tryProgram p with
  | (none, s) => s.fail .other none
  | (some a, s) =>
    match a.verdict.failure? with
    | none => s.finish .success (some a)
    | some f => s.fail f (some a)

/-- Counts an attempt; every so many attempts all that was learned is forgotten. -/
def beginAttempt (s : Search σ τ) : Search σ τ :=
  let attempts := s.attempts + 1
  if attempts % s.rules.config.restartAfter = 0 then
    { s with attempts, seen := ∅, parent := none, restarts := s.restarts + 1 }
  else { s with attempts }

def attempt (s : Search σ τ) : Search σ τ :=
  match s.beginAttempt.nextProgram with
  | (none, s) => s.finish .exhausted none
  | (some p, s) => s.judge p

/-- Whether the deadline has come; without one the clock is not read. -/
def isLate (s : Search σ τ) : Bool × Search σ τ :=
  match s.deadline with
  | none => (false, s)
  | some deadline =>
    let (now, s) := s.readClock
    (decide (deadline ≤ now), s)

def isSpent (s : Search σ τ) : Bool :=
  s.maxAttempts.any fun (most : Int) => decide (most ≤ (s.attempts : Int))

/-- One attempt, or the end of the search: it was asked to stop, its time is over, or its attempts are
spent. Once it has a result nothing changes. -/
def step (s : Search σ τ) : Search σ τ :=
  if s.result.isSome then s
  else if s.stopRequested then s.finish .stopped none
  else
    match s.isLate with
    | (true, s) => s.finish .timeout none
    | (false, s) => if s.isSpent then s.finish .exhausted none else s.attempt

def run : Nat → Search σ τ → Search σ τ
  | 0, s => s
  | n + 1, s => if s.result.isSome then s else run n s.step

def defaultTimeout : Float := 30

end GridRobot.Search
