import Std.Data.HashSet.Basic
import GridRobot.Puzzle
import GridRobot.Repair.Strategy

namespace GridRobot

class Clock (τ : Type) where
  now : StateM τ Float

structure Ticker where
  start : Float
  tick : Float
  readings : Nat := 0

instance : Clock Ticker where
  now t := (t.start + Float.ofNat t.readings * t.tick, { t with readings := t.readings + 1 })

structure Stopwatch where
  reading : Float

instance : Clock Stopwatch where
  now t := (t.reading, t)

/-! ## Searches -/

inductive Outcome where
  | success
  | timeout
  | exhausted
  | stopped
  deriving DecidableEq

def Outcome.name : Outcome → String
  | .success => "success"
  | .timeout => "timeout"
  | .exhausted => "exhausted"
  | .stopped => "stopped"

def Outcome.ofName? (s : String) : Option Outcome :=
  [Outcome.success, .timeout, .exhausted, .stopped].find? fun o => o.name == s

abbrev Tally := ArrivalMap Failure Nat

namespace Tally

def zero : Tally :=
  ⟨Failure.all.map fun f => (f, 0)⟩

def count (t : Tally) (f : Failure) : Nat :=
  (t.get? f).getD 0

def add (t : Tally) (f : Failure) : Tally :=
  t.alter f fun n => n.getD 0 + 1

def total (t : Tally) : Nat :=
  sum (t.entries.map (·.2))

end Tally

structure Snapshot where
  attempts : Nat
  elapsed : Float
  lastFailure : Option Failure
  tally : Tally
  restarts : Nat

structure SearchResult where
  outcome : Outcome
  attempts : Nat
  tally : Tally := .zero
  /-- The last failure, or else the outcome, unless the search succeeded. -/
  errorName : Option String := none
  puzzle : Option Puzzle := none
  solution : Option Program := none
  seed : Option Int := none
  elapsed : Float := 0
  restarts : Nat := 0
  trace : Option Trace := none

def SearchResult.isSuccess (r : SearchResult) : Bool :=
  r.outcome == .success

structure SearchRules where
  config : Config
  policy : Policy := {}
  tries : Nat := 100
  window : Nat := defaultWindow
  seed : Option Int := none
  observed : Bool := false
  reportInterval : Float := 10
  /-- The attempts whose run breaks down before it draws anything. -/
  breaksDown : Nat → Bool := fun _ => false

structure Search (σ τ : Type) where
  rules : SearchRules
  source : σ
  clock : τ
  attempts : Nat := 0
  restarts : Nat := 0
  tally : Tally := .zero
  lastFailure : Option Failure := none
  result : Option SearchResult := none
  /-- The signatures of the programs tried since the last restart. -/
  seen : Std.HashSet String := ∅
  /-- The failing attempt that the next program is a repair of. -/
  parent : Option Attempt := none
  stopRequested : Bool := false
  startedAt : Float := 0
  lastReport : Float := 0
  deadline : Option Float := none
  maxAttempts : Option Int := none
  snapshots : Array Snapshot := #[]

end GridRobot
