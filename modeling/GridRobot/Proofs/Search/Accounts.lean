import Mathlib.Data.Nat.ModEq
import GridRobot.Proofs.Search.Success

namespace GridRobot

variable {σ τ : Type} [RandomSource σ] [Clock τ]

theorem Tally.keys_add {t : Tally} (once : t.keys.Nodup) (f : Failure) : (t.add f).keys.Nodup := by
  have lists : t.Lists fun _ => True := ⟨once, fun _ _ => trivial⟩
  exact (lists.alter trivial _).once

theorem Tally.total_add (t : Tally) (f : Failure) : (t.add f).total = t.total + 1 := by
  obtain ⟨entries⟩ := t
  simp only [add, total, ArrivalMap.alter]
  induction entries with
  | nil => simp [ArrivalMap.alter.go]
  | cons e rest ih =>
    by_cases here : e.1 = f
    · simp [ArrivalMap.alter.go, here]
      omega
    · simp [ArrivalMap.alter.go, here, ih]
      omega

namespace Search

/-- The states of a search from a state on: it is stepped, asked to stop, or looked at. -/
inductive Follows (s : Search σ τ) : Search σ τ → Prop
  | refl : Follows s s
  | step {t : Search σ τ} (follows : Follows s t) : Follows s t.step
  | stop {t : Search σ τ} (follows : Follows s t) : Follows s t.stop
  | look {t : Search σ τ} (follows : Follows s t) : Follows s t.progress.2

structure Counts (begun s : Search σ τ) (n : Nat) : Prop where
  total : s.tally.total = n
  restarts : s.restarts = s.attempts / s.rules.config.restartAfter
  last : s.lastFailure = none ↔ n = 0
  seen : s.rules.observed = true → ∃ new, s.snapshots.toList = begun.snapshots.toList ++ new ∧
    new.map (·.attempts) = List.range' 1 n

/-- How a step ends a search, and what its failures sum to. The attempt of a success, and one for which
no program is found, are counted without a failure. -/
inductive Ends (s : Search σ τ) (r : SearchResult) : Prop
  | stopped (asked : s.stopRequested = true) (outcome : r.outcome = .stopped)
      (total : r.tally.total = r.attempts)
  | late (unstopped : s.stopRequested = false) (late : s.isLate.1 = true)
      (outcome : r.outcome = .timeout) (total : r.tally.total = r.attempts)
  | spent (unstopped : s.stopRequested = false) (early : s.isLate.1 = false)
      (spent : s.isSpent = true) (outcome : r.outcome = .exhausted)
      (total : r.tally.total = r.attempts)
  | unseen {t : Search σ τ} (opened : s.Open)
      (next : s.isLate.2.beginAttempt.nextProgram = (none, t)) (outcome : r.outcome = .exhausted)
      (total : r.tally.total + 1 = r.attempts)
  | won {p : Program} {t : Search σ τ} (runs : s.Runs p t) (outcome : r.outcome = .success)
      (total : r.tally.total + 1 = r.attempts)

/-- The next step runs no program, draws nothing, counts nothing and leaves the search with a result. -/
structure Closes (s : Search σ τ) : Prop where
  idle : ∀ p t, ¬ s.Runs p t
  ends : ∃ clock r, s.step = { s with clock, result := some r }

/-! ## What operations do to the accounts -/

section Counts

variable {begun s : Search σ τ} {n : Nat}

omit [RandomSource σ] [Clock τ] in
theorem beginAttempt_frame (s : Search σ τ) : ∃ seen parent restarts,
    s.beginAttempt = { s with attempts := s.attempts + 1, seen, parent, restarts } := by
  unfold beginAttempt
  dsimp only
  split <;> exact ⟨_, _, _, rfl⟩

omit [RandomSource σ] [Clock τ] in
theorem Counts.beginAttempt (counts : Counts begun s s.attempts) :
    Counts begun s.beginAttempt s.attempts := by
  obtain ⟨total, restarts, last, seen⟩ := counts
  unfold Search.beginAttempt
  dsimp only
  split
  · rename_i due
    refine ⟨total, ?_, last, seen⟩
    change s.restarts + 1 = (s.attempts + 1) / s.rules.config.restartAfter
    rw [Nat.succ_div, if_pos (Nat.dvd_of_mod_eq_zero due), restarts]
  · rename_i early
    refine ⟨total, ?_, last, seen⟩
    change s.restarts = (s.attempts + 1) / s.rules.config.restartAfter
    rw [Nat.succ_div, if_neg fun due => early (Nat.mod_eq_zero_of_dvd due), restarts, Nat.add_zero]

omit [RandomSource σ] in
theorem snapshots_fail (s : Search σ τ) (f : Failure) (parent : Option Attempt) :
    ∃ snapshot : Snapshot, snapshot.attempts = s.attempts ∧ (s.fail f parent).snapshots =
      if s.rules.observed then s.snapshots.push snapshot else s.snapshots := by
  refine ⟨(progress { s with tally := s.tally.add f, lastFailure := some f, parent }).1, rfl, ?_⟩
  unfold fail report
  dsimp only
  by_cases observed : s.rules.observed = true
  · simp only [observed, if_true]
    split <;> rfl
  · simp only [observed, Bool.false_eq_true, if_false]
    split <;> rfl

omit [RandomSource σ] in
theorem Counts.fail (counts : Counts begun s n) (attempts : s.attempts = n + 1) (f : Failure)
    (parent : Option Attempt) : Counts begun (s.fail f parent) (n + 1) := by
  obtain ⟨total, restarts, last, seen⟩ := counts
  obtain ⟨snapshot, taken, pushed⟩ := s.snapshots_fail f parent
  obtain ⟨clock, snapshots, lastReport, same⟩ := s.fail_frame f parent
  rw [same] at pushed ⊢
  refine ⟨?_, restarts, by simp, fun observed => ?_⟩
  · exact (s.tally.total_add f).trans (congrArg (· + 1) total)
  · obtain ⟨new, before, numbered⟩ := seen observed
    refine ⟨new ++ [snapshot], ?_, ?_⟩
    · rw [pushed, if_pos observed, Array.toList_push, before, List.append_assoc]
    · rw [List.map_append, numbered, List.range'_concat, List.map_singleton, taken, attempts]
      simp [Nat.add_comm]

end Counts

/-! ## Along a run -/

section Follows

variable {begun s t : Search σ τ}

theorem stopRequested_step (asked : s.stopRequested = true) : s.step.stopRequested = true := by
  generalize ended : s.step = u
  have stepped := s.stepped
  rw [ended] at stepped
  cases stepped with
  | finished | stopped => exact asked
  | late _ unstopped | spent _ unstopped => cases asked.symm.trans unstopped
  | unseen opened => cases asked.symm.trans opened.unstopped
  | ran runs => cases asked.symm.trans runs.opened.unstopped

theorem Follows.stopRequested (follows : s.Follows t) (asked : s.stopRequested = true) :
    t.stopRequested = true := by
  induction follows with
  | refl => exact asked
  | step _ ih => exact stopRequested_step ih
  | stop => rfl
  | look _ ih => exact ih

theorem tally_step (s : Search σ τ) :
    s.step.tally = s.tally ∨ ∃ f, s.step.tally = s.tally.add f := by
  generalize ended : s.step = u
  have stepped := s.stepped
  rw [ended] at stepped
  have read : s.isLate.2.tally = s.tally := by
    obtain ⟨clock, same⟩ := s.isLate_frame
    rw [same]
  have began {p? : Option Program} {t : Search σ τ}
      (next : s.isLate.2.beginAttempt.nextProgram = (p?, t)) : t.tally = s.tally := by
    obtain ⟨_, _, _, began⟩ := s.isLate.2.beginAttempt_frame
    obtain ⟨_, _, _, drew, -⟩ := s.isLate.2.beginAttempt.nextProgram_frame
    rw [next, began] at drew
    exact (congrArg (·.tally) drew).trans read
  cases stepped with
  | finished | stopped => exact .inl rfl
  | late | spent => exact .inl read
  | unseen _ next =>
    have kept := began next
    exact .inl kept
  | @ran p t runs =>
    have tried {v : Search σ τ} {a : Option Attempt} (tried : t.tryProgram p = (a, v)) :
        v.tally = s.tally := by
      obtain ⟨source, same⟩ := t.tryProgram_frame p
      rw [tried] at same
      exact (congrArg (·.tally) same).trans (began runs.next)
    have failed (v : Search σ τ) (f : Failure) (parent : Option Attempt) :
        (v.fail f parent).tally = v.tally.add f := by
      obtain ⟨_, _, _, same⟩ := v.fail_frame f parent
      rw [same]
    have judged := t.judged p
    generalize t.judge p = u at judged
    cases judged with
    | brokeDown ran => exact .inr ⟨.other, by rw [failed, tried ran]⟩
    | failed ran => exact .inr ⟨_, by rw [failed, tried ran]⟩
    | passed ran =>
      have kept := tried ran
      exact .inl kept

theorem Follows.nodup_tally (follows : s.Follows t) (once : s.tally.keys.Nodup) :
    t.tally.keys.Nodup := by
  induction follows with
  | refl => exact once
  | @step u _ ih =>
    obtain same | ⟨f, same⟩ := u.tally_step
    · rwa [same]
    · rw [same]
      exact Tally.keys_add ih f
  | stop _ ih | look _ ih => exact ih

theorem Launched.exists_follows {rules : SearchRules} (launched : s.Launched rules) :
    ∃ (u : Search σ τ) (timeout : Option Float) (maxAttempts : Option Int),
      (u.start timeout maxAttempts).Follows s := by
  induction launched with
  | start _ timeout maxAttempts => exact ⟨_, timeout, maxAttempts, .refl⟩
  | step _ ih =>
    obtain ⟨u, timeout, maxAttempts, follows⟩ := ih
    exact ⟨u, timeout, maxAttempts, follows.step⟩
  | stop _ ih =>
    obtain ⟨u, timeout, maxAttempts, follows⟩ := ih
    exact ⟨u, timeout, maxAttempts, follows.stop⟩
  | look _ ih =>
    obtain ⟨u, timeout, maxAttempts, follows⟩ := ih
    exact ⟨u, timeout, maxAttempts, follows.look⟩

theorem Follows.finished (follows : s.Follows t) (finished : s.result.isSome = true) :
    ∃ clock stopRequested, t = { s with clock, stopRequested } := by
  induction follows with
  | refl => exact ⟨s.clock, s.stopRequested, rfl⟩
  | step _ ih =>
    obtain ⟨clock, stopRequested, rfl⟩ := ih
    exact ⟨clock, stopRequested, if_pos finished⟩
  | stop _ ih =>
    obtain ⟨clock, stopRequested, rfl⟩ := ih
    exact ⟨clock, true, rfl⟩
  | look _ ih =>
    obtain ⟨clock, stopRequested, rfl⟩ := ih
    exact ⟨_, stopRequested, rfl⟩

omit [RandomSource σ] in
theorem isSpent_isLate (s : Search σ τ) : s.isLate.2.isSpent = s.isSpent := by
  obtain ⟨clock, same⟩ := s.isLate_frame
  rw [same]
  rfl

omit [RandomSource σ] in
theorem result_isLate (s : Search σ τ) : s.isLate.2.result = s.result := by
  obtain ⟨clock, same⟩ := s.isLate_frame
  rw [same]

theorem closes (barred : s.stopRequested = true ∨ s.isLate.1 = true ∨ s.isSpent = true) :
    s.Closes := by
  have shut : ¬ s.Open := by
    rintro ⟨-, unstopped, early, unspent⟩
    rw [isSpent_isLate] at unspent
    simp [unstopped, early, unspent] at barred
  refine ⟨fun p t runs => shut runs.opened, ?_⟩
  generalize ended : s.step = u
  have stepped := s.stepped
  rw [ended] at stepped
  cases stepped with
  | finished found =>
    obtain ⟨r, found⟩ := Option.isSome_iff_exists.mp found
    exact ⟨s.clock, r, by rw [← found]⟩
  | stopped => exact ⟨_, _, rfl⟩
  | late | spent =>
    obtain ⟨clock, same⟩ := s.isLate_frame
    rw [same]
    exact ⟨_, _, rfl⟩
  | unseen opened => exact absurd opened shut
  | ran runs => exact absurd runs.opened shut

end Follows

/-! ## The accounts of a run -/

section Accounts

variable {begun s t : Search σ τ}

structure Bounded (begun s : Search σ τ) : Prop where
  deadline : s.deadline = begun.deadline
  budget : s.maxAttempts = begun.maxAttempts
  capped : ∀ most, begun.maxAttempts = some most → (s.attempts : Int) ≤ max most 0

/-- The result of a search: one step gave it, and it shows what the search has counted. -/
structure Ended (begun s : Search σ τ) (r : SearchResult) : Prop where
  ends : ∃ u, begun.Follows u ∧ u.result = none ∧ u.step.result = some r ∧ u.Ends r
  attempts : r.attempts = s.attempts
  tally : r.tally = s.tally
  restarts : r.restarts = s.restarts
  error : r.errorName = none ↔ r.outcome = .success

/-- What holds of a search all along, from the state on in which it was begun. -/
structure Accounts (begun s : Search σ τ) : Prop extends Bounded begun s where
  counts : s.result = none → Counts begun s s.attempts
  ended : ∀ r, s.result = some r → Ended begun s r

structure Begins (begun t : Search σ τ) (n : Nat) : Prop extends Bounded begun t where
  counts : Counts begun t n
  attempts : t.attempts = n + 1
  unfinished : t.result = none

theorem Accounts.congr (accounts : Accounts begun s) (clock : τ) (stopRequested : Bool) :
    Accounts begun { s with clock, stopRequested } := by
  obtain ⟨⟨deadline, budget, capped⟩, counts, ended⟩ := accounts
  refine ⟨⟨deadline, budget, capped⟩, fun unfinished => ?_, fun r found => ?_⟩
  · obtain ⟨total, restarts, last, seen⟩ := counts unfinished
    exact ⟨total, restarts, last, seen⟩
  · obtain ⟨ends, attempts, tally, restarts, error⟩ := ended r found
    exact ⟨ends, attempts, tally, restarts, error⟩

theorem Accounts.isLate (accounts : Accounts begun s) : Accounts begun s.isLate.2 := by
  obtain ⟨clock, read⟩ := s.isLate_frame
  rw [read]
  exact accounts.congr clock s.stopRequested

theorem Accounts.begins {p? : Option Program} (accounts : Accounts begun s)
    (unfinished : s.result = none) (unspent : s.isSpent = false)
    (next : s.beginAttempt.nextProgram = (p?, t)) : Begins begun t s.attempts := by
  have counted := (accounts.counts unfinished).beginAttempt
  obtain ⟨seen, parent, restarts, began⟩ := s.beginAttempt_frame
  obtain ⟨source, seen', parent', drew, -⟩ := s.beginAttempt.nextProgram_frame
  rw [next] at drew
  dsimp only at drew
  subst drew
  rw [began] at counted ⊢
  refine ⟨⟨accounts.deadline, accounts.budget, fun most budget => ?_⟩,
    ⟨counted.total, counted.restarts, counted.last, counted.seen⟩, rfl, unfinished⟩
  simp only [isSpent, accounts.budget, budget, Option.any_some, decide_eq_false_iff_not] at unspent
  change ((s.attempts + 1 : Nat) : Int) ≤ max most 0
  omega

theorem Accounts.opens {p? : Option Program} (accounts : Accounts begun s) (opened : s.Open)
    (next : s.isLate.2.beginAttempt.nextProgram = (p?, t)) : ∃ n, Begins begun t n :=
  ⟨_, accounts.isLate.begins (s.result_isLate.trans opened.unfinished) opened.unspent next⟩

omit [RandomSource σ] in
theorem Begins.fail {n : Nat} (begins : Begins begun t n) (f : Failure) (parent : Option Attempt) :
    Bounded begun (t.fail f parent) ∧ (t.fail f parent).result = none ∧
      Counts begun (t.fail f parent) (t.fail f parent).attempts := by
  obtain ⟨clock, snapshots, lastReport, failed⟩ := t.fail_frame f parent
  have counts := begins.counts.fail begins.attempts f parent
  rw [← begins.attempts] at counts
  rw [failed] at counts ⊢
  exact ⟨⟨begins.deadline, begins.budget, begins.capped⟩, begins.unfinished, counts⟩

theorem Accounts.finish {outcome : Outcome} {winner : Option Attempt} (bounded : Bounded begun t)
    (follows : begun.Follows s) (unfinished : s.result = none)
    (ended : s.step = t.finish outcome winner)
    (ends : ∀ r : SearchResult, r.outcome = outcome → r.attempts = t.attempts → r.tally = t.tally →
      s.Ends r) : Accounts begun s.step := by
  obtain ⟨clock, r, finished, shown⟩ := t.finish_frame outcome winner
  have won := ends r shown.outcome shown.attempts shown.tally
  rw [finished] at ended
  have result : s.step.result = some r := by rw [ended]
  rw [ended]
  refine ⟨⟨bounded.deadline, bounded.budget, bounded.capped⟩, nofun, fun r' same => ?_⟩
  cases same
  exact ⟨⟨s, follows, unfinished, result, won⟩, shown.attempts, shown.tally, shown.restarts, shown.error⟩

theorem Begins.judge {n : Nat} {p : Program} (begins : Begins begun t n) (follows : begun.Follows s)
    (unfinished : s.result = none) (runs : s.Runs p t) : Accounts begun s.step := by
  generalize ended : s.step = u
  have judged := t.judged p
  rw [← runs.step_eq, ended] at judged
  -- Whatever comes of the run, it has only drawn from the source.
  have tried {v : Search σ τ} {a : Option Attempt} (tried : t.tryProgram p = (a, v)) :
      Begins begun v n := by
    obtain ⟨source, same⟩ := t.tryProgram_frame p
    rw [tried] at same
    dsimp only at same
    rw [same]
    obtain ⟨⟨deadline, budget, capped⟩, ⟨total, restarts, last, seen⟩, attempts, open'⟩ := begins
    exact ⟨⟨deadline, budget, capped⟩, ⟨total, restarts, last, seen⟩, attempts, open'⟩
  cases judged with
  | brokeDown broke =>
    obtain ⟨bounded, going, counts⟩ := (tried broke).fail .other none
    exact ⟨bounded, fun _ => counts, fun r found => by simp [going] at found⟩
  | @failed a f v ran failed =>
    obtain ⟨bounded, going, counts⟩ := (tried ran).fail f (some a)
    exact ⟨bounded, fun _ => counts, fun r found => by simp [going] at found⟩
  | @passed a v ran passed =>
    have begins := tried ran
    rw [← ended]
    refine Accounts.finish begins.toBounded follows unfinished ended fun r outcome attempts tally => ?_
    exact .won runs outcome (by rw [tally, attempts, begins.counts.total, begins.attempts])

theorem Accounts.step (follows : begun.Follows s) (accounts : Accounts begun s) :
    Accounts begun s.step := by
  generalize ended : s.step = u
  have stepped := s.stepped
  rw [ended] at stepped
  cases stepped with
  | finished => exact accounts
  | stopped unfinished asked =>
    have counts := accounts.counts unfinished
    rw [← ended]
    refine .finish accounts.toBounded follows unfinished ended fun r outcome attempts tally => ?_
    exact .stopped asked outcome (by rw [tally, attempts, counts.total])
  | late unfinished unstopped late =>
    have counts := accounts.isLate.counts (s.result_isLate.trans unfinished)
    rw [← ended]
    refine .finish accounts.isLate.toBounded follows unfinished ended fun r outcome attempts tally => ?_
    exact .late unstopped late outcome (by rw [tally, attempts, counts.total])
  | spent unfinished unstopped early spent =>
    have counts := accounts.isLate.counts (s.result_isLate.trans unfinished)
    rw [isSpent_isLate] at spent
    rw [← ended]
    refine .finish accounts.isLate.toBounded follows unfinished ended fun r outcome attempts tally => ?_
    exact .spent unstopped early spent outcome (by rw [tally, attempts, counts.total])
  | unseen opened next =>
    obtain ⟨n, begins⟩ := accounts.opens opened next
    rw [← ended]
    refine .finish begins.toBounded follows opened.unfinished ended fun r outcome attempts tally => ?_
    exact .unseen opened next outcome
      (by rw [tally, attempts, begins.counts.total, begins.attempts])
  | ran runs =>
    obtain ⟨n, begins⟩ := accounts.opens runs.opened runs.next
    exact ended ▸ begins.judge follows runs.opened.unfinished runs

theorem Accounts.of_follows (fresh : Accounts begun begun) (follows : begun.Follows t) :
    Accounts begun t := by
  induction follows with
  | refl => exact fresh
  | step follows ih => exact ih.step follows
  | stop _ ih => exact ih.congr _ true
  | look _ ih => exact ih.congr _ _

omit [RandomSource σ] [Clock τ] in
theorem total_zero : Tally.zero.total = 0 := by
  decide

theorem accounts_start (s : Search σ τ) (timeout : Option Float) (maxAttempts : Option Int) :
    Accounts (s.start timeout maxAttempts) (s.start timeout maxAttempts) := by
  refine ⟨⟨rfl, rfl, fun most _ => ?_⟩, fun _ => ?_, fun r found => ?_⟩
  · exact Int.le_max_right most 0
  · exact ⟨total_zero, (Nat.zero_div _).symm, iff_of_true rfl rfl,
      fun _ => ⟨[], (List.append_nil _).symm, rfl⟩⟩
  · obtain ⟨-, -, unfinished⟩ := s.start_frame timeout maxAttempts
    cases unfinished.symm.trans found

theorem Launched.nodup_tally {rules : SearchRules} (launched : s.Launched rules) {r : SearchResult}
    (found : s.result = some r) : r.tally.keys.Nodup := by
  obtain ⟨u, timeout, maxAttempts, follows⟩ := launched.exists_follows
  have accounts := Accounts.of_follows (u.accounts_start timeout maxAttempts) follows
  rw [(accounts.ended r found).tally]
  exact follows.nodup_tally (show Tally.zero.keys.Nodup by decide)

/-- A search without a result has failed as often as it was tried and has reported each failure once. It
keeps to its budget, ends at the first step that may not begin an attempt, says how it ended, and keeps
its result. -/
structure Accounted (s : Search σ τ) (timeout : Option Float) (maxAttempts : Option Int)
    (t : Search σ τ) : Prop where
  counts : t.result = none → Counts (s.start timeout maxAttempts) t t.attempts
  capped : ∀ most, maxAttempts = some most → (t.attempts : Int) ≤ max most 0
  closes : (∃ u, (s.start timeout maxAttempts).Follows u ∧ u.stop.Follows t) ∨
    (∃ limit, timeout = some limit ∧ (Clock.now s.clock).1 + limit ≤ (Clock.now t.clock).1) ∨
    (∃ most, maxAttempts = some most ∧ most ≤ t.attempts) → t.Closes
  ended : ∀ r, t.result = some r → Ended (s.start timeout maxAttempts) t r
  kept : t.result.isSome = true → ∀ v, t.Follows v →
    ∃ clock stopRequested, v = { t with clock, stopRequested }

/-- The accounts are right along any run of steps, looks and requests to stop. -/
theorem accounted_of_follows (s : Search σ τ) (timeout : Option Float) (maxAttempts : Option Int)
    (follows : (s.start timeout maxAttempts).Follows t) : s.Accounted timeout maxAttempts t := by
  obtain ⟨⟨deadline, budget, capped⟩, counts, ended⟩ :=
    Accounts.of_follows (s.accounts_start timeout maxAttempts) follows
  refine ⟨counts, capped, fun barred => closes ?_, ended, fun found v onward =>
    onward.finished found⟩
  obtain ⟨u, -, onward⟩ | ⟨limit, timed, late⟩ | ⟨most, limited, spent⟩ := barred
  · exact .inl (onward.stopRequested rfl)
  · have due : t.deadline = some ((Clock.now s.clock).1 + limit) := by
      rw [deadline, timed]
      rfl
    refine .inr (.inl ?_)
    simp only [isLate, due]
    exact decide_eq_true late
  · refine .inr (.inr ?_)
    rw [isSpent, budget.trans limited]
    exact decide_eq_true spent

theorem step_start_of_failed {a : Attempt} {f : Failure} {after : σ} (patient : s.rules.tries ≠ 0)
    (steady : s.rules.breaksDown 1 = false)
    (ran : simulate (Program.draw s.rules.config s.source).1 s.rules.config
      { window := s.rules.window } (Program.draw s.rules.config s.source).2 = (.ok a, after))
    (failed : a.verdict.failure? = some f) :
    (s.start none none).step.result = none ∧ (s.start none none).step.attempts = 1 ∧
      (s.start none none).step.rules = s.rules := by
  obtain ⟨t, runs, rules, attempts, source, -, -⟩ := runs_start patient
  have judged := judge_of_failed (s := t) (by rwa [rules, attempts]) (by rwa [rules, source]) failed
  obtain ⟨clock, snapshots, lastReport, same⟩ := fail_frame { t with source := after } f (some a)
  rw [runs.step_eq, judged, same]
  obtain ⟨n, begins⟩ := Accounts.opens (s.accounts_start none none) runs.opened runs.next
  exact ⟨begins.unfinished, attempts, rules⟩

end Accounts

end Search

def shortWalk : Search Tape Stopwatch where
  rules := { (walkSearch 100).rules with observed := true }
  source := ⟨#[0.1], 0, false⟩
  clock := ⟨0⟩

def firstFails (s : Search Tape Stopwatch) : Bool :=
  (simulate (Program.draw s.rules.config s.source).1 s.rules.config { window := s.rules.window }
    (Program.draw s.rules.config s.source).2).1.toOption.any fun a => a.verdict.failure?.isSome

theorem step_start_of_firstFails {s : Search Tape Stopwatch} (patient : s.rules.tries ≠ 0)
    (steady : s.rules.breaksDown 1 = false) (fails : firstFails s = true) :
    (s.start none none).step.result = none ∧ (s.start none none).step.attempts = 1 ∧
      (s.start none none).step.rules = s.rules := by
  obtain ⟨a, after, ran, failed⟩ := exists_ok_of_any fails
  obtain ⟨f, failed⟩ := Option.isSome_iff_exists.mp failed
  exact Search.step_start_of_failed patient steady ran failed

theorem accounted_of_follows_walk :
    (shortWalk.start none none).step.snapshots.toList.map (·.attempts) = [1] ∧
      ∃ r, (shortWalk.start none none).step.stop.step.result = some r ∧ r.attempts = 1 ∧
        r.tally.total = 1 := by
  obtain ⟨going, attempts, rules⟩ :=
    step_start_of_firstFails (s := shortWalk) (Nat.succ_ne_zero 99) rfl (by decide +kernel)
  have observed : (shortWalk.start none none).step.rules.observed = true := by
    rw [rules]
    rfl
  have begun : (shortWalk.start none none).Follows (shortWalk.start none none).step := .step .refl
  have counts := (Search.accounted_of_follows shortWalk none none begun).counts going
  have closes := (Search.accounted_of_follows shortWalk none none begun.stop).closes
  have total := counts.total
  obtain ⟨new, snapshots, numbered⟩ := counts.seen observed
  obtain ⟨clock, r, same⟩ := (closes (.inl ⟨_, begun, .refl⟩)).ends
  have found := congrArg (·.result) same
  have ended := (Search.accounted_of_follows shortWalk none none begun.stop.step).ended r found
  have counted := ended.attempts
  have tally := ended.tally
  have unseen : (shortWalk.start none none).snapshots.toList = [] := rfl
  generalize (shortWalk.start none none).step = t at *
  rw [same] at counted tally
  rw [unseen, List.nil_append] at snapshots
  refine ⟨?_, r, found, counted.trans attempts, ?_⟩
  · rw [snapshots, numbered, attempts]
    rfl
  · rw [tally]
    exact total.trans attempts

end GridRobot
