import Std.Data.HashSet.Lemmas
import GridRobot.Proofs.Run.Necessity
import GridRobot.Search.Step

/-!
What a step of a search can do. `Stepped` has one constructor for each way out of a step and `Judged`
one for each end of an attempt; the lemmas before them say which parts of the state an operation
writes.
-/

namespace GridRobot.Search

variable {σ τ : Type} [RandomSource σ] [Clock τ]

/-! ## What is written -/

omit [RandomSource σ] [Clock τ] in
theorem claimDrawn_frame (draw : StateM σ (Option Program)) (n : Nat) (s : Search σ τ) :
    ∃ source seen, (claimDrawn draw n s).2 = { s with source, seen } := by
  induction n generalizing s with
  | zero => exact ⟨s.source, s.seen, rfl⟩
  | succ n ih =>
    unfold claimDrawn
    cases drew : draw s.source with
    | mk p? after =>
      cases p? with
      | none => exact ⟨after, s.seen, by simp [drawn, drew]⟩
      | some p =>
        by_cases seen : s.seen.contains p.signature = true
        · obtain ⟨source, seen', later⟩ := ih { s with source := after }
          exact ⟨source, seen', by simpa [drawn, drew, claim, seen] using later⟩
        · exact ⟨after, s.seen.insert p.signature, by simp [drawn, drew, claim, seen]⟩

omit [RandomSource σ] [Clock τ] in
theorem claimDrawn_drawn {draw : StateM σ (Option Program)} {n : Nat} {s t : Search σ τ} {p : Program}
    (claimed : claimDrawn draw n s = (some p, t)) : ∃ source, (draw source).1 = some p := by
  induction n generalizing s with
  | zero => cases claimed
  | succ n ih =>
    unfold claimDrawn at claimed
    cases drew : draw s.source with
    | mk p? after =>
      cases p? with
      | none => simp [drawn, drew] at claimed
      | some q =>
        by_cases seen : s.seen.contains q.signature = true
        · exact ih (by simpa [drawn, drew, claim, seen] using claimed)
        · have first := congrArg Prod.fst claimed
          have same : q = p := by simpa [drawn, drew, claim, seen] using first
          exact ⟨s.source, by rw [drew, same]⟩

omit [Clock τ] in
theorem claimFresh_frame (s : Search σ τ) :
    ∃ source seen, s.claimFresh.2 = { s with source, seen } :=
  claimDrawn_frame _ _ s

omit [Clock τ] in
theorem nextProgram_frame (s : Search σ τ) :
    ∃ source seen parent, s.nextProgram.2 = { s with source, seen, parent } ∧
      (parent = s.parent ∨ parent = none) := by
  unfold nextProgram
  split
  · obtain ⟨source, seen, claimed⟩ := s.claimFresh_frame
    exact ⟨source, seen, s.parent, claimed, .inl rfl⟩
  · rename_i a before
    obtain ⟨source, seen, claimed⟩ := claimDrawn_frame (drawRepair s.rules a) s.rules.tries s
    split
    · rename_i repaired
      rw [repaired] at claimed
      exact ⟨source, seen, s.parent, claimed, .inl rfl⟩
    · rename_i repaired
      rw [repaired] at claimed
      dsimp only at claimed
      subst claimed
      obtain ⟨source, seen, fresh⟩ := claimFresh_frame { s with source, seen, parent := none }
      exact ⟨source, seen, none, fresh, .inr rfl⟩

omit [Clock τ] in
theorem nextProgram_drawn {s t : Search σ τ} {p : Program} (next : s.nextProgram = (some p, t)) :
    (∃ (a : Attempt) (source : σ), s.parent = some a ∧ (drawRepair s.rules a source).1 = some p) ∨
      ∃ source : σ, (drawFresh s.rules source).1 = some p := by
  unfold nextProgram at next
  split at next
  · exact .inr (claimDrawn_drawn next)
  · rename_i a before
    split at next
    · rename_i repaired
      cases next
      obtain ⟨source, drew⟩ := claimDrawn_drawn repaired
      exact .inl ⟨a, source, before, drew⟩
    · rename_i u repaired
      obtain ⟨source, seen, claimed⟩ := claimDrawn_frame (drawRepair s.rules a) s.rules.tries s
      rw [repaired] at claimed
      have same : u.rules = s.rules := congrArg (·.rules) claimed
      obtain ⟨source, drew⟩ := claimDrawn_drawn next
      exact .inr ⟨source, same ▸ drew⟩

omit [RandomSource σ] in
theorem isLate_frame (s : Search σ τ) : ∃ clock, s.isLate.2 = { s with clock } := by
  unfold isLate
  split
  · exact ⟨s.clock, rfl⟩
  · exact ⟨(Clock.now s.clock).2, rfl⟩

omit [RandomSource σ] in
theorem report_frame (s : Search σ τ) :
    ∃ clock snapshots lastReport, s.report = { s with clock, snapshots, lastReport } := by
  have reported (s : Search σ τ) : ∃ clock lastReport,
      (if s.readClock.2.rules.reportInterval ≤ s.readClock.1 - s.readClock.2.lastReport then
          { s.readClock.2 with lastReport := s.readClock.1 }
        else s.readClock.2) = { s with clock, lastReport } := by
    split
    · exact ⟨_, _, rfl⟩
    · exact ⟨_, s.lastReport, rfl⟩
  unfold report
  split
  · obtain ⟨clock, lastReport, same⟩ :=
      reported { s.progress.2 with snapshots := s.snapshots.push s.progress.1 }
    exact ⟨clock, s.snapshots.push s.progress.1, lastReport, same⟩
  · obtain ⟨clock, lastReport, same⟩ := reported s
    exact ⟨clock, s.snapshots, lastReport, same⟩

omit [RandomSource σ] in
theorem fail_frame (s : Search σ τ) (f : Failure) (parent : Option Attempt) :
    ∃ clock snapshots lastReport, s.fail f parent =
      { s with
        tally := s.tally.add f, lastFailure := some f, parent, clock, snapshots, lastReport } :=
  report_frame _

structure Result (s : Search σ τ) (outcome : Outcome) (winner : Option Attempt) (r : SearchResult) :
    Prop where
  outcome : r.outcome = outcome
  puzzle : r.puzzle = winner.map fun a => a.puzzle s.rules.config
  solution : r.solution = winner.map Attempt.solution
  trace : r.trace = winner.map Attempt.trace
  attempts : r.attempts = s.attempts
  tally : r.tally = s.tally
  restarts : r.restarts = s.restarts
  error : r.errorName = none ↔ r.outcome = .success
  elapsed : r.elapsed = (Clock.now s.clock).1 - s.startedAt

omit [RandomSource σ] in
theorem finish_frame (s : Search σ τ) (outcome : Outcome) (winner : Option Attempt) :
    ∃ clock r, s.finish outcome winner = { s with clock, result := some r } ∧
      s.Result outcome winner r :=
  ⟨_, _, rfl, rfl, rfl, rfl, rfl, rfl, rfl, rfl, by simp, rfl⟩

omit [RandomSource σ] in
theorem start_frame (s : Search σ τ) (timeout : Option Float) (maxAttempts : Option Int) :
    (s.start timeout maxAttempts).rules = s.rules ∧ (s.start timeout maxAttempts).parent = none ∧
      (s.start timeout maxAttempts).result = none :=
  ⟨rfl, rfl, rfl⟩

/-! ## An attempt -/

omit [Clock τ] in
theorem tryProgram_eq_some {s t : Search σ τ} {p : Program} {a : Attempt}
    (tried : s.tryProgram p = (some a, t)) :
    s.rules.breaksDown s.attempts = false ∧ ∃ source,
      simulate p s.rules.config { window := s.rules.window } s.source = (.ok a, source) ∧
        t = { s with source } ∧ (a.verdict.failure? = none → a.verdict.isPassed = true) := by
  unfold tryProgram at tried
  split at tried
  · cases tried
  rename_i sound
  cases ran : simulate p s.rules.config { window := s.rules.window } s.source with
  | mk result source =>
    cases result with
    | error e => simp [drawn, ran] at tried
    | ok b =>
      simp only [drawn, ran] at tried
      split at tried
      · cases tried
      · rename_i judged
        cases tried
        refine ⟨Bool.eq_false_iff.mpr sound, source, rfl, rfl, fun unfailed => ?_⟩
        cases verdict : a.verdict with
        | passed => rfl
        | failed => simp [verdict, Verdict.failure?] at unfailed
        | broken b => exact absurd verdict (judged b)

omit [Clock τ] in
theorem tryProgram_frame (s : Search σ τ) (p : Program) :
    ∃ source, (s.tryProgram p).2 = { s with source } := by
  unfold tryProgram
  split
  · exact ⟨s.source, rfl⟩
  cases ran : simulate p s.rules.config { window := s.rules.window } s.source with
  | mk result source =>
    cases result with
    | error e => exact ⟨source, by simp [drawn, ran]⟩
    | ok a =>
      refine ⟨source, ?_⟩
      simp only [drawn, ran]
      split <;> rfl

/-- The ends of an attempt at a program. -/
inductive Judged (s : Search σ τ) (p : Program) : Search σ τ → Prop
  | brokeDown {t : Search σ τ} (tried : s.tryProgram p = (none, t)) : Judged s p (t.fail .other none)
  | passed {a : Attempt} {t : Search σ τ} (tried : s.tryProgram p = (some a, t))
      (passed : a.verdict.isPassed = true) : Judged s p (t.finish .success (some a))
  | failed {a : Attempt} {f : Failure} {t : Search σ τ} (tried : s.tryProgram p = (some a, t))
      (failed : a.verdict.failure? = some f) : Judged s p (t.fail f (some a))

theorem judged (s : Search σ τ) (p : Program) : s.Judged p (s.judge p) := by
  unfold judge
  cases tried : s.tryProgram p with
  | mk a? t =>
    cases a? with
    | none => exact .brokeDown tried
    | some a =>
      cases failed : a.verdict.failure? with
      | none =>
        obtain ⟨-, -, -, -, passed⟩ := tryProgram_eq_some tried
        simpa [failed] using Judged.passed tried (passed failed)
      | some f => simpa [failed] using Judged.failed tried failed

/-! ## A step -/

structure Open (s : Search σ τ) : Prop where
  unfinished : s.result = none
  unstopped : s.stopRequested = false
  early : s.isLate.1 = false
  unspent : s.isLate.2.isSpent = false

/-- The next step runs this program, as an attempt of the search `t`. -/
structure Runs (s : Search σ τ) (p : Program) (t : Search σ τ) : Prop where
  opened : s.Open
  next : s.isLate.2.beginAttempt.nextProgram = (some p, t)

inductive Stepped (s : Search σ τ) : Search σ τ → Prop
  | finished (found : s.result.isSome = true) : Stepped s s
  | stopped (unfinished : s.result = none) (asked : s.stopRequested = true) :
      Stepped s (s.finish .stopped none)
  | late (unfinished : s.result = none) (unstopped : s.stopRequested = false)
      (late : s.isLate.1 = true) : Stepped s (s.isLate.2.finish .timeout none)
  | spent (unfinished : s.result = none) (unstopped : s.stopRequested = false)
      (early : s.isLate.1 = false) (spent : s.isLate.2.isSpent = true) :
      Stepped s (s.isLate.2.finish .exhausted none)
  | unseen {t : Search σ τ} (opened : s.Open)
      (next : s.isLate.2.beginAttempt.nextProgram = (none, t)) : Stepped s (t.finish .exhausted none)
  | ran {p : Program} {t : Search σ τ} (runs : s.Runs p t) : Stepped s (t.judge p)

theorem stepped (s : Search σ τ) : s.Stepped s.step := by
  unfold step
  by_cases found : s.result.isSome = true
  · rw [if_pos found]
    exact .finished found
  have unfinished : s.result = none := by simpa using found
  rw [if_neg found]
  cases stopped : s.stopRequested with
  | true => exact .stopped unfinished stopped
  | false =>
    cases read : s.isLate with
    | mk late t =>
      have early : s.isLate.1 = late := congrArg Prod.fst read
      have same : s.isLate.2 = t := congrArg Prod.snd read
      subst same
      cases late with
      | true => exact .late unfinished stopped early
      | false =>
        by_cases spent : s.isLate.2.isSpent = true
        · simpa [spent] using Stepped.spent unfinished stopped early spent
        have opened : s.Open := ⟨unfinished, stopped, early, Bool.eq_false_iff.mpr spent⟩
        simp only [Bool.false_eq_true, if_false, spent, attempt]
        cases next : s.isLate.2.beginAttempt.nextProgram with
        | mk p? t =>
          cases p? with
          | none => exact .unseen opened next
          | some p => exact .ran ⟨opened, next⟩

theorem Runs.step_eq {s t : Search σ τ} {p : Program} (runs : s.Runs p t) : s.step = t.judge p := by
  obtain ⟨⟨unfinished, unstopped, early, unspent⟩, next⟩ := runs
  simp only [step, unfinished, Option.isSome_none, Bool.false_eq_true, if_false, unstopped]
  cases read : s.isLate with
  | mk late u =>
    rw [read] at early unspent next
    dsimp only at early unspent next
    subst early
    simp [unspent, attempt, next]

/-! ## The first attempt -/

omit [Clock τ] in
theorem nextProgram_of_unseen {s : Search σ τ} (parent : s.parent = none) (seen : s.seen = ∅)
    (patient : s.rules.tries ≠ 0) :
    ∃ seen, s.nextProgram = (some (Program.draw s.rules.config s.source).1,
      { s with source := (Program.draw s.rules.config s.source).2, seen }) := by
  obtain ⟨n, tries⟩ := Nat.exists_eq_succ_of_ne_zero patient
  have unseen (p : Program) : s.seen.contains p.signature = false := by
    rw [seen, Std.HashSet.contains_empty]
  refine ⟨s.seen.insert (Program.draw s.rules.config s.source).1.signature, ?_⟩
  simp only [nextProgram, parent, claimFresh, tries, claimDrawn, drawn, drawFresh, map_apply, claim,
    unseen, Bool.false_eq_true, if_false]

structure First (s t : Search σ τ) : Prop where
  rules : t.rules = s.rules
  attempts : t.attempts = 1
  source : t.source = (Program.draw s.rules.config s.source).2
  clock : t.clock = (Clock.now s.clock).2
  startedAt : t.startedAt = (Clock.now s.clock).1

theorem runs_start {s : Search σ τ} (patient : s.rules.tries ≠ 0) :
    ∃ t, (s.start none none).Runs (Program.draw s.rules.config s.source).1 t ∧ s.First t := by
  have begun : ∃ restarts, (s.start none none).isLate.2.beginAttempt =
      { s.start none none with attempts := 1, restarts } := by
    unfold beginAttempt
    dsimp only
    split <;> exact ⟨_, rfl⟩
  obtain ⟨restarts, begun⟩ := begun
  obtain ⟨seen, next⟩ :=
    nextProgram_of_unseen (s := { s.start none none with attempts := 1, restarts }) rfl rfl patient
  refine ⟨_, ⟨⟨rfl, rfl, rfl, rfl⟩, (congrArg nextProgram begun).trans next⟩, ?_⟩
  exact ⟨rfl, rfl, rfl, rfl, rfl⟩

omit [Clock τ] in
theorem tryProgram_of_simulate {s : Search σ τ} {p : Program} {a : Attempt} {after : σ}
    (steady : s.rules.breaksDown s.attempts = false)
    (ran : simulate p s.rules.config { window := s.rules.window } s.source = (.ok a, after))
    (judged : ∀ b, a.verdict ≠ .broken b) :
    s.tryProgram p = (some a, { s with source := after }) := by
  simp only [tryProgram, steady, Bool.false_eq_true, if_false, drawn, ran]

theorem judge_of_passed {s : Search σ τ} {p : Program} {a : Attempt} {after : σ}
    (steady : s.rules.breaksDown s.attempts = false)
    (ran : simulate p s.rules.config { window := s.rules.window } s.source = (.ok a, after))
    (passed : a.verdict.isPassed = true) :
    s.judge p = finish { s with source := after } .success (some a) := by
  have judged (b : Breakdown) : a.verdict ≠ .broken b := fun same => by cases same ▸ passed
  rw [judge, tryProgram_of_simulate steady ran judged]
  cases verdict : a.verdict with
  | passed => simp [verdict, Verdict.failure?]
  | failed | broken =>
    rw [verdict] at passed
    cases passed

theorem judge_of_failed {s : Search σ τ} {p : Program} {a : Attempt} {f : Failure} {after : σ}
    (steady : s.rules.breaksDown s.attempts = false)
    (ran : simulate p s.rules.config { window := s.rules.window } s.source = (.ok a, after))
    (failed : a.verdict.failure? = some f) :
    s.judge p = fail { s with source := after } f (some a) := by
  have judged (b : Breakdown) : a.verdict ≠ .broken b := fun same => by cases same ▸ failed
  rw [judge, tryProgram_of_simulate steady ran judged]
  simp only [failed]

end GridRobot.Search
