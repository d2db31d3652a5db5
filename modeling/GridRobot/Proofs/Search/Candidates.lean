import GridRobot.Proofs.Repair.Strategies
import GridRobot.Proofs.Search.Step
import GridRobot.Random

namespace GridRobot

variable {σ τ : Type} [RandomSource σ] [Clock τ]

structure Attempt.MadeBy (rules : SearchRules) (σ : Type) [RandomSource σ] (a : Attempt) : Prop where
  playable : a.program.Playable rules.config
  ran : ∃ source after : σ,
    simulate a.program rules.config { window := rules.window } source = (.ok a, after)

structure SearchResult.WonBy (rules : SearchRules) (r : SearchResult) (winner : Option Attempt) :
    Prop where
  success : r.outcome = .success ↔ winner.isSome = true
  puzzle : r.puzzle = winner.map fun a => a.puzzle rules.config
  solution : r.solution = winner.map Attempt.solution
  trace : r.trace = winner.map Attempt.trace

namespace Search

/-- The states of a search that was started, and then stepped, asked to stop or looked at. -/
inductive Launched (rules : SearchRules) : Search σ τ → Prop
  | start {s : Search σ τ} (ruled : s.rules = rules) (timeout : Option Float)
      (maxAttempts : Option Int) : Launched rules (s.start timeout maxAttempts)
  | step {s : Search σ τ} (launched : Launched rules s) : Launched rules s.step
  | stop {s : Search σ τ} (launched : Launched rules s) : Launched rules s.stop
  | look {s : Search σ τ} (launched : Launched rules s) : Launched rules s.progress.2

structure Sound (rules : SearchRules) (s : Search σ τ) : Prop where
  ruled : s.rules = rules
  parent : ∀ a, s.parent = some a → a.MadeBy rules σ
  result : ∀ r, s.result = some r → ∃ winner, r.WonBy rules winner ∧
    ∀ a, winner = some a → a.MadeBy rules σ ∧ a.verdict.isPassed = true

theorem exists_drawRepair {rules : SearchRules} {a : Attempt} (made : a.MadeBy rules σ) (source : σ) :
    ∃ p, (drawRepair rules a source).1 = some p ∧ p.Playable rules.config := by
  obtain ⟨playable, before, after, ran⟩ := made
  obtain ⟨between, executed, -⟩ := simulate_eq_ok.mp ran
  have fits := Case.fits_ofTrace (records_of_execute executed).1 playable.lengths rules.policy
  obtain ⟨p, last, repaired, mended⟩ :=
    playable_repair (σ := σ) fits playable a.verdict.failure? source
  refine ⟨p, ?_, mended⟩
  change ((repair _ a.verdict.failure?) source).1.toOption = some p
  rw [repaired]
  rfl

theorem playable_drawRepair {rules : SearchRules} {a : Attempt} (made : a.MadeBy rules σ) {source : σ}
    {p : Program} (drew : (drawRepair rules a source).1 = some p) : p.Playable rules.config := by
  obtain ⟨q, same, mended⟩ := exists_drawRepair made source
  obtain rfl : q = p := Option.some.inj (same.symm.trans drew)
  exact mended

theorem playable_drawFresh {rules : SearchRules} {source : σ} {p : Program}
    (drew : (drawFresh rules source).1 = some p) : p.Playable rules.config := by
  cases drew
  exact Program.always_drawProgram rules.config source

omit [Clock τ] in
theorem playable_nextProgram {rules : SearchRules} {s t : Search σ τ} (sound : s.Sound rules)
    {p : Program} (next : s.nextProgram = (some p, t)) : p.Playable rules.config := by
  obtain ⟨ruled, parent, -⟩ := sound
  rcases nextProgram_drawn next with ⟨a, source, before, drew⟩ | ⟨source, drew⟩
  · exact playable_drawRepair (parent a before) (ruled ▸ drew)
  · exact playable_drawFresh (ruled ▸ drew)

namespace Sound

variable {rules : SearchRules} {s t : Search σ τ}

omit [Clock τ] in
theorem congr (sound : s.Sound rules) (ruled : t.rules = s.rules)
    (parent : t.parent = s.parent ∨ t.parent = none) (result : t.result = s.result) :
    t.Sound rules := by
  refine ⟨ruled.trans sound.ruled, fun a held => ?_, fun r found => sound.result r (result ▸ found)⟩
  rcases parent with same | none
  · exact sound.parent a (same ▸ held)
  · rw [none] at held
    cases held

theorem isLate (sound : s.Sound rules) : s.isLate.2.Sound rules := by
  obtain ⟨clock, same⟩ := s.isLate_frame
  rw [same]
  exact sound.congr rfl (.inl rfl) rfl

omit [Clock τ] in
theorem beginAttempt (sound : s.Sound rules) : s.beginAttempt.Sound rules := by
  unfold Search.beginAttempt
  dsimp only
  split
  · exact sound.congr rfl (.inr rfl) rfl
  · exact sound.congr rfl (.inl rfl) rfl

omit [Clock τ] in
theorem nextProgram (sound : s.Sound rules) : s.nextProgram.2.Sound rules := by
  obtain ⟨source, seen, parent, same, kept⟩ := s.nextProgram_frame
  rw [same]
  exact sound.congr rfl kept rfl

omit [Clock τ] in
theorem tryProgram (sound : s.Sound rules) (p : Program) : (s.tryProgram p).2.Sound rules := by
  obtain ⟨source, same⟩ := s.tryProgram_frame p
  rw [same]
  exact sound.congr rfl (.inl rfl) rfl

theorem fail (sound : s.Sound rules) (f : Failure) {parent : Option Attempt}
    (made : ∀ a, parent = some a → a.MadeBy rules σ) : (s.fail f parent).Sound rules := by
  obtain ⟨clock, snapshots, lastReport, same⟩ := s.fail_frame f parent
  rw [same]
  exact ⟨sound.ruled, made, sound.result⟩

theorem finish (sound : s.Sound rules) {outcome : Outcome} {winner : Option Attempt}
    (success : outcome = .success ↔ winner.isSome = true)
    (made : ∀ a, winner = some a → a.MadeBy rules σ ∧ a.verdict.isPassed = true) :
    (s.finish outcome winner).Sound rules := by
  obtain ⟨clock, r, same, ends⟩ := s.finish_frame outcome winner
  rw [same]
  refine ⟨sound.ruled, sound.parent, fun r' found => ?_⟩
  obtain rfl : r = r' := Option.some.inj found
  have success : r.outcome = .success ↔ winner.isSome = true := by rwa [ends.outcome]
  exact ⟨winner, ⟨success, sound.ruled ▸ ends.puzzle, ends.solution, ends.trace⟩, made⟩

theorem lose (sound : s.Sound rules) {outcome : Outcome} (lost : outcome ≠ .success) :
    (s.finish outcome none).Sound rules :=
  sound.finish (by simp [lost]) fun _ none => nomatch none

omit [Clock τ] in
theorem madeBy (sound : s.Sound rules) {p : Program} (playable : p.Playable rules.config)
    {a : Attempt} (tried : s.tryProgram p = (some a, t)) : a.MadeBy rules σ := by
  obtain ⟨-, source, ran, -, -⟩ := tryProgram_eq_some tried
  rw [sound.ruled] at ran
  obtain ⟨between, -, same, -⟩ := simulate_eq_ok.mp ran
  subst same
  exact ⟨playable, s.source, source, ran⟩

theorem judge (sound : s.Sound rules) {p : Program} (playable : p.Playable rules.config) :
    (s.judge p).Sound rules := by
  have after := sound.tryProgram p
  generalize ended : s.judge p = u
  have judged := s.judged p
  rw [ended] at judged
  cases judged with
  | brokeDown tried =>
    rw [tried] at after
    exact after.fail .other fun _ none => nomatch none
  | passed tried passed =>
    rw [tried] at after
    refine after.finish (by simp) ?_
    rintro _ ⟨⟩
    exact ⟨sound.madeBy playable tried, passed⟩
  | failed tried failed =>
    rw [tried] at after
    refine after.fail _ ?_
    rintro _ ⟨⟩
    exact sound.madeBy playable tried

theorem of_runs (sound : s.Sound rules) {p : Program} (runs : s.Runs p t) :
    t.Sound rules ∧ p.Playable rules.config := by
  have begun := sound.isLate.beginAttempt
  have next := begun.nextProgram
  rw [runs.next] at next
  exact ⟨next, playable_nextProgram begun runs.next⟩

theorem step (sound : s.Sound rules) : s.step.Sound rules := by
  generalize ended : s.step = u
  have stepped := s.stepped
  rw [ended] at stepped
  cases stepped with
  | finished => exact sound
  | stopped => exact sound.lose (by decide)
  | late | spent => exact sound.isLate.lose (by decide)
  | unseen opened next =>
    have after := sound.isLate.beginAttempt.nextProgram
    rw [next] at after
    exact after.lose (by decide)
  | ran runs =>
    obtain ⟨after, playable⟩ := sound.of_runs runs
    exact after.judge playable

end Sound

theorem Launched.sound {rules : SearchRules} {s : Search σ τ} (launched : s.Launched rules) :
    s.Sound rules := by
  induction launched with
  | @start s ruled timeout maxAttempts =>
    obtain ⟨rules, parent, result⟩ := s.start_frame timeout maxAttempts
    exact ⟨rules.trans ruled, by simp [parent], by simp [result]⟩
  | step _ ih => exact ih.step
  | stop _ ih => exact ih.congr rfl (.inl rfl) rfl
  | look _ ih => exact ih.congr rfl (.inl rfl) rfl

end Search

theorem Attempt.mem_allowed {rules : SearchRules} {a : Attempt} (made : a.MadeBy rules σ) {s : Slot}
    {i : Instruction} (held : a.solution.at? s = some i) : i.action ∈ rules.config.allowedActions := by
  rw [Attempt.solution, Program.at?_pruned] at held
  split at held
  · obtain ⟨j, filled, playable⟩ := made.playable.filled s (Program.hasSlot_of_at? held)
    rw [held, Option.some.injEq] at filled
    rw [filled]
    exact Action.mem_allowedActions.mpr playable
  · cases held

namespace Search

theorem step_start {s : Search σ τ} (patient : s.rules.tries ≠ 0)
    (steady : s.rules.breaksDown 1 = false) {a : Attempt} {after : σ}
    (ran : simulate (Program.draw s.rules.config s.source).1 s.rules.config
      { window := s.rules.window } (Program.draw s.rules.config s.source).2 = (.ok a, after))
    (passed : a.verdict.isPassed = true) :
    ∃ r, (s.start none none).step.result = some r ∧ r.WonBy s.rules (some a) ∧
      r.elapsed = (Clock.now (Clock.now s.clock).2).1 - (Clock.now s.clock).1 := by
  obtain ⟨t, runs, first⟩ := runs_start patient
  generalize (Program.draw s.rules.config s.source).1 = p at ran runs
  rw [← first.source, ← first.rules] at ran
  rw [← first.rules, ← first.attempts] at steady
  obtain ⟨clock, r, same, ends⟩ := finish_frame { t with source := after } .success (some a)
  refine ⟨r, ?_, ⟨by simp [ends.outcome], first.rules ▸ ends.puzzle, ends.solution, ends.trace⟩, ?_⟩
  · rw [runs.step_eq, judge_of_passed steady ran passed, same]
  · rw [ends.elapsed, first.clock, first.startedAt]

/-- Whatever a search runs is playable, and a packaged solution keeps to what its puzzle allows. -/
theorem playable_of_launched (rules : SearchRules) (s : Search σ τ) (launched : s.Launched rules) :
    (∀ p t, s.Runs p t → s.step = t.judge p ∧ p.Playable rules.config) ∧
      ∀ r q p, s.result = some r → r.puzzle = some q → r.solution = some p →
        (∀ slot i, p.at? slot = some i → i.action ∈ q.allowed) ∧
          ∀ routine, (p.lengths.get routine : Int) = q.lengths.get routine := by
  have sound := launched.sound
  refine ⟨fun p t runs => ⟨runs.step_eq, (sound.of_runs runs).2⟩, fun r q p found puzzle solution => ?_⟩
  obtain ⟨winner, won, made⟩ := sound.result r found
  rw [won.puzzle] at puzzle
  rw [won.solution] at solution
  obtain ⟨a, here, rfl⟩ := Option.map_eq_some_iff.mp puzzle
  obtain ⟨b, same, rfl⟩ := Option.map_eq_some_iff.mp solution
  obtain rfl : a = b := Option.some.inj (here.symm.trans same)
  have made := (made a here).1
  refine ⟨fun slot i held => Attempt.mem_allowed made held, fun routine => ?_⟩
  rw [Attempt.solution, Program.lengths_pruned, made.playable.lengths]
  exact (PerRoutine.get_ofFn (fun r => (rules.config.slotsPerRoutine.get r : Int)) routine).symm

def callSearch : Search Tape Stopwatch where
  rules := { config := {
    slotsPerRoutine := ⟨2, 1, 0, 0, 0⟩
    maxSteps := 4
    gridSize := 4
    minCoverage := 50
    conditionalPercent := 50
    minTiles := 0
    minBoundingBox := 0
    minTurns := 0
    minRetraceRatio := 0 } }
  source := ⟨#[0.72, 0.66, 0.9, 0.1, 0.3], 0, false⟩
  clock := ⟨0⟩

theorem playable_callSearch :
    ∃ p t r q solution, (callSearch.start none none).Runs p t ∧ p.Playable callSearch.rules.config ∧
      (callSearch.start none none).step.result = some r ∧ r.puzzle = some q ∧
      r.solution = some solution ∧ solution.at? ⟨.f1, 0⟩ = some ⟨.call .f2, none⟩ ∧
      ∀ slot i, solution.at? slot = some i → i.action ∈ q.allowed := by
  have evaluated : (simulate (Program.draw callSearch.rules.config callSearch.source).1
      callSearch.rules.config { window := callSearch.rules.window }
      (Program.draw callSearch.rules.config callSearch.source).2).1.toOption.any (fun a =>
        a.verdict.isPassed && decide (a.solution.at? ⟨.f1, 0⟩ = some ⟨.call .f2, none⟩)) = true := by
    decide +kernel
  obtain ⟨a, after, ran, tested⟩ := exists_ok_of_any evaluated
  rw [Bool.and_eq_true, decide_eq_true_eq] at tested
  have launched : (callSearch.start none none).Launched callSearch.rules := .start rfl none none
  obtain ⟨t, runs, -⟩ := runs_start (s := callSearch) (by decide)
  obtain ⟨r, found, won, -⟩ := step_start (s := callSearch) (by decide) rfl ran tested.1
  have first := (playable_of_launched _ _ launched).1 _ t runs
  have packaged := (playable_of_launched _ _ launched.step).2 r _ _ found won.puzzle won.solution
  exact ⟨_, t, r, _, a.solution, runs, first.2, found, won.puzzle, won.solution, tested.2, packaged.1⟩

end Search

end GridRobot
