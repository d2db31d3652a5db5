import GridRobot.Proofs.Program.Signature
import GridRobot.Proofs.Search.Accounts

namespace GridRobot

variable {σ τ : Type} [RandomSource σ] [Clock τ]

theorem Program.Playable.wellFormed {c : Config} {p : Program} (playable : p.Playable c) :
    p.WellFormed := by
  refine Program.wellFormed_of_at? fun s i held => ?_
  obtain ⟨j, filled, known⟩ := playable.filled s (Program.hasSlot_of_at? held)
  obtain rfl : i = j := Option.some.inj (held.symm.trans filled)
  exact known.isKnown

/-! ## The memo -/

structure Remembers (seen : Std.HashSet String) (tried : List Program) : Prop where
  formed : ∀ p ∈ tried, p.WellFormed
  seen : ∀ text, seen.contains text = true ↔ ∃ p ∈ tried, p.signature = text

namespace Remembers

variable {seen : Std.HashSet String} {tried : List Program} {p : Program}

theorem empty : Remembers ∅ [] :=
  ⟨nofun, by simp⟩

theorem contains_iff (remembers : Remembers seen tried) (formed : p.WellFormed) :
    seen.contains p.signature = true ↔ p ∈ tried := by
  rw [remembers.seen]
  constructor
  · rintro ⟨q, mem, same⟩
    rwa [← (Program.signature_inj (remembers.formed q mem) formed).mp same]
  · exact fun mem => ⟨p, mem, rfl⟩

theorem insert (remembers : Remembers seen tried) (formed : p.WellFormed) :
    Remembers (seen.insert p.signature) (tried ++ [p]) := by
  refine ⟨fun q mem => ?_, fun text => ?_⟩
  · rcases List.mem_append.mp mem with before | now
    · exact remembers.formed q before
    · rwa [List.mem_singleton.mp now]
  · rw [Std.HashSet.contains_insert, Bool.or_eq_true, beq_iff_eq, remembers.seen]
    simp only [List.mem_append, List.mem_singleton, or_and_right, exists_or, exists_eq_left]
    exact or_comm

end Remembers

namespace Search

/-! ## Rounds -/

inductive Draws (draw : StateM σ (Option Program)) : σ → List Program → σ → Prop
  | done (source : σ) : Draws draw source [] source
  | next {source between after : σ} {p : Program} {ps : List Program}
      (drew : draw source = (some p, between)) (rest : Draws draw between ps after) :
      Draws draw source (p :: ps) after

/-- So many tries at a program that was not tried before. Those passed over were, and the one that is
drawn after them, if any, is chosen. -/
structure Round (draw : StateM σ (Option Program)) (tries : Nat) (tried : List Program) (source : σ)
    (passed : List Program) (chosen : Option Program) (after : σ) : Prop where
  draws : Draws draw source (passed ++ chosen.toList) after
  bounded : passed.length + chosen.toList.length ≤ tries
  known : ∀ p ∈ passed, p ∈ tried
  new : ∀ p, chosen = some p → p ∉ tried
  spent : chosen = none → passed.length = tries

omit [RandomSource σ] [Clock τ] in
theorem round_claimDrawn {draw : StateM σ (Option Program)} {tried : List Program}
    (draws : ∀ source, ∃ p, (draw source).1 = some p ∧ p.WellFormed) (n : Nat) {s : Search σ τ}
    (remembers : Remembers s.seen tried) :
    ∃ passed, Round draw n tried s.source passed (claimDrawn draw n s).1 (claimDrawn draw n s).2.source ∧
      Remembers (claimDrawn draw n s).2.seen (tried ++ (claimDrawn draw n s).1.toList) := by
  induction n generalizing s with
  | zero =>
    refine ⟨[], ⟨.done _, Nat.le_refl 0, by simp, by simp [claimDrawn], fun _ => rfl⟩, ?_⟩
    exact (List.append_nil tried).symm ▸ remembers
  | succ n ih =>
    obtain ⟨p, drew, formed⟩ := draws s.source
    have drew : draw s.source = (some p, (draw s.source).2) := Prod.ext drew rfl
    generalize (draw s.source).2 = between at drew
    -- the memo holds texts, so this is where a text stands for no other program
    have known := remembers.contains_iff formed
    by_cases before : p ∈ tried
    · have again : claimDrawn draw (n + 1) s = claimDrawn draw n { s with source := between } := by
        simp [claimDrawn, drawn, drew, claim, known.mpr before]
      rw [again]
      obtain ⟨passed, ⟨rest, bound, all, new, spent⟩, remembers⟩ :=
        ih (s := { s with source := between }) remembers
      refine ⟨p :: passed, ⟨.next drew rest, ?_, ?_, new, fun none => ?_⟩, remembers⟩
      · rw [List.length_cons]
        omega
      · exact List.forall_mem_cons.mpr ⟨before, all⟩
      · exact congrArg (· + 1) (spent none)
    · have unseen : s.seen.contains p.signature = false :=
        Bool.eq_false_iff.mpr fun seen => before (known.mp seen)
      have taken : claimDrawn draw (n + 1) s =
          (some p, { s with source := between, seen := s.seen.insert p.signature }) := by
        simp [claimDrawn, drawn, drew, claim, unseen]
      rw [taken]
      refine ⟨[], ⟨.next drew (.done between), ?_, by simp, ?_, by simp⟩, remembers.insert formed⟩
      · exact Nat.succ_le_succ (Nat.zero_le n)
      · simpa using before

/-- How the next program is chosen. There is a round of repairs if there is a parent; if there is none,
or all repairs were tried before, there is a round of fresh programs. -/
inductive Chosen (s : Search σ τ) (tried : List Program) (p? : Option Program) (after : σ) : Prop
  | repaired {a : Attempt} {passed : List Program} (parent : s.parent = some a) (found : p?.isSome = true)
      (repairs : Round (drawRepair s.rules a) s.rules.tries tried s.source passed p? after)
  | stalled {a : Attempt} {between : σ} {passed passed' : List Program} (parent : s.parent = some a)
      (repairs : Round (drawRepair s.rules a) s.rules.tries tried s.source passed none between)
      (fresh : Round (drawFresh s.rules) s.rules.tries tried between passed' p? after)
  | fresh {passed : List Program} (parent : s.parent = none)
      (fresh : Round (drawFresh s.rules) s.rules.tries tried s.source passed p? after)

variable {rules : SearchRules} {s t : Search σ τ} {tried : List Program}

omit [Clock τ] in
theorem chosen_nextProgram (sound : s.Sound rules) (remembers : Remembers s.seen tried) :
    s.Chosen tried s.nextProgram.1 s.nextProgram.2.source ∧
      Remembers s.nextProgram.2.seen (tried ++ s.nextProgram.1.toList) := by
  obtain ⟨ruled, parent, -⟩ := sound
  have fresh (source : σ) : ∃ p, (drawFresh s.rules source).1 = some p ∧ p.WellFormed := by
    obtain ⟨p, drew⟩ : ∃ p, (drawFresh s.rules source).1 = some p := ⟨_, rfl⟩
    exact ⟨p, drew, (playable_drawFresh drew).wellFormed⟩
  unfold nextProgram
  cases before : s.parent with
  | none =>
    obtain ⟨passed, round, remembers⟩ := round_claimDrawn fresh s.rules.tries remembers
    exact ⟨.fresh before round, remembers⟩
  | some a =>
    have repairs (source : σ) : ∃ p, (drawRepair s.rules a source).1 = some p ∧ p.WellFormed := by
      obtain ⟨p, drew, playable⟩ := exists_drawRepair (ruled ▸ parent a before) source
      exact ⟨p, drew, playable.wellFormed⟩
    obtain ⟨passed, round, after⟩ := round_claimDrawn repairs s.rules.tries remembers
    obtain ⟨source, seen, same⟩ := claimDrawn_frame (drawRepair s.rules a) s.rules.tries s
    dsimp only
    cases claimed : claimDrawn (drawRepair s.rules a) s.rules.tries s with
    | mk p? t =>
      rw [claimed] at round after same
      cases p? with
      | some p => exact ⟨.repaired before rfl round, after⟩
      | none =>
        dsimp only at same
        subst same
        dsimp only [Option.toList_none] at round after
        rw [List.append_nil] at after
        obtain ⟨passed', round', after⟩ :=
          round_claimDrawn (s := { s with source, seen, parent := none }) fresh s.rules.tries after
        exact ⟨.stalled before round round', after⟩

/-! ## Stretches -/

/-- What is left of the programs tried, at the next attempt: every so many attempts they are forgotten. -/
def remembered (s : Search σ τ) (tried : List Program) : List Program :=
  if (s.attempts + 1) % s.rules.config.restartAfter = 0 then [] else tried

/-- The programs that a search has run since it was started or last forgot what it had tried. -/
inductive Stretch (rules : SearchRules) : Search σ τ → List Program → Prop
  | start {s : Search σ τ} (ruled : s.rules = rules) (timeout : Option Float)
      (maxAttempts : Option Int) : Stretch rules (s.start timeout maxAttempts) []
  | ran {s t : Search σ τ} {tried : List Program} {p : Program} (stretch : Stretch rules s tried)
      (runs : s.Runs p t) : Stretch rules s.step (s.remembered tried ++ [p])
  | idle {s : Search σ τ} {tried : List Program} (stretch : Stretch rules s tried)
      (idle : ∀ p t, ¬ s.Runs p t) : Stretch rules s.step tried
  | stop {s : Search σ τ} {tried : List Program} (stretch : Stretch rules s tried) :
      Stretch rules s.stop tried
  | look {s : Search σ τ} {tried : List Program} (stretch : Stretch rules s tried) :
      Stretch rules s.progress.2 tried

theorem Stretch.launched (stretch : s.Stretch rules tried) : s.Launched rules := by
  induction stretch with
  | start ruled timeout maxAttempts => exact .start ruled timeout maxAttempts
  | ran _ _ ih | idle _ _ ih => exact ih.step
  | stop _ ih => exact ih.stop
  | look _ ih => exact ih.look

theorem Launched.exists_stretch (launched : s.Launched rules) : ∃ tried, s.Stretch rules tried := by
  induction launched with
  | start ruled timeout maxAttempts => exact ⟨[], .start ruled timeout maxAttempts⟩
  | @step s _ ih =>
    obtain ⟨tried, stretch⟩ := ih
    by_cases ran : ∃ p t, s.Runs p t
    · obtain ⟨p, t, runs⟩ := ran
      exact ⟨_, stretch.ran runs⟩
    · exact ⟨tried, stretch.idle fun p t runs => ran ⟨p, t, runs⟩⟩
  | stop _ ih => exact ih.imp fun _ => .stop
  | look _ ih => exact ih.imp fun _ => .look

theorem judge_frame (s : Search σ τ) (p : Program) :
    ∃ source clock tally lastFailure result parent lastReport snapshots, s.judge p =
      { s with source, clock, tally, lastFailure, result, parent, lastReport, snapshots } := by
  obtain ⟨source, drew⟩ := s.tryProgram_frame p
  generalize ended : s.judge p = t
  have judged := s.judged p
  rw [ended] at judged
  cases judged with
  | @brokeDown u tried =>
    obtain ⟨_, _, _, same⟩ := u.fail_frame .other none
    rw [tried] at drew
    dsimp only at drew
    rw [same, drew]
    exact ⟨_, _, _, _, _, _, _, _, rfl⟩
  | @passed a u tried =>
    obtain ⟨_, _, same, -⟩ := u.finish_frame .success (some a)
    rw [tried] at drew
    dsimp only at drew
    rw [same, drew]
    exact ⟨_, _, _, _, _, _, _, _, rfl⟩
  | @failed a f u tried =>
    obtain ⟨_, _, _, same⟩ := u.fail_frame f (some a)
    rw [tried] at drew
    dsimp only at drew
    rw [same, drew]
    exact ⟨_, _, _, _, _, _, _, _, rfl⟩

omit [RandomSource σ] in
theorem remembers_beginAttempt (remembers : Remembers s.seen tried) :
    Remembers s.isLate.2.beginAttempt.seen (s.remembered tried) := by
  obtain ⟨clock, same⟩ := s.isLate_frame
  rw [same]
  unfold beginAttempt remembered
  dsimp only
  split
  · exact .empty
  · exact remembers

theorem chosen_of_open (sound : s.Sound rules) (remembers : Remembers s.seen tried) :
    let u := s.isLate.2.beginAttempt
    u.Chosen (s.remembered tried) u.nextProgram.1 u.nextProgram.2.source ∧
      Remembers u.nextProgram.2.seen (s.remembered tried ++ u.nextProgram.1.toList) :=
  chosen_nextProgram sound.isLate.beginAttempt (remembers_beginAttempt remembers)

omit [Clock τ] in
theorem Chosen.new {u : Search σ τ} {p : Program} {after : σ}
    (chosen : u.Chosen tried (some p) after) : p ∉ tried := by
  cases chosen with
  | repaired _ _ round | stalled _ _ round | fresh _ round => exact round.new p rfl

theorem result_step_of_idle (idle : ∀ p t, ¬ s.Runs p t) : s.step.result.isSome = true := by
  generalize ended : s.step = t
  have stepped := s.stepped
  rw [ended] at stepped
  cases stepped with
  | finished found => exact found
  | stopped | late | spent | unseen => rfl
  | ran runs => exact absurd runs (idle _ _)

structure Memory (s : Search σ τ) (tried : List Program) : Prop where
  once : tried.Nodup
  remembers : s.result = none → Remembers s.seen tried

theorem Stretch.memory (stretch : s.Stretch rules tried) : s.Memory tried := by
  induction stretch with
  | start => exact ⟨.nil, fun _ => .empty⟩
  | @ran s t tried p stretch runs ih =>
    obtain ⟨chosen, remembers⟩ :=
      chosen_of_open stretch.launched.sound (ih.remembers runs.opened.unfinished)
    rw [runs.next] at chosen remembers
    have once : (s.remembered tried).Nodup := by
      unfold remembered
      split
      · exact .nil
      · exact ih.once
    refine ⟨List.nodup_append.mpr ⟨once, List.pairwise_singleton _ p, ?_⟩, fun _ => ?_⟩
    · intro q before r new same
      rw [List.mem_singleton.mp new] at same
      exact chosen.new (same ▸ before)
    · obtain ⟨_, _, _, _, _, _, _, _, judged⟩ := t.judge_frame p
      rw [runs.step_eq, judged]
      exact remembers
  | idle _ idle ih =>
    -- an attempt that finds no program may have cleared the memo, but it is the last one
    refine ⟨ih.once, fun going => ?_⟩
    have ended := result_step_of_idle idle
    rw [going] at ended
    cases ended
  | stop _ ih | look _ ih => exact ⟨ih.once, ih.remembers⟩

/-- Programs in the vocabulary are told apart by their signatures. From one time that a search forgets
what it has tried to the next, it runs no program twice, and an attempt passes over none but those. -/
theorem memo_exact (rules : SearchRules) :
    (∀ a b : Program, a.WellFormed → b.WellFormed → (a.signature = b.signature ↔ a = b)) ∧
      (∀ s : Search σ τ, s.Launched rules → ∃ tried, s.Stretch rules tried) ∧
      ∀ (s : Search σ τ) tried, s.Stretch rules tried → tried.Nodup ∧
        (s.Open → s.isLate.2.beginAttempt.Chosen (s.remembered tried)
          s.isLate.2.beginAttempt.nextProgram.1 s.isLate.2.beginAttempt.nextProgram.2.source) := by
  refine ⟨fun _ _ => Program.signature_inj, fun _ => Launched.exists_stretch,
    fun s tried stretch => ⟨stretch.memory.once, fun opened => ?_⟩⟩
  exact (chosen_of_open stretch.launched.sound (stretch.memory.remembers opened.unfinished)).1

theorem Runs.opens {p : Program} (runs : s.Runs p t) (untimed : s.deadline = none)
    (unlimited : s.maxAttempts = none) (going : s.step.result = none) : s.step.Open := by
  obtain ⟨_, _, _, _, _, _, _, _, judged⟩ := t.judge_frame p
  obtain ⟨clock, read⟩ := s.isLate_frame
  obtain ⟨_, _, _, began⟩ := s.isLate.2.beginAttempt_frame
  obtain ⟨_, _, _, drew, -⟩ := s.isLate.2.beginAttempt.nextProgram_frame
  rw [runs.next, began, read] at drew
  dsimp only at drew
  have kept : s.step.stopRequested = false ∧ s.step.deadline = none ∧ s.step.maxAttempts = none := by
    rw [runs.step_eq, judged, drew]
    exact ⟨runs.opened.unstopped, untimed, unlimited⟩
  obtain ⟨unstopped, untimed, unlimited⟩ := kept
  refine ⟨going, unstopped, ?_, ?_⟩
  · simp [isLate, untimed]
  · rw [isSpent_isLate, isSpent, unlimited]
    rfl

theorem memo_exact_walk :
    ∃ p, (shortWalk.start none none).step.Stretch shortWalk.rules [p] ∧
      (shortWalk.start none none).step.Open ∧
      ∀ q t, (shortWalk.start none none).step.Runs q t → q.signature ≠ p.signature := by
  obtain ⟨going, attempts, rules⟩ :=
    step_start_of_firstFails (s := shortWalk) (Nat.succ_ne_zero 99) rfl (by decide +kernel)
  obtain ⟨t, runs, -⟩ := runs_start (s := shortWalk) (Nat.succ_ne_zero 99)
  generalize (Program.draw shortWalk.rules.config shortWalk.source).1 = p at runs
  have begun : (shortWalk.start none none).Stretch shortWalk.rules [] := .start rfl none none
  have stretch := begun.ran runs
  rw [show (shortWalk.start none none).remembered [] = [] from ite_self [], List.nil_append] at stretch
  have opened := runs.opens rfl rfl going
  obtain ⟨signatures, -, memo⟩ := memo_exact (σ := Tape) (τ := Stopwatch) shortWalk.rules
  have chosen := (memo _ _ stretch).2 opened
  refine ⟨p, stretch, opened, fun q u again same => ?_⟩
  have first := (begun.launched.sound.of_runs runs).2.wellFormed
  have second := (stretch.launched.sound.of_runs again).2.wellFormed
  have kept : (shortWalk.start none none).step.remembered [p] = [p] := by
    rw [remembered, attempts, rules]
    exact if_neg (by decide)
  rw [again.next, kept] at chosen
  exact chosen.new (List.mem_singleton.mpr ((signatures q p second first).mp same))

end Search

end GridRobot
