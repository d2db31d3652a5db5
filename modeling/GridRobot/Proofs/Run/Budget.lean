import GridRobot.Proofs.Run.Course
import GridRobot.Proofs.Run.Reach

namespace GridRobot

variable {σ : Type} [RandomSource σ]

/-- Under `c'` a run may take more steps, and may be allowed past its start pose. -/
structure Config.Outlasts (c' c : Config) : Prop where
  steps : c.maxSteps ≤ c'.maxSteps
  loops : c.ignoreLoops = true → c'.ignoreLoops = true
  same : c' = { c with maxSteps := c'.maxSteps, ignoreLoops := c'.ignoreLoops }

def Rules.under (rules : Rules) (c : Config) : Rules :=
  { rules with config := c }

namespace Config.Outlasts

variable {c c' : Config}

theorem minds (outlasts : c'.Outlasts c) (minds : c'.ignoreLoops = false) :
    c.ignoreLoops = false := by
  refine Bool.eq_false_iff.mpr fun ignores => ?_
  rw [outlasts.loops ignores] at minds
  cases minds

theorem hasSeenEnough (outlasts : c'.Outlasts c) (t : Trace) :
    t.hasSeenEnough c' = t.hasSeenEnough c := by
  rw [outlasts.same]
  rfl

theorem draws {rules : Rules} (outlasts : c'.Outlasts rules.config) {source after : σ}
    {drawn : Option Color} (draws : Draws rules source drawn after) :
    Draws (rules.under c') source drawn after := by
  have ratios : c'.colorRatios = rules.config.colorRatios := by rw [outlasts.same]
  cases drawn with
  | none => exact draws
  | some color =>
    rw [Draws] at draws ⊢
    rw [← draws, ← ratios]
    rfl

theorem prepare (outlasts : c'.Outlasts c) (s : Setting) (source : σ) :
    s.prepare c' source = s.prepare c source := by
  rw [outlasts.same]
  rfl

end Config.Outlasts

/-! ## One fetch -/

inductive Progress.Outlasted (c' : Config) : Progress → Progress → Prop
  | same (progress : Progress) : Outlasted c' progress progress
  | goesOn (next : Run) (ignores : c'.ignoreLoops = true) :
      Outlasted c' (.ended { next.trace with terminal := .loop }) (.running next)

section Step

variable {c' : Config} {rules : Rules} {r : Run} {slot : Slot}

theorem Run.outlasted_unlessBack {c : Config} (outlasts : c'.Outlasts c) (r : Run) (t : Trace) :
    Progress.Outlasted c' (r.unlessBack c t) (r.unlessBack c' t) := by
  unfold unlessBack
  by_cases back : t.isBack c'
  · obtain ⟨minds, moved, home⟩ := Trace.isBack_iff.mp back
    rw [if_pos back, if_pos (Trace.isBack_iff.mpr ⟨outlasts.minds minds, moved, home⟩)]
    exact .same _
  · rw [if_neg back]
    -- one that is back under `c` alone is back where `c'` no longer minds
    split
    · rename_i before
      obtain ⟨-, moved, home⟩ := Trace.isBack_iff.mp before
      refine .goesOn { r with trace := t } (eq_true_of_ne_false fun minds => ?_)
      exact back (Trace.isBack_iff.mpr ⟨minds, moved, home⟩)
    · exact .same _

theorem Effect.outlasted {action : Action} {drawn : Option Color} {progress : Progress}
    (effect : Effect rules r slot action drawn progress) (outlasts : c'.Outlasts rules.config) :
    ∃ progress', Progress.Outlasted c' progress progress' ∧
      Effect (rules.under c') r slot action drawn progress' := by
  cases effect with
  | boundary outside => exact ⟨_, .same _, .boundary outside⟩
  | move tile onto => exact ⟨_, Run.outlasted_unlessBack outlasts _ _, .move tile onto⟩
  | pave c inside void => exact ⟨_, Run.outlasted_unlessBack outlasts _ _, .pave c inside void⟩
  | turn t => exact ⟨_, Run.outlasted_unlessBack outlasts _ _, .turn t⟩
  | call callee => exact ⟨_, .same _, .call callee⟩
  | paint c => exact ⟨_, .same _, .paint c⟩
  | noop => exact ⟨_, .same _, .noop⟩
  | other name => exact ⟨_, .same _, .other name⟩

theorem Dispatch.outlasted {i : Instruction} {drawn : Option Color} {progress : Progress}
    (dispatched : Dispatch rules r slot i drawn progress) (outlasts : c'.Outlasts rules.config) :
    ∃ progress', Progress.Outlasted c' progress progress' ∧
      Dispatch (rules.under c') r slot i drawn progress' := by
  cases dispatched with
  | earlyExit enough =>
    exact ⟨_, .same _, .earlyExit ((outlasts.hasSeenEnough _).trans enough)⟩
  | act more effect =>
    obtain ⟨progress', outlasted, acted⟩ := effect.outlasted outlasts
    exact ⟨progress', outlasted, .act ((outlasts.hasSeenEnough _).trans more) acted⟩

theorem Run.advance_outlasted {source after : σ} {progress : Progress}
    (fetched : r.advance rules source = (progress, after)) (outlasts : c'.Outlasts rules.config) :
    ∃ progress', Progress.Outlasted c' progress progress' ∧
      r.advance (rules.under c') source = (progress', after) := by
  rcases advance_cases fetched with
    ⟨stack, found, rfl, rfl⟩ | ⟨stack, slot, i, drawn, found, dispatched, draws⟩
  · have passed : r.advance (rules.under c') after = (.running { r with stack }, after) :=
      advance_of_next after found
    exact ⟨_, .same _, passed⟩
  · obtain ⟨progress', outlasted, dispatched⟩ := dispatched.outlasted outlasts
    have acted : r.advance (rules.under c') source = (progress', after) :=
      advance_of_dispatch found dispatched (outlasts.draws draws)
    exact ⟨progress', outlasted, acted⟩

end Step

/-! ## What a run leaves in place -/

structure Trace.Lengthens (t u : Trace) : Prop where
  path : t.path.toList <+: u.path.toList
  turns : t.turnPositions.toList <+: u.turnPositions.toList

namespace Trace.Lengthens

theorem refl (t : Trace) : t.Lengthens t :=
  ⟨List.prefix_rfl, List.prefix_rfl⟩

theorem trans {t u v : Trace} (first : t.Lengthens u) (second : u.Lengthens v) : t.Lengthens v :=
  ⟨first.path.trans second.path, first.turns.trans second.turns⟩

theorem still {t u : Trace} (path : u.path = t.path) (turns : u.turnPositions = t.turnPositions) :
    t.Lengthens u :=
  ⟨path ▸ List.prefix_rfl, turns ▸ List.prefix_rfl⟩

end Trace.Lengthens

theorem Effect.lengthens {rules : Rules} {r : Run} {slot : Slot} {action : Action}
    {drawn : Option Color} {progress : Progress}
    (effect : Effect rules r slot action drawn progress) :
    r.trace.Lengthens progress.trace := by
  cases effect.moves.1 with
  | stays _ path turns => exact .still path turns
  | turns _ _ path turns => exact .still path turns
  | arrives turning final path turns =>
    refine ⟨⟨[r.trace.ahead], ?_⟩, ?_⟩
    · rw [path, Array.toList_push]
    · rw [turns]
      cases turning with
      | false => exact List.prefix_rfl
      | true => exact ⟨[r.trace.final.position], Array.toList_push.symm⟩

theorem Dispatch.lengthens {rules : Rules} {r : Run} {slot : Slot} {i : Instruction}
    {drawn : Option Color} {progress : Progress}
    (dispatched : Dispatch rules r slot i drawn progress) : r.trace.Lengthens progress.trace := by
  have recorded : r.trace.Lengthens (r.trace.record slot i r.departed) :=
    .still (Trace.path_record _ _ _ _) (Trace.turnPositions_record _ _ _ _)
  cases dispatched with
  | earlyExit => exact recorded.trans (.still rfl rfl)
  | act _ effect => exact recorded.trans effect.lengthens

theorem Run.lengthens_of_finish {rules : Rules} {n : Nat} {r : Run} {source after : σ} {t : Trace}
    (ran : finish rules n r source = (t, after)) : r.trace.Lengthens t := by
  obtain ⟨log, logged⟩ : ∃ log, Logged rules n r.stack 0 r source log t after :=
    finish_iff.mp ran
  exact logged.preserves (P := r.trace.Lengthens)
    (fun dispatched before => before.trans dispatched.lengthens) (.refl _)

theorem Run.terminal_of_advance {rules : Rules} {r next : Run} {source after : σ}
    (fetched : r.advance rules source = (.running next, after)) :
    next.trace.terminal = r.trace.terminal := by
  rcases advance_cases fetched with
    ⟨stack, -, went, -⟩ | ⟨stack, slot, i, drawn, -, dispatched, -⟩
  · cases went
    rfl
  · cases dispatched with
    | act _ effect =>
      obtain ⟨-, -, -, same, -⟩ := effect.goes
      exact same.trans (Trace.terminal_record _ _ _ _)

/-! ## Whole runs -/

def Trace.StopsUnder (t : Trace) (c : Config) : Prop :=
  t.terminal = .boundary ∨ t.terminal = .earlyExit ∨ t.terminal = .loop ∧ c.ignoreLoops = false

theorem Run.stopsUnder_of_advance {rules : Rules} {r : Run} {source after : σ} {t : Trace}
    (fetched : r.advance rules source = (.ended t, after)) : t.StopsUnder rules.config := by
  rcases advance_cases fetched with
    ⟨stack, -, went, -⟩ | ⟨stack, slot, i, drawn, -, dispatched, -⟩
  · cases went
  · rcases dispatched.ended with early | boundary | loop
    · exact .inr (.inl early)
    · exact .inl boundary
    · exact .inr (.inr loop)

section Whole

variable {c' : Config} {rules : Rules} {r : Run} {source after : σ} {t : Trace}

theorem Fetches.outlasted {k : Nat} {last : Run} (fetches : Fetches rules k r source last after)
    (outlasts : c'.Outlasts rules.config) : Fetches (rules.under c') k r source last after := by
  induction fetches with
  | none => exact .none _ _
  | next left fetched _ ih =>
    obtain ⟨progress', outlasted, fetched'⟩ := Run.advance_outlasted fetched outlasts
    cases outlasted with
    | same => exact .next (Nat.lt_of_lt_of_le left outlasts.steps) fetched' ih

theorem Run.finish_outlasted {n n' : Nat} (outlasts : c'.Outlasts rules.config) (more : n ≤ n')
    (going : r.trace.terminal = .completed) (ran : finish rules n r source = (t, after)) :
    (t.StopsUnder c' ∧ finish (rules.under c') n' r source = (t, after)) ∨
      ¬ t.StopsUnder c' ∧ ∃ k ≤ n', ∃ last, Fetches (rules.under c') k r source last after ∧
        t = { last.trace with terminal := t.terminal } := by
  cases ends_of_finish ran with
  | unstopped within fetches =>
    have completed := fetches.maintains (P := fun r => r.trace.terminal = .completed)
      (fun fetched before => (terminal_of_advance fetched).trans before) going
    refine .inr ⟨?_, _, Nat.le_trans within more, _, fetches.outlasted outlasts, rfl⟩
    simp [Trace.StopsUnder, completed]
  | @stopped k last between after t within fetches left fetched =>
    have left' := Nat.lt_of_lt_of_le left outlasts.steps
    have fetches' := fetches.outlasted outlasts
    obtain ⟨progress', outlasted, fetched'⟩ := advance_outlasted fetched outlasts
    cases outlasted with
    | same =>
      refine .inl ⟨stopsUnder_of_advance fetched', ?_⟩
      -- the fetch that stops the run comes within either cap
      obtain ⟨rest, rfl⟩ : ∃ rest, n' = rest + 1 + k := ⟨n' - (1 + k), by omega⟩
      rw [fetches'.finish_eq]
      exact finish_ended left' fetched'
    | goesOn next ignores =>
      refine .inr ⟨?_, k + 1, Nat.le_trans within more, next, fetches'.concat left' fetched', rfl⟩
      simp [Trace.StopsUnder, ignores]

theorem Logged.outlasted {n n' : Nat} {origin : CallStack} {skipped : Nat} {log : List Event}
    (logged : Logged rules n origin skipped r source log t after)
    (outlasts : c'.Outlasts rules.config) (more : n ≤ n') :
    ∃ log' t' after', Logged (rules.under c') n' origin skipped r source log' t' after' ∧
      log.map (·.slot) <+: log'.map (·.slot) := by
  -- where the log of the first run ends, any log of the second one will do
  have afresh {m : Nat} {origin : CallStack} {skipped : Nat} {r : Run} {source : σ} :
      ∃ log' t' after', Logged (rules.under c') m origin skipped r source log' t' after' ∧
        [] <+: log'.map (·.slot) := by
    obtain ⟨log', t', after', logged'⟩ :=
      Run.exists_logged (rules.under c') m origin skipped r source
    exact ⟨log', t', after', logged', List.nil_prefix⟩
  induction logged generalizing n' with
  | exhausted | spent => exact afresh
  | passed left fetched _ ih =>
    obtain ⟨n', rfl⟩ := Nat.exists_eq_add_one_of_ne_zero (Nat.ne_zero_of_lt more)
    obtain ⟨log', t', after', logged', begins⟩ := ih (Nat.le_of_succ_le_succ more)
    exact ⟨log', t', after', .passed (Nat.lt_of_lt_of_le left outlasts.steps) fetched logged', begins⟩
  | @ended _ _ _ _ _ _ between _ _ _ _ left fetched dispatched draws =>
    obtain ⟨n', rfl⟩ := Nat.exists_eq_add_one_of_ne_zero (Nat.ne_zero_of_lt more)
    have left' := Nat.lt_of_lt_of_le left outlasts.steps
    obtain ⟨progress', outlasted, dispatched'⟩ := dispatched.outlasted outlasts
    cases outlasted with
    | same =>
      exact ⟨_, _, _, .ended left' fetched dispatched' (outlasts.draws draws), List.prefix_rfl⟩
    | goesOn next =>
      obtain ⟨log', t', after', rest⟩ :=
        Run.exists_logged (rules.under c') n' next.stack 0 next between
      exact ⟨_, t', after', .executed left' fetched dispatched' (outlasts.draws draws) rest,
        log'.map (·.slot), rfl⟩
  | executed left fetched dispatched draws _ ih =>
    obtain ⟨n', rfl⟩ := Nat.exists_eq_add_one_of_ne_zero (Nat.ne_zero_of_lt more)
    obtain ⟨progress', outlasted, dispatched'⟩ := dispatched.outlasted outlasts
    cases outlasted with
    | same =>
      obtain ⟨log', t', after', rest, begins⟩ := ih (Nat.le_of_succ_le_succ more)
      exact ⟨_, t', after', .executed (Nat.lt_of_lt_of_le left outlasts.steps) fetched dispatched'
        (outlasts.draws draws) rest, List.prefix_cons_inj _ |>.mpr begins⟩

end Whole

theorem execute_eq_error {p : Program} {c : Config} {s : Setting} {suppressed : Slot → Bool}
    {source after : σ} {e : VoidStart} :
    execute p c s suppressed source = (.error e, after) ↔
      Trace.begin? (s.prepare c source).1.1 (s.prepare c source).1.2 = none ∧
        e = ⟨(s.prepare c source).1.2.position⟩ ∧ after = (s.prepare c source).2 := by
  cases begins : Trace.begin? (s.prepare c source).1.1 (s.prepare c source).1.2 with
  | none =>
    simp only [execute, bind_apply, runFrom?, begins]
    constructor
    · rintro ⟨⟩
      exact ⟨trivial, rfl, rfl⟩
    · rintro ⟨-, rfl, rfl⟩
      rfl
  | some begun =>
    obtain ⟨t, left, ran⟩ := exists_runFrom? ⟨p, c, suppressed, s.window⟩ begins
      (s.prepare c source).2
    rw [execute_eq_ok.mpr ran]
    constructor <;> nofun

/-- The run `t` of a program under `c` beside its run `t'` under `c'`, which outlasts `c`. The second is
the same run where the first one stops under `c'` too. Otherwise it comes through the states of the
first, and its own fetches add to what that run has left in place. -/
structure OutlastedBy (p : Program) (c c' : Config) (s : Setting) (suppressed : Slot → Bool) (source : σ)
    (begun t t' : Trace) (log log' : List Event) (after after' : σ) : Prop where
  ran : execute p c' s suppressed source = (.ok t', after')
  begins : Trace.begin? (s.prepare c source).1.1 (s.prepare c source).1.2 = some begun
  first : Logged ⟨p, c, suppressed, s.window⟩ (c.maxSteps * Run.fetchesPerStep) .root 0
    { trace := begun } (s.prepare c source).2 log t after
  second : Logged ⟨p, c', suppressed, s.window⟩ (c'.maxSteps * Run.fetchesPerStep) .root 0
    { trace := begun } (s.prepare c source).2 log' t' after'
  same : t.StopsUnder c' → t' = t ∧ after' = after
  onward : ¬ t.StopsUnder c' → ∃ k ≤ c'.maxSteps * Run.fetchesPerStep, ∃ last,
    Fetches ⟨p, c', suppressed, s.window⟩ k { trace := begun } (s.prepare c source).2 last after ∧
      t = { last.trace with terminal := t.terminal }
  reached : ∀ k r between,
    Fetches ⟨p, c, suppressed, s.window⟩ k { trace := begun } (s.prepare c source).2 r between →
      Fetches ⟨p, c', suppressed, s.window⟩ k { trace := begun } (s.prepare c source).2 r between
  path : t.path.toList <+: t'.path.toList
  turns : t.turnPositions.toList <+: t'.turnPositions.toList
  slots : log.map (·.slot) <+: log'.map (·.slot)

/-- A configuration that outlasts begins the run in the same place, breaks down where the other does, and
goes on from where the other run has come. -/
theorem outlasted_of_execute {p : Program} {c c' : Config} {s : Setting}
    {suppressed : Slot → Bool} {source : σ} (outlasts : c'.Outlasts c) :
    s.prepare c' source = s.prepare c source ∧
    (∀ e after, execute p c s suppressed source = (.error e, after) →
      execute p c' s suppressed source = (.error e, after)) ∧
    ∀ t after, execute p c s suppressed source = (.ok t, after) →
      ∃ begun log t' after' log',
        OutlastedBy p c c' s suppressed source begun t t' log log' after after' := by
  have prepared := outlasts.prepare s source
  refine ⟨prepared, ?_, ?_⟩
  · intro e after failed
    rw [execute_eq_error, prepared]
    exact execute_eq_error.mp failed
  intro t after ran
  obtain ⟨begun, log, begins, logged⟩ := runFrom?_eq_some.mp (execute_eq_ok.mp ran)
  have more : c.maxSteps * Run.fetchesPerStep ≤ c'.maxSteps * Run.fetchesPerStep :=
    Nat.mul_le_mul_right _ outlasts.steps
  obtain ⟨log', t', after', logged', slots⟩ := logged.outlasted outlasts more
  have ran' : execute p c' s suppressed source = (.ok t', after') := by
    rw [execute_eq_ok, runFrom?_eq_some, prepared]
    exact ⟨begun, log', begins, logged'⟩
  have going : begun.terminal = .completed := by
    obtain ⟨tile, here, rfl⟩ := Trace.begin?_eq_some begins
    rfl
  refine ⟨begun, log, t', after', log', ?_⟩
  have reached : ∀ k r between, Fetches ⟨p, c, suppressed, s.window⟩ k { trace := begun }
      (s.prepare c source).2 r between → Fetches ⟨p, c', suppressed, s.window⟩ k
        { trace := begun } (s.prepare c source).2 r between :=
    fun _ _ _ fetches => fetches.outlasted outlasts
  rcases Run.finish_outlasted outlasts more going logged.finish_eq with
    ⟨stops, same⟩ | ⟨goesOn, k, within, last, fetches, came⟩
  · obtain ⟨rfl, rfl⟩ := Prod.mk.inj (same.symm.trans logged'.finish_eq)
    exact ⟨ran', begins, logged, logged', fun _ => ⟨rfl, rfl⟩, absurd stops, reached, List.prefix_rfl,
      List.prefix_rfl, slots⟩
  · obtain ⟨rest, cap⟩ := Nat.exists_eq_add_of_le' within
    have later := logged'.finish_eq
    rw [cap] at later
    obtain ⟨path, turns⟩ := Run.lengthens_of_finish ((fetches.finish_eq rest).symm.trans later)
    have kept : t.path = last.trace.path ∧ t.turnPositions = last.trace.turnPositions := by
      rw [came]
      exact ⟨rfl, rfl⟩
    rw [← kept.1] at path
    rw [← kept.2] at turns
    exact ⟨ran', begins, logged, logged', fun stops => absurd stops goesOn,
      fun _ => ⟨k, within, last, fetches, came⟩, reached, path, turns, slots⟩

def onceRound : Config :=
  { sixMoves with maxSteps := 10, ignoreLoops := false }

theorem outlasted_goRound :
    sixMoves.Outlasts onceRound ∧
    ∃ t after t' after', execute goRound onceRound fourCells (fun _ => false)
        (⟨#[0.5], 0, false⟩ : Tape) = (.ok t, after) ∧
      execute goRound sixMoves fourCells (fun _ => false) (⟨#[0.5], 0, false⟩ : Tape) =
        (.ok t', after') ∧
      t.terminal = .loop ∧ t.steps = 8 ∧ ¬ t.StopsUnder sixMoves ∧
      t.path.toList <+: t'.path.toList ∧ t.turnPositions.toList <+: t'.turnPositions.toList := by
  have outlasts : sixMoves.Outlasts onceRound := ⟨by decide, nofun, rfl⟩
  have evaluated : (execute goRound onceRound fourCells (fun _ => false)
      (⟨#[0.5], 0, false⟩ : Tape)).1.toOption.any (fun t =>
        decide (t.terminal = .loop ∧ t.steps = 8)) = true := by
    decide +kernel
  obtain ⟨t, after, ran, tested⟩ := exists_ok_of_any evaluated
  obtain ⟨looped, steps⟩ := of_decide_eq_true tested
  obtain ⟨begun, log, t', after', log', outlasted⟩ := (outlasted_of_execute outlasts).2.2 t after ran
  refine ⟨outlasts, t, after, t', after', ran, outlasted.ran, looped, steps, ?_, outlasted.path,
    outlasted.turns⟩
  simp [Trace.StopsUnder, looped, sixMoves]

end GridRobot
