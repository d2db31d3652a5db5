import GridRobot.Proofs.Run.Terminal

namespace GridRobot

/-! ## One action -/

inductive Trace.Moves (t u : Trace) : Prop
  | stays (final : u.final = t.final) (path : u.path = t.path)
      (turns : u.turnPositions = t.turnPositions)
  | turns (d : Turn) (final : u.final = { t.final with heading := t.final.heading.turned d })
      (path : u.path = t.path) (turns : u.turnPositions = t.turnPositions)
  | arrives (turning : Bool) (final : u.final = { t.final with position := t.ahead })
      (path : u.path = t.path.push t.ahead)
      (turns : u.turnPositions =
        if turning then t.turnPositions.push t.final.position else t.turnPositions)

structure Trace.SameRecord (t u : Trace) : Prop where
  start : u.start = t.start
  steps : u.steps = t.steps
  executed : u.executed = t.executed
  conditional : u.conditional = t.conditional

theorem Effect.moves {rules : Rules} {r : Run} {slot : Slot} {action : Action}
    {drawn : Option Color} {progress : Progress}
    (effect : Effect rules r slot action drawn progress) :
    r.trace.Moves progress.trace ∧ r.trace.SameRecord progress.trace := by
  cases effect with
  | boundary | call | noop | other => exact ⟨.stays rfl rfl rfl, rfl, rfl, rfl, rfl⟩
  | move =>
    obtain ⟨turning, terminal, came⟩ :=
      Run.trace_arrive rules (r.departing rules slot) r.trace.ahead
    rw [came]
    exact ⟨.arrives turning rfl rfl rfl, rfl, rfl, rfl, rfl⟩
  | pave c =>
    obtain ⟨turning, terminal, came⟩ :=
      Run.trace_arrive rules (r.paving rules slot c) r.trace.ahead
    rw [came]
    exact ⟨.arrives turning rfl rfl rfl, rfl, rfl, rfl, rfl⟩
  | turn d =>
    obtain ⟨terminal, same⟩ := Run.trace_turn rules r d
    rw [same]
    exact ⟨.turns d rfl rfl rfl, rfl, rfl, rfl, rfl⟩
  | paint c =>
    obtain ⟨world, visited, painted, same, -⟩ := Run.paint_frame rules r slot c
    rw [same]
    exact ⟨.stays rfl rfl rfl, rfl, rfl, rfl, rfl⟩

/-! ## Fetches -/

variable {σ : Type} [RandomSource σ]

namespace Run

theorem advance_of_next {rules : Rules} {r : Run} {stack : CallStack} (source : σ)
    (fetched : r.stack.next rules.program r.trace.here = (stack, none)) :
    r.advance rules source = (.running { r with stack }, source) := by
  rw [advance_eq, fetched]
  rfl

theorem advance_cases {rules : Rules} {r : Run} {source after : σ} {progress : Progress}
    (fetched : r.advance rules source = (progress, after)) :
    (∃ stack, r.stack.next rules.program r.trace.here = (stack, none) ∧
        progress = .running { r with stack } ∧ after = source) ∨
      ∃ stack slot i drawn,
        r.stack.next rules.program r.trace.here = (stack, some (slot, i)) ∧
        Dispatch rules { r with stack } slot i drawn progress ∧ Draws rules source drawn after := by
  rw [advance_eq] at fetched
  cases read : r.stack.next rules.program r.trace.here with
  | mk stack found =>
    rw [read] at fetched
    cases found with
    | none =>
      cases fetched
      exact .inl ⟨stack, rfl, rfl, rfl⟩
    | some found =>
      obtain ⟨drawn, dispatched, draws⟩ := dispatch_iff.mp fetched
      exact .inr ⟨stack, found.1, found.2, drawn, rfl, dispatched, draws⟩

theorem advance_of_dispatch {rules : Rules} {r : Run} {stack : CallStack} {slot : Slot}
    {i : Instruction} {drawn : Option Color} {source after : σ} {progress : Progress}
    (found : r.stack.next rules.program r.trace.here = (stack, some (slot, i)))
    (dispatched : Dispatch rules { r with stack } slot i drawn progress)
    (draws : Draws rules source drawn after) : r.advance rules source = (progress, after) := by
  rw [advance_eq, found]
  exact dispatch_iff.mpr ⟨drawn, dispatched, draws⟩

theorem finish_running {rules : Rules} {n : Nat} {r next : Run} {source between : σ}
    (left : r.trace.steps < rules.config.maxSteps)
    (fetched : r.advance rules source = (.running next, between)) :
    finish rules (n + 1) r source = finish rules n next between := by
  simp only [finish, Nat.not_le.mpr left, if_false, bind_apply, fetched]

theorem finish_ended {rules : Rules} {n : Nat} {r : Run} {t : Trace} {source after : σ}
    (left : r.trace.steps < rules.config.maxSteps)
    (fetched : r.advance rules source = (.ended t, after)) :
    finish rules (n + 1) r source = (t, after) := by
  simp only [finish, Nat.not_le.mpr left, if_false, bind_apply, fetched]
  rfl

end Run

namespace Fetches

variable {rules : Rules} {k : Nat} {r last : Run} {source between : σ}

theorem finish_eq (fetches : Fetches rules k r source last between) (n : Nat) :
    Run.finish rules (n + k) r source = Run.finish rules n last between := by
  induction fetches with
  | none => rfl
  | next left fetched _ ih => exact (Run.finish_running left fetched).trans ih

theorem concat {next : Run} {after : σ} (fetches : Fetches rules k r source last between)
    (left : last.trace.steps < rules.config.maxSteps)
    (fetched : last.advance rules between = (.running next, after)) :
    Fetches rules (k + 1) r source next after := by
  induction fetches with
  | none => exact .next left fetched (.none _ _)
  | next before first _ ih => exact .next before first (ih left fetched)

theorem maintains {P : Run → Prop} (fetches : Fetches rules k r source last between)
    (step : ∀ {r next : Run} {source after : σ},
      r.advance rules source = (.running next, after) → P r → P next)
    (start : P r) : P last := by
  induction fetches with
  | none => exact start
  | next _ fetched _ ih => exact ih (step fetched start)

end Fetches

inductive Run.Ends (rules : Rules) (n : Nat) (r : Run) (source : σ) : Trace → σ → Prop
  | unstopped {k : Nat} {last : Run} {after : σ} (within : k ≤ n)
      (fetches : Fetches rules k r source last after) : Ends rules n r source last.trace after
  | stopped {k : Nat} {last : Run} {between after : σ} {t : Trace} (within : k < n)
      (fetches : Fetches rules k r source last between)
      (left : last.trace.steps < rules.config.maxSteps)
      (fetched : last.advance rules between = (.ended t, after)) : Ends rules n r source t after

theorem Run.ends_of_finish {rules : Rules} {n : Nat} {r : Run} {source after : σ} {t : Trace}
    (ran : finish rules n r source = (t, after)) : Run.Ends rules n r source t after := by
  induction n generalizing r source with
  | zero =>
    cases ran
    exact .unstopped (Nat.le_refl _) (.none _ _)
  | succ n ih =>
    by_cases past : rules.config.maxSteps ≤ r.trace.steps
    · rw [finish_spent past] at ran
      cases ran
      exact .unstopped (Nat.zero_le _) (.none _ _)
    have left := Nat.not_le.mp past
    cases fetched : (r.advance rules : StateM σ Progress) source with
    | mk progress between =>
      cases progress with
      | running next =>
        rw [finish_running left fetched] at ran
        cases ih ran with
        | unstopped within fetches =>
          exact .unstopped (Nat.succ_le_succ within) (.next left fetched fetches)
        | stopped within fetches left' fetched' =>
          exact .stopped (Nat.succ_lt_succ within) (.next left fetched fetches) left' fetched'
      | ended u =>
        rw [finish_ended left fetched] at ran
        cases ran
        exact .stopped (Nat.succ_pos _) (.none _ _) left fetched

end GridRobot
