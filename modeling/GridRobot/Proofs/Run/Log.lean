import GridRobot.Proofs.Run.Step

/-!
The log of a run: its executed instructions in order, each with the fetches passed over in search of
it. `finish_iff` says that a run and its log belong to the same computation, and `Logged.preserves`
is the induction by which a fact about traces holds throughout.
-/

namespace GridRobot

variable {σ : Type} [RandomSource σ]

/-- An executed instruction. The search for it began on the stack `origin` and passed over `skipped`
fetches; `before` is the run that fetched it and has not recorded it yet. -/
structure Event where
  slot : Slot
  instruction : Instruction
  origin : CallStack
  skipped : Nat
  before : Run
  after : Progress

/-- What at most so many fetches make of a run and of the source, and what they execute. -/
inductive Logged (rules : Rules) :
    Nat → CallStack → Nat → Run → σ → List Event → Trace → σ → Prop
  | exhausted {origin : CallStack} {skipped : Nat} {r : Run} {source : σ} :
      Logged rules 0 origin skipped r source [] r.trace source
  | spent {n : Nat} {origin : CallStack} {skipped : Nat} {r : Run} {source : σ}
      (past : rules.config.maxSteps ≤ r.trace.steps) :
      Logged rules (n + 1) origin skipped r source [] r.trace source
  | passed {n : Nat} {origin stack : CallStack} {skipped : Nat} {r : Run} {source after : σ}
      {log : List Event} {t : Trace}
      (left : r.trace.steps < rules.config.maxSteps)
      (fetched : r.stack.next rules.program r.trace.here = (stack, none))
      (rest : Logged rules n origin (skipped + 1) { r with stack } source log t after) :
      Logged rules (n + 1) origin skipped r source log t after
  | ended {n : Nat} {origin stack : CallStack} {skipped : Nat} {r : Run} {source after : σ}
      {slot : Slot} {i : Instruction} {drawn : Option Color} {t : Trace}
      (left : r.trace.steps < rules.config.maxSteps)
      (fetched : r.stack.next rules.program r.trace.here = (stack, some (slot, i)))
      (dispatched : Dispatch rules { r with stack } slot i drawn (.ended t))
      (draws : Draws rules source drawn after) :
      Logged rules (n + 1) origin skipped r source
        [⟨slot, i, origin, skipped, { r with stack }, .ended t⟩] t after
  | executed {n : Nat} {origin stack : CallStack} {skipped : Nat} {r next : Run}
      {source between after : σ} {slot : Slot} {i : Instruction} {drawn : Option Color}
      {log : List Event} {t : Trace}
      (left : r.trace.steps < rules.config.maxSteps)
      (fetched : r.stack.next rules.program r.trace.here = (stack, some (slot, i)))
      (dispatched : Dispatch rules { r with stack } slot i drawn (.running next))
      (draws : Draws rules source drawn between)
      (rest : Logged rules n next.stack 0 next between log t after) :
      Logged rules (n + 1) origin skipped r source
        (⟨slot, i, origin, skipped, { r with stack }, .running next⟩ :: log) t after

namespace Run

theorem finish_spent {rules : Rules} {n : Nat} {r : Run} {source : σ}
    (past : rules.config.maxSteps ≤ r.trace.steps) :
    finish rules n r source = (r.trace, source) := by
  cases n with
  | zero => rfl
  | succ n =>
    simp only [finish, past, if_true]
    rfl

theorem finish_passed {rules : Rules} {n : Nat} {r : Run} {stack : CallStack} {source : σ}
    (left : r.trace.steps < rules.config.maxSteps)
    (fetched : r.stack.next rules.program r.trace.here = (stack, none)) :
    finish rules (n + 1) r source = finish rules n { r with stack } source := by
  simp only [finish, Nat.not_le.mpr left, if_false, advance_eq, fetched]
  rfl

theorem finish_dispatch {rules : Rules} {n : Nat} {r : Run} {stack : CallStack} {slot : Slot}
    {i : Instruction} {source between : σ} {progress : Progress}
    (left : r.trace.steps < rules.config.maxSteps)
    (fetched : r.stack.next rules.program r.trace.here = (stack, some (slot, i)))
    (dispatched : dispatch rules { r with stack } slot i source = (progress, between)) :
    finish rules (n + 1) r source =
      match progress with
      | .running r => finish rules n r between
      | .ended t => (t, between) := by
  simp only [finish, Nat.not_le.mpr left, if_false, advance_eq, fetched, bind_apply, dispatched]
  cases progress <;> rfl

theorem exists_logged (rules : Rules) (n : Nat) (origin : CallStack) (skipped : Nat) (r : Run)
    (source : σ) : ∃ log t after, Logged rules n origin skipped r source log t after := by
  induction n generalizing origin skipped r source with
  | zero => exact ⟨_, _, _, .exhausted⟩
  | succ n ih =>
    by_cases past : rules.config.maxSteps ≤ r.trace.steps
    · exact ⟨_, _, _, .spent past⟩
    have left := Nat.not_le.mp past
    cases fetched : r.stack.next rules.program r.trace.here with
    | mk stack found =>
      cases found with
      | none =>
        obtain ⟨log, t, after, rest⟩ := ih origin (skipped + 1) { r with stack } source
        exact ⟨log, t, after, .passed left fetched rest⟩
      | some found =>
        obtain ⟨slot, i⟩ := found
        cases run : dispatch rules { r with stack } slot i source with
        | mk progress between =>
          obtain ⟨drawn, dispatched, draws⟩ := dispatch_iff.mp run
          cases progress with
          | ended t => exact ⟨_, t, between, .ended left fetched dispatched draws⟩
          | running next =>
            obtain ⟨log, t, after, rest⟩ := ih next.stack 0 next between
            exact ⟨_, t, after, .executed left fetched dispatched draws rest⟩

end Run

theorem Logged.finish_eq {rules : Rules} {n : Nat} {origin : CallStack} {skipped : Nat} {r : Run}
    {source after : σ} {log : List Event} {t : Trace}
    (logged : Logged rules n origin skipped r source log t after) :
    Run.finish rules n r source = (t, after) := by
  induction logged with
  | exhausted => rfl
  | spent past => exact Run.finish_spent past
  | passed left fetched _ ih => rw [Run.finish_passed left fetched, ih]
  | ended left fetched dispatched draws =>
    rw [Run.finish_dispatch left fetched (Run.dispatch_iff.mpr ⟨_, dispatched, draws⟩)]
  | executed left fetched dispatched draws _ ih =>
    rw [Run.finish_dispatch left fetched (Run.dispatch_iff.mpr ⟨_, dispatched, draws⟩)]
    exact ih

theorem Run.finish_iff {rules : Rules} {n : Nat} {origin : CallStack} {skipped : Nat} {r : Run}
    {source after : σ} {t : Trace} :
    finish rules n r source = (t, after) ↔
      ∃ log, Logged rules n origin skipped r source log t after := by
  constructor
  · intro ran
    obtain ⟨log, u, s, logged⟩ := exists_logged rules n origin skipped r source
    have same := logged.finish_eq
    rw [ran, Prod.mk.injEq] at same
    obtain ⟨rfl, rfl⟩ := same
    exact ⟨log, logged⟩
  · rintro ⟨log, logged⟩
    exact logged.finish_eq

theorem Logged.preserves_found {P : Trace → Prop} {rules : Rules} {n : Nat} {origin : CallStack}
    {skipped : Nat} {r : Run} {source after : σ} {log : List Event} {t : Trace}
    (logged : Logged rules n origin skipped r source log t after)
    (step : ∀ {r : Run} {stack slot i drawn progress}, r.trace.steps < rules.config.maxSteps →
      r.stack.next rules.program r.trace.here = (stack, some (slot, i)) →
        Dispatch rules { r with stack } slot i drawn progress → P r.trace → P progress.trace)
    (start : P r.trace) : P t := by
  induction logged with
  | exhausted => exact start
  | spent => exact start
  | passed _ _ _ ih => exact ih start
  | ended left fetched dispatched => exact step left fetched dispatched start
  | executed left fetched dispatched _ _ ih => exact ih (step left fetched dispatched start)

theorem Logged.preserves {P : Trace → Prop} {rules : Rules} {n : Nat} {origin : CallStack}
    {skipped : Nat} {r : Run} {source after : σ} {log : List Event} {t : Trace}
    (logged : Logged rules n origin skipped r source log t after)
    (step : ∀ {r : Run} {slot i drawn progress}, Dispatch rules r slot i drawn progress →
      P r.trace → P progress.trace)
    (start : P r.trace) : P t :=
  logged.preserves_found (fun _ _ dispatched kept => step dispatched kept) start

theorem Logged.maintains {P : Run → Prop} {rules : Rules} {n : Nat} {origin : CallStack}
    {skipped : Nat} {r : Run} {source after : σ} {log : List Event} {t : Trace}
    (logged : Logged rules n origin skipped r source log t after)
    (fetch : ∀ {r : Run} (stack : CallStack), P r → P { r with stack })
    (step : ∀ {r : Run} {slot i drawn progress}, Dispatch rules r slot i drawn progress →
      P r → progress.Keeps P)
    (start : P r) : ∃ last, P last ∧ last.trace = t := by
  induction logged with
  | exhausted => exact ⟨_, start, rfl⟩
  | spent => exact ⟨_, start, rfl⟩
  | passed _ _ _ ih => exact ih (fetch _ start)
  | ended _ _ dispatched =>
    cases step dispatched (fetch _ start) with
    | ended kept => exact ⟨_, kept, rfl⟩
  | executed _ _ dispatched _ _ ih =>
    cases step dispatched (fetch _ start) with
    | running kept => exact ih kept

/-! ## Runs as their instructions see them -/

/-- On `tile` the search from the first stack passes over so many fetches, and the next one leaves the
second stack and brings the instruction. -/
inductive CallStack.Finds (p : Program) (tile : Option Tile) :
    CallStack → Nat → CallStack → Slot → Instruction → Prop
  | here {s t : CallStack} {slot : Slot} {i : Instruction}
      (fetched : s.next p tile = (t, some (slot, i))) : Finds p tile s 0 t slot i
  | later {s between t : CallStack} {n : Nat} {slot : Slot} {i : Instruction}
      (fetched : s.next p tile = (between, none)) (rest : Finds p tile between n t slot i) :
      Finds p tile s (n + 1) t slot i

theorem CallStack.Finds.of_nil {p : Program} {tile : Option Tile} {t : CallStack} {n : Nat} {slot : Slot}
    {i : Instruction} (finds : CallStack.Finds p tile [] n t slot i) : CallStack.Finds p tile .root n t slot i := by
  cases finds with
  | here fetched => exact .here fetched
  | later fetched rest => exact .later fetched rest

structure Event.Follows (rules : Rules) (r : Run) (e : Event) : Prop where
  left : r.trace.steps < rules.config.maxSteps
  origin : e.origin = r.stack
  found : r.stack.Finds rules.program r.trace.here e.skipped e.before.stack e.slot e.instruction
  before : e.before = { r with stack := e.before.stack }
  dispatched : ∃ drawn, Dispatch rules e.before e.slot e.instruction drawn e.after

inductive Steps (rules : Rules) : Run → List Event → Trace → Prop
  | stop (r : Run) : Steps rules r [] r.trace
  | ended {r : Run} {e : Event} {t : Trace} (follows : e.Follows rules r)
      (last : e.after = .ended t) : Steps rules r [e] t
  | step {r next : Run} {e : Event} {log : List Event} {t : Trace} (follows : e.Follows rules r)
      (running : e.after = .running next) (rest : Steps rules next log t) : Steps rules r (e :: log) t

theorem Logged.steps_from {rules : Rules} {n : Nat} {origin : CallStack} {skipped : Nat} {r : Run}
    {source after : σ} {log : List Event} {t : Trace}
    (logged : Logged rules n origin skipped r source log t after)
    (extend : ∀ {k s slot i}, r.stack.Finds rules.program r.trace.here k s slot i →
      origin.Finds rules.program r.trace.here (skipped + k) s slot i) :
    Steps rules { r with stack := origin } log t := by
  induction logged with
  | exhausted => exact .stop _
  | spent => exact .stop _
  | @passed n origin stack skipped r source after log t left fetched _ ih =>
    apply ih
    intro k s slot i finds
    have longer := extend (.later fetched finds)
    rwa [Nat.add_right_comm, Nat.add_assoc]
  | ended left fetched dispatched =>
    exact .ended ⟨left, rfl, extend (.here fetched), rfl, _, dispatched⟩ rfl
  | executed left fetched dispatched _ _ ih =>
    refine .step ⟨left, rfl, extend (.here fetched), rfl, _, dispatched⟩ rfl (ih ?_)
    intro k s slot i finds
    rwa [Nat.zero_add]

theorem Logged.steps {rules : Rules} {n : Nat} {r : Run} {source after : σ} {log : List Event}
    {t : Trace} (logged : Logged rules n r.stack 0 r source log t after) : Steps rules r log t :=
  logged.steps_from fun finds => by rwa [Nat.zero_add]

end GridRobot
