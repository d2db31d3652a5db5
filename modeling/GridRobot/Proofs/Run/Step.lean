import GridRobot.Run.Execution

namespace GridRobot

theorem pure_apply {σ : Type} (a : α) (s : σ) : (pure a : StateM σ α) s = (a, s) :=
  rfl

theorem bind_apply {σ : Type} (x : StateM σ α) (f : α → StateM σ β) (s : σ) :
    (x >>= f) s = f (x s).1 (x s).2 :=
  rfl

theorem map_apply {σ : Type} (f : α → β) (x : StateM σ α) (s : σ) :
    (f <$> x) s = (f (x s).1, (x s).2) :=
  rfl

theorem exists_ok_of_any {σ ε : Type} {x : StateM σ (Except ε α)} {s : σ} {test : α → Bool}
    (evaluated : (x s).1.toOption.any test = true) :
    ∃ a after, x s = (.ok a, after) ∧ test a = true := by
  cases ran : x s with
  | mk result after =>
    rw [ran] at evaluated
    cases result with
    | error e => cases evaluated
    | ok a => exact ⟨a, after, rfl, evaluated⟩

variable {σ : Type} [RandomSource σ]

namespace CallStack

def next (p : Program) (tile : Option Tile) (s : CallStack) :
    CallStack × Option (Slot × Instruction) :=
  match s.fetch p with
  | (s, none) => (s, none)
  | (s, some slot) =>
    match p.at? slot with
    | none => (s, none)
    | some i => if i.runsOn tile then (s, some (slot, i)) else (s, none)

def rooted (s : CallStack) : CallStack :=
  if s.isEmpty then .root else s

inductive Reads (p : Program) (tile : Option Tile) :
    CallStack → CallStack → Option (Slot × Instruction) → Prop
  | spent {f : Frame} {rest : CallStack} (past : (p.body.get f.routine).length ≤ f.next) :
      Reads p tile (f :: rest) rest none
  | passed {f : Frame} {rest : CallStack} (left : f.next < (p.body.get f.routine).length)
      (idle : ∀ i, p.at? ⟨f.routine, f.next⟩ = some i → i.runsOn tile = false) :
      Reads p tile (f :: rest) ({ f with next := f.next + 1 } :: rest) none
  | found {f : Frame} {rest : CallStack} {i : Instruction}
      (left : f.next < (p.body.get f.routine).length)
      (filled : p.at? ⟨f.routine, f.next⟩ = some i) (runs : i.runsOn tile = true) :
      Reads p tile (f :: rest) ({ f with next := f.next + 1 } :: rest)
        (some (⟨f.routine, f.next⟩, i))

section Reads

variable {p : Program} {tile : Option Tile} {s t : CallStack} {slot : Slot} {i : Instruction}

theorem reads_of_next {found : Option (Slot × Instruction)} (fetched : s.next p tile = (t, found)) :
    Reads p tile s.rooted t found := by
  obtain ⟨f, rest, same⟩ : ∃ f rest, s.rooted = f :: rest := by cases s <;> exact ⟨_, _, rfl⟩
  have reads : s.fetch p = fetch.fetchFrom p f rest := by cases s <;> cases same <;> rfl
  rw [same]
  unfold next at fetched
  rw [reads, fetch.fetchFrom] at fetched
  by_cases left : f.next < (p.body.get f.routine).length
  · rw [if_pos left] at fetched
    dsimp only at fetched
    cases filled : p.at? ⟨f.routine, f.next⟩ with
    | none =>
      rw [filled] at fetched
      cases fetched
      exact .passed left (by simp [filled])
    | some i =>
      rw [filled] at fetched
      cases runs : i.runsOn tile with
      | false =>
        simp only [runs, Bool.false_eq_true, if_false] at fetched
        cases fetched
        exact .passed left (by simp [filled, runs])
      | true =>
        simp only [runs, if_true] at fetched
        cases fetched
        exact .found left filled runs
  · rw [if_neg left] at fetched
    cases fetched
    exact .spent (Nat.not_lt.mp left)

theorem at?_of_next (fetched : s.next p tile = (t, some (slot, i))) : p.at? slot = some i := by
  have reads := reads_of_next fetched
  generalize s.rooted = u at reads
  cases reads with
  | found _ filled => exact filled

theorem runsOn_of_next (fetched : s.next p tile = (t, some (slot, i))) : i.runsOn tile = true := by
  have reads := reads_of_next fetched
  generalize s.rooted = u at reads
  cases reads with
  | found _ _ runs => exact runs

end Reads

end CallStack

namespace Trace

abbrev here (t : Trace) : Option Tile :=
  t.world.tile? t.final.position

abbrev ahead (t : Trace) : Position :=
  t.final.position.step t.final.heading

end Trace

@[simp]
def Progress.trace : Progress → Trace
  | .running r => r.trace
  | .ended t => t

namespace Run

def dispatch (rules : Rules) (r : Run) (slot : Slot) (i : Instruction) : StateM σ Progress :=
  let t := r.trace.record slot i r.departed
  if t.hasSeenEnough rules.config then return .ended { t with terminal := .earlyExit }
  else act rules { r with trace := t } slot i.action

theorem advance_eq (rules : Rules) (r : Run) :
    (r.advance rules : StateM σ Progress) =
      match r.stack.next rules.program r.trace.here with
      | (stack, none) => pure (.running { r with stack })
      | (stack, some (slot, i)) => dispatch rules { r with stack } slot i := by
  unfold advance CallStack.next
  cases fetched : r.stack.fetch rules.program with
  | mk stack slot? =>
    cases slot? with
    | none => rfl
    | some slot =>
      cases filled : rules.program.at? slot with
      | none => simp [filled]
      | some i =>
        cases runs : i.runsOn r.trace.here with
        | false => simp [filled, runs]
        | true => simp [filled, runs, dispatch]

abbrev paving (rules : Rules) (r : Run) (slot : Slot) (c : Color) : Run :=
  { r.departing rules slot with
    trace := (r.departing rules slot).trace.place r.trace.ahead c }

end Run

/-- What an action can do to a run whose trace has recorded it, and the colour drawn for it. -/
inductive Effect (rules : Rules) (r : Run) (slot : Slot) : Action → Option Color → Progress → Prop
  | boundary (outside : ¬ r.trace.world.Contains r.trace.ahead) :
      Effect rules r slot .forward none (.ended
        { (r.departing rules slot).trace with terminal := .boundary, boundarySlot := some slot })
  | move (tile : Tile) (onto : r.trace.world.tile? r.trace.ahead = some tile) :
      Effect rules r slot .forward none ((r.departing rules slot).arrive rules r.trace.ahead)
  | pave (c : Color) (inside : r.trace.world.Contains r.trace.ahead)
      (void : r.trace.world.tile? r.trace.ahead = none) :
      Effect rules r slot .forward (some c) ((r.paving rules slot c).arrive rules r.trace.ahead)
  | turn (t : Turn) : Effect rules r slot (.turn t) none (r.turn rules t)
  | call (callee : Routine) : Effect rules r slot (.call callee) none (.running (r.call slot callee))
  | paint (c : Color) : Effect rules r slot (.paint c) none (.running (r.paint rules slot c))
  | noop : Effect rules r slot .noop none (.running r)
  | other (name : String) : Effect rules r slot (.other name) none (.running r)

inductive Dispatch (rules : Rules) (r : Run) (slot : Slot) (i : Instruction) :
    Option Color → Progress → Prop
  | earlyExit (enough : (r.trace.record slot i r.departed).hasSeenEnough rules.config = true) :
      Dispatch rules r slot i none
        (.ended { r.trace.record slot i r.departed with terminal := .earlyExit })
  | act {drawn : Option Color} {progress : Progress}
      (more : (r.trace.record slot i r.departed).hasSeenEnough rules.config = false)
      (effect : Effect rules { r with trace := r.trace.record slot i r.departed } slot i.action
        drawn progress) :
      Dispatch rules r slot i drawn progress

def Draws (rules : Rules) (source : σ) : Option Color → σ → Prop
  | none, after => after = source
  | some c, after => Color.drawWeighted rules.config.colorRatios source = (c, after)

namespace Run

@[simp]
theorem world_departing (rules : Rules) (r : Run) (slot : Slot) :
    (r.departing rules slot).trace.world = r.trace.world :=
  rfl

@[simp]
theorem final_departing (rules : Rules) (r : Run) (slot : Slot) :
    (r.departing rules slot).trace.final = r.trace.final :=
  rfl

theorem act_of_effect {rules : Rules} {r : Run} {slot : Slot} {action : Action}
    {drawn : Option Color} {progress : Progress} {source after : σ}
    (effect : Effect rules r slot action drawn progress) (draws : Draws rules source drawn after) :
    act rules r slot action source = (progress, after) := by
  cases effect with
  | boundary outside =>
    cases draws
    simp [act, forward, outside]
    rfl
  | move tile onto =>
    cases draws
    have inside := Grid.contains_of_tile? onto
    simp [act, forward, inside, onto]
    rfl
  | pave c inside void =>
    simp only [Draws] at draws
    simp only [act, forward, world_departing, final_departing, inside, void, not_true_eq_false,
      if_false, Option.isSome_none, Bool.false_eq_true]
    rw [bind_apply, draws]
    rfl
  | turn | call | paint | noop | other =>
    cases draws
    rfl

theorem exists_effect (rules : Rules) (r : Run) (slot : Slot) (action : Action) (source : σ) :
    ∃ drawn progress after,
      Effect rules r slot action drawn progress ∧ Draws rules source drawn after := by
  cases action with
  | forward =>
    by_cases inside : r.trace.world.Contains r.trace.ahead
    · cases onto : r.trace.world.tile? r.trace.ahead with
      | some tile => exact ⟨none, _, source, .move tile onto, rfl⟩
      | none => exact ⟨some _, _, _, .pave _ inside onto, rfl⟩
    · exact ⟨none, _, source, .boundary inside, rfl⟩
  | turn t => exact ⟨none, _, source, .turn t, rfl⟩
  | call callee => exact ⟨none, _, source, .call callee, rfl⟩
  | paint c => exact ⟨none, _, source, .paint c, rfl⟩
  | noop => exact ⟨none, _, source, .noop, rfl⟩
  | other name => exact ⟨none, _, source, .other name, rfl⟩

theorem dispatch_iff {rules : Rules} {r : Run} {slot : Slot} {i : Instruction} {source after : σ}
    {progress : Progress} :
    r.dispatch rules slot i source = (progress, after) ↔
      ∃ drawn, Dispatch rules r slot i drawn progress ∧ Draws rules source drawn after := by
  have ran {drawn : Option Color} {p : Progress} {s : σ} (dispatched : Dispatch rules r slot i drawn p)
      (draws : Draws rules source drawn s) : r.dispatch rules slot i source = (p, s) := by
    cases dispatched with
    | earlyExit enough =>
      cases draws
      simp only [dispatch, enough, if_true]
      rfl
    | act more effect =>
      simp only [dispatch, more, Bool.false_eq_true, if_false]
      exact act_of_effect effect draws
  constructor
  · intro run
    cases enough : (r.trace.record slot i r.departed).hasSeenEnough rules.config with
    | true =>
      have early := ran (.earlyExit enough) (s := source) rfl
      rw [run, Prod.mk.injEq] at early
      obtain ⟨rfl, rfl⟩ := early
      exact ⟨none, .earlyExit enough, rfl⟩
    | false =>
      obtain ⟨drawn, p, s, effect, draws⟩ := exists_effect rules
        { r with trace := r.trace.record slot i r.departed } slot i.action source
      have acted := ran (.act enough effect) draws
      rw [run, Prod.mk.injEq] at acted
      obtain ⟨rfl, rfl⟩ := acted
      exact ⟨drawn, .act enough effect, draws⟩
  · rintro ⟨drawn, dispatched, draws⟩
    exact ran dispatched draws

end Run

theorem Run.paint_frame (rules : Rules) (r : Run) (slot : Slot) (c : Color) :
    ∃ world visited painted,
      r.paint rules slot c = { r with trace := { r.trace with world, visited, painted } } ∧
        ∀ q, world.Contains q ↔ r.trace.world.Contains q := by
  unfold paint Trace.paint
  dsimp only
  split
  · exact ⟨_, _, _, rfl, fun _ => Iff.rfl⟩
  split
  · split
    · exact ⟨_, _, _, rfl, fun _ => Iff.rfl⟩
    · exact ⟨_, _, _, rfl, fun _ => Iff.rfl⟩
  · exact ⟨_, _, _, rfl, fun _ => Iff.rfl⟩

/-! ## The end of a run -/

theorem Trace.isBack_iff {t : Trace} {c : Config} :
    t.isBack c = true ↔ c.ignoreLoops = false ∧ 1 < t.steps ∧ t.final = t.start := by
  simp [isBack, and_assoc]

theorem Run.unlessBack_eq_running {r next : Run} {c : Config} {t : Trace}
    (went : r.unlessBack c t = .running next) :
    t.isBack c = false ∧ next = { r with trace := t } := by
  unfold unlessBack at went
  split at went
  · cases went
  · rename_i away
    cases went
    exact ⟨Bool.eq_false_iff.mpr away, rfl⟩

theorem Run.unlessBack_eq_ended {r : Run} {c : Config} {t u : Trace}
    (went : r.unlessBack c t = .ended u) : t.isBack c = true ∧ u = { t with terminal := .loop } := by
  unfold unlessBack at went
  split at went
  · rename_i back
    cases went
    exact ⟨back, rfl⟩
  · cases went

theorem Run.unlessBack_cases (r : Run) (c : Config) (t : Trace) :
    r.unlessBack c t = .running { r with trace := t } ∨
      t.isBack c = true ∧ r.unlessBack c t = .ended { t with terminal := .loop } := by
  unfold unlessBack
  split
  · rename_i back
    exact .inr ⟨back, rfl⟩
  · exact .inl rfl

theorem Run.ended_unlessBack {r : Run} {c : Config} {t u : Trace}
    (ended : r.unlessBack c t = .ended u) : u.terminal = .loop ∧ c.ignoreLoops = false := by
  obtain ⟨back, rfl⟩ := unlessBack_eq_ended ended
  exact ⟨rfl, (Trace.isBack_iff.mp back).1⟩

theorem Effect.ended {rules : Rules} {r : Run} {slot : Slot} {action : Action} {drawn : Option Color}
    {progress : Progress} {t : Trace} (effect : Effect rules r slot action drawn progress)
    (ended : progress = .ended t) :
    t.terminal = .boundary ∨ t.terminal = .loop ∧ rules.config.ignoreLoops = false := by
  cases effect with
  | boundary =>
    cases ended
    exact .inl rfl
  | move | pave | turn => exact .inr (Run.ended_unlessBack ended)
  | call | paint | noop | other => cases ended

theorem Dispatch.ended {rules : Rules} {r : Run} {slot : Slot} {i : Instruction}
    {drawn : Option Color} {t : Trace} (dispatched : Dispatch rules r slot i drawn (.ended t)) :
    t.terminal = .earlyExit ∨ t.terminal = .boundary ∨
      t.terminal = .loop ∧ rules.config.ignoreLoops = false := by
  generalize last : Progress.ended t = progress at dispatched
  cases dispatched with
  | earlyExit =>
    cases last
    exact .inl rfl
  | act _ effect => exact .inr (effect.ended last.symm)

/-- A run that goes on has the property, and a trace that is left belongs to a run that has it. -/
inductive Progress.Keeps (P : Run → Prop) : Progress → Prop
  | running {r : Run} (kept : P r) : Keeps P (.running r)
  | ended {r : Run} (kept : P r) : Keeps P (.ended r.trace)

theorem Progress.Keeps.ended_of {P : Run → Prop} {r : Run} {t : Trace} (kept : P { r with trace := t }) :
    (Progress.ended t).Keeps P :=
  .ended (r := { r with trace := t }) kept

theorem Run.keeps_unlessBack {P : Run → Prop} {r : Run} {c : Config} {t : Trace}
    (kept : ∀ terminal, P { r with trace := { t with terminal } }) : (r.unlessBack c t).Keeps P := by
  unfold unlessBack
  split
  · exact .ended_of (r := r) (kept .loop)
  · exact .running (kept t.terminal)

end GridRobot
