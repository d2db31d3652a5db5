import GridRobot.Proofs.Decimal.Order
import GridRobot.Proofs.Run.Necessity
import GridRobot.Proofs.Run.Record

/-!
What the terminal of a run says. An executed instruction stops the run in one of three ways,
`Event.Stops`, or the run goes on, and then none of the three has come about (`Event.GoesOn`). In a
whole run all instructions but the last go on, and a run that the last one does not stop either has
spent its steps or its fetches.
-/

namespace GridRobot

variable {σ : Type} [RandomSource σ]

theorem Position.step_ne (p : Position) (h : Heading) : p.step h ≠ p := by
  obtain ⟨x, y⟩ := p
  cases h <;> simp only [step, ne_eq, Position.mk.injEq] <;> omega

theorem Heading.turned_ne (h : Heading) (t : Turn) : h.turned t ≠ h := by
  cases h <;> cases t <;> decide

def Action.isMove : Action → Bool
  | .forward | .turn _ => true
  | _ => false

namespace Event

def recorded (e : Event) : Trace :=
  e.before.trace.record e.slot e.instruction e.before.departed

/-- With this instruction coverage and average executions have both reached their thresholds. It is
executed then but not dispatched. -/
def Enough (e : Event) (c : Config) : Prop :=
  c.minCoverage ≤ e.recorded.coverage c.totalSlots ∧
    c.maxAverageExecutions ≤ e.recorded.averageExecutions

instance (e : Event) (c : Config) : Decidable (e.Enough c) :=
  inferInstanceAs (Decidable (_ ∧ _))

def Leaves (e : Event) : Prop :=
  e.instruction.action = .forward ∧ ¬ e.before.trace.world.Contains e.before.trace.ahead

/-- A forward or a turn that brings the robot to this pose from another; a forward at the edge of the
world brings it nowhere. -/
def Reaches (e : Event) (pose : Pose) : Prop :=
  e.instruction.action.isMove = true ∧ e.before.trace.final ≠ pose ∧ e.after.trace.final = pose

inductive Stops (c : Config) (e : Event) (t : Trace) : Prop
  | earlyExit (enough : e.Enough c) (left : t = { e.recorded with terminal := .earlyExit })
  | boundary (dispatched : ¬ e.Enough c) (leaves : e.Leaves) (terminal : t.terminal = .boundary)
      (final : t.final = e.before.trace.final) (slot : t.boundarySlot = some e.slot)
      (recent : t.recentForwards.getLast? = some e.slot)
  | loop (dispatched : ¬ e.Enough c) (inside : ¬ e.Leaves) (minds : c.ignoreLoops = false)
      (terminal : t.terminal = .loop) (back : e.Reaches t.start)

structure GoesOn (c : Config) (start : Pose) (e : Event) : Prop where
  dispatched : ¬ e.Enough c
  inside : ¬ e.Leaves
  apart : c.ignoreLoops = false → ¬ e.Reaches start

section Recorded

variable (e : Event)

theorem hasSeenEnough_iff (c : Config) : e.recorded.hasSeenEnough c = true ↔ e.Enough c := by
  simp [Trace.hasSeenEnough, Enough]

theorem dispatched_of_more {c : Config} (more : e.recorded.hasSeenEnough c = false) :
    ¬ e.Enough c := by
  rw [← hasSeenEnough_iff, more]
  exact Bool.false_ne_true

theorem final_recorded : e.recorded.final = e.before.trace.final :=
  Trace.final_record _ _ _ _

theorem leaves_iff :
    e.Leaves ↔ e.instruction.action = .forward ∧
      ¬ e.recorded.world.Contains e.recorded.ahead := by
  rw [Trace.ahead, final_recorded, recorded, Trace.world_record]
  rfl

end Recorded

end Event

/-! ## One instruction -/

theorem Pose.ahead_ne (pose : Pose) :
    { pose with position := pose.position.step pose.heading } ≠ pose := by
  intro same
  exact pose.position.step_ne pose.heading (congrArg Pose.position same)

theorem Pose.turned_ne (pose : Pose) (t : Turn) :
    { pose with heading := pose.heading.turned t } ≠ pose := by
  intro same
  exact pose.heading.turned_ne t (congrArg Pose.heading same)

theorem Effect.stops {rules : Rules} {r : Run} {slot : Slot} {action : Action}
    {drawn : Option Color} {t : Trace} (effect : Effect rules r slot action drawn (.ended t)) :
    (action = .forward ∧ ¬ r.trace.world.Contains r.trace.ahead) ∧
        t = { (r.departing rules slot).trace with
          terminal := .boundary, boundarySlot := some slot } ∨
      action.isMove = true ∧ (action = .forward → r.trace.world.Contains r.trace.ahead) ∧
        ∃ u : Trace, t = { u with terminal := .loop } ∧ u.isBack rules.config = true ∧
          u.start = r.trace.start ∧ u.final ≠ r.trace.final := by
  generalize last : Progress.ended t = progress at effect
  cases effect with
  | boundary outside =>
    cases last
    exact .inl ⟨⟨rfl, outside⟩, rfl⟩
  | move tile onto =>
    obtain ⟨back, rfl⟩ := Run.unlessBack_eq_ended last.symm
    exact .inr ⟨rfl, fun _ => Grid.contains_of_tile? onto, _, rfl, back, rfl, Pose.ahead_ne _⟩
  | pave c inside =>
    obtain ⟨back, rfl⟩ := Run.unlessBack_eq_ended last.symm
    exact .inr ⟨rfl, fun _ => inside, _, rfl, back, rfl, Pose.ahead_ne _⟩
  | turn d =>
    obtain ⟨back, rfl⟩ := Run.unlessBack_eq_ended last.symm
    exact .inr ⟨rfl, nofun, _, rfl, back, rfl, Pose.turned_ne _ _⟩
  | call | paint | noop | other => cases last

theorem Effect.goes {rules : Rules} {r next : Run} {slot : Slot} {action : Action}
    {drawn : Option Color} (effect : Effect rules r slot action drawn (.running next)) :
    (action = .forward → r.trace.world.Contains r.trace.ahead) ∧
      (action.isMove = true → next.trace.isBack rules.config = false) ∧
      next.trace.start = r.trace.start ∧ next.trace.terminal = r.trace.terminal ∧
      next.trace.steps = r.trace.steps := by
  generalize went : Progress.running next = progress at effect
  cases effect with
  | boundary => cases went
  | move tile onto =>
    obtain ⟨away, rfl⟩ := Run.unlessBack_eq_running went.symm
    exact ⟨fun _ => Grid.contains_of_tile? onto, fun _ => away, rfl, rfl, rfl⟩
  | pave c inside =>
    obtain ⟨away, rfl⟩ := Run.unlessBack_eq_running went.symm
    exact ⟨fun _ => inside, fun _ => away, rfl, rfl, rfl⟩
  | turn d =>
    obtain ⟨away, rfl⟩ := Run.unlessBack_eq_running went.symm
    exact ⟨nofun, fun _ => away, rfl, rfl, rfl⟩
  | call | noop | other =>
    cases went
    exact ⟨nofun, nofun, rfl, rfl, rfl⟩
  | paint c =>
    cases went
    obtain ⟨world, visited, painted, same, -⟩ := Run.paint_frame rules r slot c
    rw [same]
    exact ⟨nofun, nofun, rfl, rfl, rfl⟩

/-- A run that nothing has stopped; before its first step it is in its start pose. -/
structure Run.Underway (r : Run) (start : Pose) : Prop where
  began : r.trace.start = start
  terminal : r.trace.terminal = .completed
  fresh : r.trace.steps = 0 → r.trace.final = start

theorem getLast?_lastOf {window : Nat} (some : 1 ≤ window) (slots : List Slot) (slot : Slot) :
    (lastOf window (slots ++ [slot])).getLast? = Option.some slot := by
  rw [lastOf, List.getLast?_drop, if_neg, List.getLast?_concat]
  rw [List.length_append, List.length_singleton]
  omega

namespace Event

variable {rules : Rules} {e : Event} {drawn : Option Color}

theorem stops_of_dispatch {t : Trace}
    (dispatched : Dispatch rules e.before e.slot e.instruction drawn e.after)
    (last : e.after = .ended t) (window : 1 ≤ rules.window) : e.Stops rules.config t := by
  generalize stopped : e.after = progress at dispatched
  cases dispatched with
  | earlyExit enough =>
    rw [last] at stopped
    cases stopped
    exact .earlyExit ((e.hasSeenEnough_iff _).mp enough) rfl
  | act more effect =>
    have dispatched := e.dispatched_of_more more
    rw [last] at stopped
    subst stopped
    rcases effect.stops with ⟨out, rfl⟩ | ⟨moves, inside, u, rfl, back, start, elsewhere⟩
    · exact .boundary dispatched (e.leaves_iff.mpr out) rfl e.final_recorded rfl
        (getLast?_lastOf window _ _)
    · obtain ⟨minds, -, home⟩ := Trace.isBack_iff.mp back
      have apart : e.before.trace.final ≠ u.start := by
        rw [← home, ← e.final_recorded]
        exact elsewhere.symm
      have stays : ¬ e.Leaves := fun out => (e.leaves_iff.mp out).2 (inside out.1)
      refine .loop dispatched stays minds rfl ⟨moves, apart, ?_⟩
      rw [last]
      exact home

theorem goesOn_of_dispatch {next : Run} {start : Pose}
    (dispatched : Dispatch rules e.before e.slot e.instruction drawn e.after)
    (went : e.after = .running next) (underway : e.before.Underway start) :
    e.GoesOn rules.config start ∧ next.Underway start := by
  have steps : e.recorded.steps = e.before.trace.steps + 1 := Trace.steps_record _ _ _ _
  have began : e.recorded.start = start := (Trace.start_record _ _ _ _).trans underway.began
  have terminal : e.recorded.terminal = .completed :=
    (Trace.terminal_record _ _ _ _).trans underway.terminal
  generalize after : e.after = progress at dispatched
  cases dispatched with
  | earlyExit =>
    rw [went] at after
    cases after
  | act more effect =>
    rw [went] at after
    subst after
    obtain ⟨inside, away, start', terminal', steps'⟩ := effect.goes
    have counted : next.trace.steps = e.before.trace.steps + 1 := steps'.trans steps
    refine ⟨⟨?_, ?_, ?_⟩, start'.trans began, terminal'.trans terminal, ?_⟩
    · exact e.dispatched_of_more more
    · exact fun out => (e.leaves_iff.mp out).2 (inside out.1)
    · rintro minds ⟨moves, elsewhere, home⟩
      have away := away moves
      rw [← Bool.not_eq_true, Trace.isBack_iff] at away
      rw [went] at home
      -- a robot that has executed nothing yet is at its start
      have later : e.before.trace.steps ≠ 0 := fun none => elsewhere (underway.fresh none)
      exact away ⟨minds, by omega, home.trans (start'.trans began).symm⟩
    · omega

end Event

/-! ## Whole runs -/

theorem Logged.stops {rules : Rules} {n : Nat} {origin : CallStack} {skipped : Nat} {r : Run}
    {source after : σ} {log : List Event} {t : Trace} {start : Pose}
    (logged : Logged rules n origin skipped r source log t after) (window : 1 ≤ rules.window)
    (underway : r.Underway start) :
    (t.terminal = .completed ∧ ∀ e ∈ log, e.GoesOn rules.config start) ∨
      ∃ before last, log = before ++ [last] ∧ (∀ e ∈ before, e.GoesOn rules.config start) ∧
        last.after = .ended t ∧ last.Stops rules.config t := by
  -- along the log; `Underway` is kept by every instruction but the one that stops the run
  induction logged with
  | exhausted => exact .inl ⟨underway.terminal, List.forall_mem_nil _⟩
  | spent => exact .inl ⟨underway.terminal, List.forall_mem_nil _⟩
  | passed _ _ _ ih => exact ih ⟨underway.began, underway.terminal, underway.fresh⟩
  | @ended n origin stack skipped r source after slot i drawn t left fetched dispatched =>
    have stops := Event.stops_of_dispatch
      (e := ⟨slot, i, origin, skipped, { r with stack }, .ended t⟩) dispatched rfl window
    exact .inr ⟨[], _, rfl, List.forall_mem_nil _, rfl, stops⟩
  | @executed n origin stack skipped r next source between after slot i drawn log t left fetched
      dispatched _ _ ih =>
    obtain ⟨goes, underway⟩ := Event.goesOn_of_dispatch
      (e := ⟨slot, i, origin, skipped, { r with stack }, .running next⟩) dispatched rfl
      ⟨underway.began, underway.terminal, underway.fresh⟩
    rcases ih underway with ⟨completed, all⟩ | ⟨before, last, rfl, all, ended, stops⟩
    · exact .inl ⟨completed, List.forall_mem_cons.mpr ⟨goes, all⟩⟩
    · exact .inr ⟨_ :: before, last, rfl, List.forall_mem_cons.mpr ⟨goes, all⟩, ended, stops⟩

/-- So many fetches, made one after the other with steps left, none of which stops the run. -/
inductive Fetches (rules : Rules) : Nat → Run → σ → Run → σ → Prop
  | none (r : Run) (source : σ) : Fetches rules 0 r source r source
  | next {n : Nat} {r between last : Run} {source middle after : σ}
      (left : r.trace.steps < rules.config.maxSteps)
      (fetched : r.advance rules source = (.running between, middle))
      (rest : Fetches rules n between middle last after) :
      Fetches rules (n + 1) r source last after

theorem Run.stopped_of_advance {rules : Rules} {r : Run} {source after : σ} {t : Trace}
    (fetched : r.advance rules source = (.ended t, after)) : t.terminal ≠ .completed := by
  rw [advance_eq] at fetched
  split at fetched
  · cases fetched
  · obtain ⟨drawn, dispatched, -⟩ := dispatch_iff.mp fetched
    rcases dispatched.ended with early | boundary | ⟨loop, -⟩
    · simp [early]
    · simp [boundary]
    · simp [loop]

theorem Run.fetches_of_finish {rules : Rules} {n : Nat} {r : Run} {source after : σ} {t : Trace}
    (ran : finish rules n r source = (t, after)) (completed : t.terminal = .completed) :
    rules.config.maxSteps ≤ t.steps ∨ ∃ last, Fetches rules n r source last after ∧ last.trace = t := by
  induction n generalizing r source with
  | zero =>
    cases ran
    exact .inr ⟨r, .none _ _, rfl⟩
  | succ n ih =>
    by_cases past : rules.config.maxSteps ≤ r.trace.steps
    · rw [finish_spent past] at ran
      cases ran
      exact .inl past
    have left := Nat.not_le.mp past
    simp only [finish, past, if_false, bind_apply] at ran
    cases fetched : (r.advance rules : StateM σ Progress) source with
    | mk progress middle =>
      rw [fetched] at ran
      cases progress with
      | running between =>
        rcases ih ran with spent | ⟨last, rest, same⟩
        · exact .inl spent
        · exact .inr ⟨last, .next left fetched rest, same⟩
      | ended u =>
        cases ran
        exact absurd completed (stopped_of_advance fetched)

/-! ## Verdicts -/

namespace Trace

def cutShort : List Failure := [.boundary, .loop, .coverage]

theorem assess_of_earlyExit {t : Trace} {c : Config} (terminal : t.terminal = .earlyExit)
    (covered : c.minCoverage ≤ t.coverage c.totalSlots) {f : Failure}
    (failed : (t.assess c).failure? = some f) : f ∉ cutShort := by
  have unstopped {other : Terminal} (differs : Terminal.earlyExit ≠ other) (f : Failure) (v : Verdict)
      (failed : t.endsIn other f = some v) {g : Failure} (_ : v.failure? = some g) :
      g ∉ cutShort := by
    rw [endsIn, terminal, if_neg differs] at failed
    cases failed
  have enough (v : Verdict)
      (failed : below .coverage (t.coverage c.totalSlots) c.minCoverage = some v) {g : Failure}
      (_ : v.failure? = some g) : g ∉ cutShort := by
    rw [below, if_neg (Decimal.not_lt_of_le covered)] at failed
    cases failed
  have later {test : Prop} [Decidable test] {u : Verdict}
      (shown : ∀ g, u.failure? = some g → g ∉ cutShort) (v : Verdict)
      (failed : (if test then some u else none) = some v) {g : Failure}
      (known : v.failure? = some g) : g ∉ cutShort := by
    split at failed
    · cases failed
      exact shown g known
    · cases failed
  have counts {test : Prop} [Decidable test] {f : Failure} (other : f ∉ cutShort)
      {measured required : Nat} :=
    @later test _ (.ofCounts f measured required) fun g known =>
      Verdict.failure?_ofCounts known ▸ other
  have each : ∀ check ∈ t.checks c, ∀ v, check = some v → ∀ {g}, v.failure? = some g →
      g ∉ cutShort := by
    simp only [checks, List.forall_mem_cons]
    refine ⟨unstopped (by decide) _, unstopped (by decide) _, enough, counts (by decide),
      counts (by decide), counts (by decide), counts (by decide), counts (by decide),
      counts (by decide), counts (by decide), later ?_, counts (by decide), counts (by decide),
      List.forall_mem_nil _⟩
    rintro g ⟨⟩
    decide
  rw [assess] at failed
  cases found : (t.checks c).findSome? id with
  | none =>
    rw [found] at failed
    cases failed
  | some v =>
    rw [found] at failed
    obtain ⟨check, mem, same⟩ := List.exists_of_findSome?_eq_some found
    exact each check mem v same failed

theorem evaluate_of_earlyExit {t : Trace} {c : Config} (terminal : t.terminal = .earlyExit)
    (covered : c.minCoverage ≤ t.coverage c.totalSlots) (p : Program) (window : Nat) (source : σ)
    {f : Failure} (failed : (t.evaluate p c window source).1.failure? = some f) : f ∉ cutShort := by
  by_cases paints : f = .unnecessaryPaint
  · rw [paints]
    decide
  · exact assess_of_earlyExit terminal covered ((failure?_evaluate paints p window source).mp failed)

end Trace

/-! ## The terminal -/

/-- What the terminal of a run says of the instructions that it executed. -/
structure Trace.Concludes (t : Trace) (c : Config) (log : List Event) : Prop where
  boundary : t.terminal = .boundary ↔ ∃ e ∈ log, ¬ e.Enough c ∧ e.Leaves
  left : ∀ e ∈ log, ¬ e.Enough c → e.Leaves →
    (∃ before, log = before ++ [e]) ∧ t.final = e.before.trace.final ∧
      t.boundarySlot = some e.slot ∧ t.recentForwards.getLast? = some e.slot
  loop : t.terminal = .loop ↔ c.ignoreLoops = false ∧
    ∃ e, (log.filter fun e => ¬ e.Enough c).getLast? = some e ∧ e.Reaches t.start
  apart : c.ignoreLoops = false → t.terminal ≠ .loop → ∀ e ∈ log, ¬ e.Reaches t.start
  earlyExit : t.terminal = .earlyExit ↔ ∃ e, log.getLast? = some e ∧ e.Enough c
  once : ∀ e ∈ log.dropLast, ¬ e.Enough c
  reached : t.terminal = .earlyExit →
    c.minCoverage ≤ t.coverage c.totalSlots ∧ c.maxAverageExecutions ≤ t.averageExecutions

theorem Trace.concludes_of_goesOn {t : Trace} {c : Config} {log : List Event}
    (completed : t.terminal = .completed) (all : ∀ e ∈ log, e.GoesOn c t.start) :
    t.Concludes c log where
  boundary := by
    rw [completed]
    exact ⟨nofun, fun ⟨e, mem, _, leaves⟩ => absurd leaves (all e mem).inside⟩
  left e mem _ leaves := absurd leaves (all e mem).inside
  loop := by
    rw [completed]
    refine ⟨nofun, fun ⟨minds, e, last, back⟩ => ?_⟩
    have mem := (List.mem_filter.mp (List.mem_of_getLast? last)).1
    exact absurd back ((all e mem).apart minds)
  apart minds _ e mem := (all e mem).apart minds
  earlyExit := by
    rw [completed]
    exact ⟨nofun, fun ⟨e, last, enough⟩ =>
      absurd enough (all e (List.mem_of_getLast? last)).dispatched⟩
  once e mem := (all e (List.dropLast_subset _ mem)).dispatched
  reached terminal := by
    rw [completed] at terminal
    cases terminal

theorem Event.not_reaches {e : Event} {t : Trace} (ended : e.after = .ended t)
    (final : t.final = e.before.trace.final) (pose : Pose) : ¬ e.Reaches pose := by
  rintro ⟨-, elsewhere, home⟩
  rw [ended] at home
  exact elsewhere (final.symm.trans home)

namespace Event.Stops

variable {t : Trace} {c : Config} {e : Event}

theorem final (stops : e.Stops c t) (other : t.terminal ≠ .loop) :
    t.final = e.before.trace.final := by
  cases stops with
  | earlyExit _ left =>
    rw [left]
    exact Trace.final_record _ _ _ _
  | boundary _ _ _ final => exact final
  | loop _ _ _ terminal => exact absurd terminal other

theorem boundary_iff (stops : e.Stops c t) : t.terminal = .boundary ↔ ¬ e.Enough c ∧ e.Leaves := by
  cases stops with
  | earlyExit enough left =>
    rw [left]
    exact ⟨nofun, fun known => absurd enough known.1⟩
  | boundary dispatched leaves terminal => exact ⟨fun _ => ⟨dispatched, leaves⟩, fun _ => terminal⟩
  | loop _ inside _ terminal =>
    rw [terminal]
    exact ⟨nofun, fun known => absurd known.2 inside⟩

theorem loop_iff (stops : e.Stops c t) (ended : e.after = .ended t) :
    t.terminal = .loop ↔ c.ignoreLoops = false ∧ ¬ e.Enough c ∧ e.Reaches t.start := by
  constructor
  · intro terminal
    cases stops with
    | earlyExit _ left =>
      rw [left] at terminal
      cases terminal
    | boundary _ _ other =>
      rw [other] at terminal
      cases terminal
    | loop dispatched _ minds _ back => exact ⟨minds, dispatched, back⟩
  · rintro ⟨-, -, back⟩
    refine Decidable.byContradiction fun other => ?_
    exact Event.not_reaches ended (stops.final other) _ back

theorem earlyExit_iff (stops : e.Stops c t) : t.terminal = .earlyExit ↔ e.Enough c := by
  cases stops with
  | earlyExit enough left =>
    rw [left]
    exact ⟨fun _ => enough, fun _ => rfl⟩
  | boundary dispatched _ terminal | loop dispatched _ _ terminal =>
    rw [terminal]
    exact ⟨nofun, fun enough => absurd enough dispatched⟩

theorem concludes {before : List Event} (stops : e.Stops c t) (ended : e.after = .ended t)
    (all : ∀ e ∈ before, e.GoesOn c t.start) : t.Concludes c (before ++ [e]) := by
  have known {d : Event} (mem : d ∈ before ++ [e]) : d.GoesOn c t.start ∨ d = e := by
    rcases List.mem_append.mp mem with mem | mem
    · exact .inl (all d mem)
    · exact .inr (List.mem_singleton.mp mem)
  have here : e ∈ before ++ [e] := List.mem_append_right _ List.mem_cons_self
  constructor
  case boundary =>
    constructor
    · exact fun terminal => ⟨e, here, stops.boundary_iff.mp terminal⟩
    · rintro ⟨d, mem, dispatched, leaves⟩
      rcases known mem with goes | rfl
      · exact absurd leaves goes.inside
      · exact stops.boundary_iff.mpr ⟨dispatched, leaves⟩
  case left =>
    intro d mem dispatched leaves
    rcases known mem with goes | rfl
    · exact absurd leaves goes.inside
    · cases stops with
      | earlyExit enough => exact absurd enough dispatched
      | boundary _ _ _ final slot recent => exact ⟨⟨before, rfl⟩, final, slot, recent⟩
      | loop _ inside => exact absurd leaves inside
  case loop =>
    constructor
    · intro terminal
      obtain ⟨minds, dispatched, back⟩ := (stops.loop_iff ended).mp terminal
      refine ⟨minds, e, ?_, back⟩
      have kept : [e].filter (fun e => decide ¬ e.Enough c) = [e] := by simp [dispatched]
      rw [List.filter_append, kept, List.getLast?_concat]
    · rintro ⟨minds, d, last, back⟩
      obtain ⟨mem, dispatched⟩ := List.mem_filter.mp (List.mem_of_getLast? last)
      rcases known mem with goes | rfl
      · exact absurd back (goes.apart minds)
      · exact (stops.loop_iff ended).mpr ⟨minds, of_decide_eq_true dispatched, back⟩
  case apart =>
    intro minds other d mem
    rcases known mem with goes | rfl
    · exact goes.apart minds
    · exact Event.not_reaches ended (stops.final other) _
  case earlyExit =>
    rw [stops.earlyExit_iff, List.getLast?_concat]
    exact ⟨fun enough => ⟨e, rfl, enough⟩, fun ⟨d, same, enough⟩ => Option.some.inj same ▸ enough⟩
  case once =>
    rw [List.dropLast_concat]
    exact fun d mem => (all d mem).dispatched
  case reached =>
    intro terminal
    cases stops with
    | earlyExit enough left =>
      rw [left]
      exact enough
    | boundary _ _ other | loop _ _ _ other =>
      rw [other] at terminal
      cases terminal

end Event.Stops

theorem Logged.concludes {rules : Rules} {n : Nat} {world : Grid} {start : Pose} {begun : Trace}
    {source after : σ} {log : List Event} {t : Trace}
    (logged : Logged rules n .root 0 { trace := begun } source log t after)
    (begins : Trace.begin? world start = some begun) (window : 1 ≤ rules.window) :
    t.Concludes rules.config log := by
  have kept := (logged.precedes (Trace.grounded_begin begins)).start
  obtain ⟨tile, here, rfl⟩ := Trace.begin?_eq_some begins
  rcases logged.stops window ⟨rfl, rfl, fun _ => rfl⟩ with
    ⟨completed, all⟩ | ⟨before, last, rfl, all, ended, stops⟩
  · rw [← kept] at all
    exact Trace.concludes_of_goesOn completed all
  · rw [← kept] at all
    exact stops.concludes ended all

/-- A run ends at the edge of the world, back in its start pose or having seen enough exactly if its last
instruction has brought that about; otherwise it has spent its steps or its fetches. -/
theorem terminal_of_execute {p : Program} {c : Config} {s : Setting} {suppressed : Slot → Bool}
    {source after : σ} {t : Trace} (ran : execute p c s suppressed source = (.ok t, after))
    (window : 1 ≤ s.window) :
    let rules : Rules := ⟨p, c, suppressed, s.window⟩
    let fetches := c.maxSteps * Run.fetchesPerStep
    ∃ begun log,
      Trace.begin? (s.prepare c source).1.1 (s.prepare c source).1.2 = some begun ∧
      Logged rules fetches .root 0 { trace := begun } (s.prepare c source).2 log t after ∧
      t.Concludes c log ∧
      (t.terminal = .earlyExit → ∀ other : σ,
        ∀ f ∈ (t.evaluate p c s.window other).1.failure?, f ∉ [.boundary, .loop, .coverage]) ∧
      (t.terminal = .completed → t.steps = c.maxSteps ∨
        ∃ last, Fetches rules fetches { trace := begun } (s.prepare c source).2 last after ∧
          last.trace = t) := by
  obtain ⟨begun, log, begins, logged⟩ := runFrom?_eq_some.mp (execute_eq_ok.mp ran)
  have concludes := logged.concludes begins window
  refine ⟨begun, log, begins, logged, concludes, fun terminal other f failed => ?_,
    fun completed => ?_⟩
  · exact Trace.evaluate_of_earlyExit terminal (concludes.reached terminal).1 p s.window other failed
  · rcases Run.fetches_of_finish logged.finish_eq completed with spent | fetched
    · exact .inl (Nat.le_antisymm (records_of_execute ran).2 spent)
    · exact .inr fetched

def loneTile : Setting where
  grid := some ⟨1, 1, #v[#v[some ⟨none, false⟩]]⟩
  start := some ⟨⟨0, 0⟩, .up⟩

def oneSlot : Config where
  slotsPerRoutine := ⟨1, 0, 0, 0, 0⟩
  maxSteps := 20
  maxAverageExecutions := 1000

def spin : Program :=
  ⟨⟨[some ⟨.turn .right, none⟩], [], [], [], []⟩⟩

theorem terminal_spin :
    ∃ t after, execute spin oneSlot loneTile (fun _ => false) (⟨#[0.5], 0, false⟩ : Tape) =
        (.ok t, after) ∧ 1 ≤ loneTile.window ∧ t.terminal = .loop ∧ t.steps = 4 ∧
      ∃ begun log, Logged ⟨spin, oneSlot, fun _ => false, loneTile.window⟩
          (oneSlot.maxSteps * Run.fetchesPerStep) .root 0 { trace := begun }
          (loneTile.prepare oneSlot (⟨#[0.5], 0, false⟩ : Tape)).2 log t after ∧
        ∃ e, (log.filter fun e => ¬ e.Enough oneSlot).getLast? = some e ∧ e.Reaches t.start := by
  have evaluated : (execute spin oneSlot loneTile (fun _ => false)
      (⟨#[0.5], 0, false⟩ : Tape)).1.toOption.any (fun t =>
        decide (t.terminal = .loop ∧ t.steps = 4)) = true := by
    decide +kernel
  obtain ⟨t, after, ran, tested⟩ := exists_ok_of_any evaluated
  obtain ⟨looped, steps⟩ := of_decide_eq_true tested
  obtain ⟨begun, log, -, logged, concludes, -⟩ := terminal_of_execute ran (by decide)
  exact ⟨t, after, ran, by decide, looped, steps, begun, log, logged,
    (concludes.loop.mp looped).2⟩

end GridRobot
