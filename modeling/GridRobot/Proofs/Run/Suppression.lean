import GridRobot.Proofs.Run.Necessity
import GridRobot.Proofs.Run.Paving

namespace GridRobot

variable {σ : Type} [RandomSource σ]

def Rules.suppressing (rules : Rules) (suppressed : Slot → Bool) : Rules :=
  { rules with suppressed }

def Event.Idle (e : Event) : Prop :=
  e.instruction.action.isPaint = true → e.after.trace.world = e.before.trace.world

theorem Trace.paint_of_world {t : Trace} {c : Color} (same : (t.paint c).world = t.world) :
    t.paint c = t := by
  cases here : t.here with
  | none => simp only [paint, here]
  | some tile =>
    have shown := tile?_paint here c t.final.position
    rw [same, if_pos rfl] at shown
    have recolored : tile = { tile with color := some c } := Option.some.inj (here.symm.trans shown)
    rw [paint_eq here, if_pos (congrArg Tile.color recolored)]

namespace Run

variable {rules : Rules} {r : Run} {slot : Slot} {c : Color} {suppressed : Slot → Bool}

theorem paint_of_world (same : (r.paint rules slot c).trace.world = r.trace.world) :
    r.paint rules slot c = r := by
  unfold paint at same ⊢
  split
  · rfl
  · rename_i effective
    rw [if_neg effective] at same
    rw [Trace.paint_of_world same]

theorem paint_of_color
    (shown : r.trace.world.color? r.trace.final.position = some (some c)) :
    r.paint rules slot c = r := by
  obtain ⟨tile, here, same⟩ := Grid.isSome_of_color? shown
  unfold paint
  split
  · rfl
  · rw [Trace.paint_eq here, if_pos same]

theorem paint_suppressing (more : rules.suppressed slot = true → suppressed slot = true)
    (idle : suppressed slot = true → (r.paint rules slot c).trace.world = r.trace.world) :
    r.paint (rules.suppressing suppressed) slot c = r.paint rules slot c := by
  cases silent : suppressed slot with
  | true =>
    rw [paint_of_world (idle silent)]
    exact if_pos silent
  | false =>
    have effective : rules.suppressed slot = false := by
      rw [Bool.eq_false_iff]
      intro already
      rw [more already] at silent
      cases silent
    simp only [paint, Rules.suppressing, silent, effective]

end Run

theorem Effect.suppress {rules : Rules} {r : Run} {slot : Slot} {action : Action}
    {drawn : Option Color} {progress : Progress} {suppressed : Slot → Bool}
    (effect : Effect rules r slot action drawn progress)
    (more : rules.suppressed slot = true → suppressed slot = true)
    (idle : suppressed slot = true → action.isPaint = true →
      progress.trace.world = r.trace.world) :
    Effect (rules.suppressing suppressed) r slot action drawn progress := by
  cases effect with
  | boundary outside => exact .boundary outside
  | move tile onto => exact .move tile onto
  | pave c inside void => exact .pave c inside void
  | turn t => exact .turn t
  | call callee => exact .call callee
  | noop => exact .noop
  | other name => exact .other name
  | paint c =>
    rw [← Run.paint_suppressing more fun silent => idle silent rfl]
    exact .paint c

theorem Dispatch.suppress {rules : Rules} {r : Run} {slot : Slot} {i : Instruction}
    {drawn : Option Color} {progress : Progress} {suppressed : Slot → Bool}
    (dispatched : Dispatch rules r slot i drawn progress)
    (more : rules.suppressed slot = true → suppressed slot = true)
    (idle : suppressed slot = true → i.action.isPaint = true →
      progress.trace.world = r.trace.world) :
    Dispatch (rules.suppressing suppressed) r slot i drawn progress := by
  cases dispatched with
  | earlyExit enough => exact .earlyExit enough
  | act going effect =>
    refine .act going (effect.suppress more fun silent paints => ?_)
    rw [idle silent paints]
    exact (Trace.world_record _ _ _ _).symm

/-- Paints that change nothing may be suppressed unnoticed, besides those that are suppressed. -/
theorem Logged.suppress {rules : Rules} {n : Nat} {origin : CallStack} {skipped : Nat} {r : Run}
    {source after : σ} {log : List Event} {t : Trace} {suppressed : Slot → Bool}
    (logged : Logged rules n origin skipped r source log t after)
    (more : ∀ slot, rules.suppressed slot = true → suppressed slot = true)
    (idle : ∀ e ∈ log, suppressed e.slot = true → e.Idle) :
    Logged (rules.suppressing suppressed) n origin skipped r source log t after := by
  induction logged with
  | exhausted => exact .exhausted
  | spent past => exact .spent past
  | passed left fetched _ ih => exact .passed left fetched (ih idle)
  | ended left fetched dispatched draws =>
    exact .ended left fetched (dispatched.suppress (more _) (idle _ List.mem_cons_self)) draws
  | executed left fetched dispatched draws _ ih =>
    exact .executed left fetched (dispatched.suppress (more _) (idle _ List.mem_cons_self)) draws
      (ih fun e mem => idle e (List.mem_cons_of_mem _ mem))

theorem Dispatch.world_of_waits {rules : Rules} {r : Run} {slot : Slot} {c : Color}
    {drawn : Option Color} {progress : Progress}
    (dispatched : Dispatch rules r slot ⟨.paint c, some c⟩ drawn progress)
    (runs : (Instruction.mk (.paint c) (some c)).runsOn r.trace.here = true) :
    progress.trace.world = r.trace.world := by
  have shown := Instruction.color_of_runsOn runs rfl
  cases dispatched with
  | earlyExit => exact Trace.world_record _ _ _ _
  | act _ effect =>
    cases effect with
    | paint =>
      rw [Progress.trace, Run.paint_of_color (by simpa [Grid.color?] using shown)]
      exact Trace.world_record _ _ _ _

theorem Logged.idle_of_waits {rules : Rules} {n : Nat} {origin : CallStack} {skipped : Nat} {r : Run}
    {source after : σ} {log : List Event} {t : Trace} {slot : Slot} {c : Color}
    (logged : Logged rules n origin skipped r source log t after)
    (waits : rules.program.at? slot = some ⟨.paint c, some c⟩) :
    ∀ e ∈ log, e.slot = slot → e.Idle := by
  have idle {r : Run} {stack : CallStack} {slot' : Slot} {i : Instruction} {drawn : Option Color}
      {progress : Progress} (origin : CallStack) (skipped : Nat)
      (fetched : r.stack.next rules.program r.trace.here = (stack, some (slot', i)))
      (dispatched : Dispatch rules { r with stack } slot' i drawn progress) (same : slot' = slot) :
      (Event.mk slot' i origin skipped { r with stack } progress).Idle := by
    have filled := CallStack.at?_of_next fetched
    rw [same, waits] at filled
    cases filled
    exact fun _ => dispatched.world_of_waits (CallStack.runsOn_of_next fetched)
  induction logged with
  | exhausted | spent => exact List.forall_mem_nil _
  | passed _ _ _ ih => exact ih
  | ended _ fetched dispatched =>
    exact List.forall_mem_singleton.mpr (idle _ _ fetched dispatched)
  | executed _ fetched dispatched _ _ ih =>
    exact List.forall_mem_cons.mpr ⟨idle _ _ fetched dispatched, ih⟩

/-! ## Running again -/

theorem Program.pruned_true (p : Program) : p.pruned (fun _ => true) = p := by
  refine congrArg mk (PerRoutine.ext fun r => ?_)
  rw [PerRoutine.get_ofFn]
  exact List.ext_getElem (by simp) (by simp)

theorem Trace.Matches.eq {t u : Trace} (matched : t.Matches u) (unpainted : u.unpainted = t.unpainted)
    (recent : u.recentForwards = t.recentForwards) (tinted : t.Tinted) (tinted' : u.Tinted) :
    u = t := by
  have painted : u.painted = t.painted := matched.congr fun _ _ _ => rfl
  have world : u.world = t.world := by
    refine Grid.ext_tile? matched.colors.width matched.colors.height fun q => ?_
    rw [tinted.shown, tinted'.shown, unpainted, painted]
  rw [matched.observed, world, unpainted, recent]
  rfl

section Again

variable {p : Program} {c : Config} {s : Setting} {suppressed : Slot → Bool} {source after : σ}
  {t : Trace}

/-- On its unpainted world a run comes out the same in every respect, and draws nothing. -/
theorem execute_unpainted (ran : execute p c s suppressed source = (.ok t, after)) (τ : Type)
    [RandomSource τ] :
    (execute p c ⟨some t.unpainted, some t.start, s.window⟩ suppressed : StateM τ _) =
      pure (.ok t) := by
  have started := execute_eq_ok.mp ran
  have kept (slot : Slot) (_ : t.executed.contains slot = true) :
      (fun _ => true : Slot → Bool) slot = true :=
    rfl
  obtain ⟨u, matched, unpainted, recent, replayed⟩ :=
    runFrom?_replays started kept ⟨rfl, rfl, fun _ => rfl⟩ s.window
  have again (other : τ) :
      execute p c ⟨some t.unpainted, some t.start, s.window⟩ suppressed other = (.ok u, other) := by
    have replayed := congrFun (replayed τ) other
    simp only [Rules.pruned, Program.pruned_true, ← runFrom?_start started] at replayed
    exact execute_eq_ok.mpr replayed
  funext other
  -- the grids, in which the two traces might still differ, follow from the tiles and their paints
  have same := matched.eq unpainted (recent rfl) (tinted_of_execute ran)
    (tinted_of_execute (again other))
  rw [again, same]
  rfl

variable {begun : Trace} {log : List Event}

section Idle

variable
  (begins : Trace.begin? (s.prepare c source).1.1 (s.prepare c source).1.2 = some begun)
  (logged : Logged ⟨p, c, suppressed, s.window⟩ (c.maxSteps * Run.fetchesPerStep) .root 0
    { trace := begun } (s.prepare c source).2 log t after)

include begins logged

theorem execute_silenced {silenced : Slot → Bool}
    (more : ∀ slot, suppressed slot = true → silenced slot = true)
    (idle : ∀ e ∈ log, silenced e.slot = true → e.Idle) (τ : Type) [RandomSource τ] :
    (execute p c ⟨some t.unpainted, some t.start, s.window⟩ silenced : StateM τ _) =
      pure (.ok t) := by
  have silent := logged.suppress more idle
  exact execute_unpainted
    (execute_eq_ok.mpr (runFrom?_eq_some.mpr ⟨begun, log, begins, silent⟩)) τ

theorem passesWithout_of_idle (free : ∀ slot, suppressed slot = false) {slot : Slot}
    (idle : ∀ e ∈ log, e.slot = slot → e.Idle) (passed : (t.assess c).isPassed = true) (τ : Type)
    [RandomSource τ] :
    (passesWithout p c s.window t.unpainted t.start slot : StateM τ _) = pure (.ok true) := by
  have ran : execute p c s suppressed source = (.ok t, after) :=
    execute_eq_ok.mpr (runFrom?_eq_some.mpr ⟨begun, log, begins, logged⟩)
  funext other
  obtain ⟨u, left, rerun, tested⟩ :=
    exists_rerun p c s.window (standing_start_of_execute ran) slot other
  have same : execute p c ⟨some t.unpainted, some t.start, s.window⟩ (fun s => s == slot) other =
      (.ok t, other) := by
    rw [execute_silenced begins logged (fun s already => absurd already (by simp [free])) _ τ]
    · rfl
    · exact fun e mem here => idle e mem (eq_of_beq here)
  rw [same] at rerun
  cases rerun
  rw [tested, Verdict.passes_of_isPassed passed]
  rfl

end Idle

end Again

/-! ## Runs that recolour nothing -/

theorem ArrivalMap.isEmpty_insert {κ : Type u} {α : Type v} [DecidableEq κ] (m : ArrivalMap κ α)
    (k : κ) (a : α) : (m.insert k a).isEmpty = false := by
  obtain ⟨entries⟩ := m
  cases entries with
  | nil => rfl
  | cons e rest =>
    simp only [insert, alter, alter.go, isEmpty]
    split <;> rfl

theorem Trace.paint_of_painted {t : Trace} {c : Color} (bare : (t.paint c).painted.isEmpty = true) :
    t.paint c = t := by
  cases here : t.here with
  | none => simp only [paint, here]
  | some tile =>
    rw [paint_eq here] at bare ⊢
    split at bare
    · rename_i same
      rw [if_pos same]
    · rw [ArrivalMap.isEmpty_insert] at bare
      cases bare

theorem Effect.bare {rules : Rules} {r : Run} {slot : Slot} {action : Action}
    {drawn : Option Color} {progress : Progress}
    (effect : Effect rules r slot action drawn progress)
    (bare : progress.trace.painted.isEmpty = true) :
    r.trace.painted.isEmpty = true ∧
      (action.isPaint = true → progress.trace.world = r.trace.world) := by
  cases effect with
  | boundary | call | noop | other => exact ⟨bare, fun _ => rfl⟩
  | move | pave =>
    obtain ⟨turning, terminal, came⟩ := Run.trace_arrive rules _ r.trace.ahead
    rw [came] at bare
    exact ⟨bare, by rintro ⟨⟩⟩
  | turn t =>
    obtain ⟨terminal, same⟩ := Run.trace_turn rules r t
    rw [same] at bare
    exact ⟨bare, by rintro ⟨⟩⟩
  | paint c =>
    change (r.paint rules slot c).trace.painted.isEmpty = true at bare
    change _ ∧ (_ → (r.paint rules slot c).trace.world = _)
    unfold Run.paint at bare ⊢
    split at bare
    · rename_i silent
      rw [if_pos silent]
      exact ⟨bare, fun _ => rfl⟩
    · rename_i free
      rw [if_neg free]
      dsimp only at bare ⊢
      have unchanged := Trace.paint_of_painted bare
      rw [unchanged] at bare ⊢
      exact ⟨bare, fun _ => rfl⟩

theorem Dispatch.bare {rules : Rules} {r : Run} {slot : Slot} {i : Instruction}
    {drawn : Option Color} {progress : Progress}
    (dispatched : Dispatch rules r slot i drawn progress)
    (bare : progress.trace.painted.isEmpty = true) :
    r.trace.painted.isEmpty = true ∧
      (i.action.isPaint = true → progress.trace.world = r.trace.world) := by
  cases dispatched with
  | earlyExit =>
    change (r.trace.record slot i r.departed).painted.isEmpty = true at bare
    rw [Trace.painted_record] at bare
    exact ⟨bare, fun _ => Trace.world_record _ _ _ _⟩
  | act _ effect =>
    obtain ⟨before, same⟩ := effect.bare bare
    rw [Trace.painted_record] at before
    exact ⟨before, fun paints => (same paints).trans (Trace.world_record _ _ _ _)⟩

theorem Logged.idle_of_bare {rules : Rules} {n : Nat} {origin : CallStack} {skipped : Nat} {r : Run}
    {source after : σ} {log : List Event} {t : Trace}
    (logged : Logged rules n origin skipped r source log t after)
    (bare : t.painted.isEmpty = true) :
    r.trace.painted.isEmpty = true ∧ ∀ e ∈ log, e.Idle := by
  induction logged with
  | exhausted => exact ⟨bare, by rintro e ⟨⟩⟩
  | spent => exact ⟨bare, by rintro e ⟨⟩⟩
  | passed _ _ _ ih => exact ih bare
  | ended _ _ dispatched =>
    obtain ⟨before, idle⟩ := dispatched.bare bare
    refine ⟨before, fun e mem => ?_⟩
    rw [List.mem_singleton.mp mem]
    exact idle
  | executed _ _ dispatched _ _ ih =>
    obtain ⟨between, later⟩ := ih bare
    obtain ⟨before, idle⟩ := dispatched.bare between
    refine ⟨before, fun e mem => ?_⟩
    rcases List.mem_cons.mp mem with rfl | mem
    · exact idle
    · exact later e mem

/-! ## Unneeded paints -/

section Bare

variable {p : Program} {c : Config} {window : Nat} {world : Grid} {start : Pose} {source after : σ}
  {t : Trace}

theorem passesWithout_of_bare
    (ran : runFrom? ⟨p, c, fun _ => false, window⟩ world start source = (some t, after))
    (bare : t.painted.isEmpty = true) (passed : (t.assess c).isPassed = true) (slot : Slot)
    (other : σ) : passesWithout p c window t.unpainted start slot other = (.ok true, other) := by
  have executed : execute p c ⟨some world, some start, window⟩ (fun _ => false) source =
      (.ok t, after) :=
    execute_eq_ok.mpr ran
  obtain ⟨begun, log, begins, logged⟩ := runFrom?_eq_some.mp (execute_eq_ok.mp executed)
  have idle := (logged.idle_of_bare bare).2
  have passes : (passesWithout p c window t.unpainted t.start slot : StateM σ _) = pure (.ok true) :=
    passesWithout_of_idle begins logged (fun _ => rfl) (fun e mem _ => idle e mem) passed σ
  rw [← runFrom?_start ran]
  exact congrFun passes other

theorem countPassing_of_bare
    (ran : runFrom? ⟨p, c, fun _ => false, window⟩ world start source = (some t, after))
    (bare : t.painted.isEmpty = true) (passed : (t.assess c).isPassed = true) (slots : List Slot)
    (other : σ) :
    countPassing p c window t.unpainted start slots other = (.ok slots.length, other) := by
  induction slots with
  | nil => rfl
  | cons slot rest ih =>
    rw [countPassing_of_unneeded (passesWithout_of_bare ran bare passed slot other), ih]
    rfl

end Bare

/-- A run that passes within a budget for unneeded paints keeps it if it has recoloured a tile. If it
has not, it needs none of its paints, and their number is not asked for. -/
theorem unneeded_of_passed {p : Program} {c : Config} {s : Setting} {source after : σ} {a : Attempt}
    (simulated : simulate p c s source = (.ok a, after)) (passed : a.verdict.isPassed = true)
    (budget : 0 ≤ c.maxUnneededPaints) :
    ∃ between, execute p c s (fun _ => false) source = (.ok a.trace, between) ∧
      (a.trace.painted.isEmpty = false →
        ∃ n : Nat, (countPassing p c s.window a.trace.unpainted a.trace.start
          (a.trace.paintSlots p) between).1 = .ok n ∧ n ≤ c.maxUnneededPaints) ∧
      (a.trace.painted.isEmpty = true →
        (countPassing p c s.window a.trace.unpainted a.trace.start (a.trace.paintSlots p)
          between).1 = .ok (a.trace.paintSlots p).length) := by
  obtain ⟨between, ran, -, judged⟩ := simulate_eq_ok.mp simulated
  have assessed := (a.trace.evaluate_isPassed_iff p c s.window between).mp (by rw [judged]; exact passed)
  refine ⟨between, ran, assessed.2 budget, fun bare => ?_⟩
  have ran := execute_eq_ok.mp ran
  rw [runFrom?_start ran, countPassing_of_bare ran bare assessed.1]

def noUnneeded : Config where
  slotsPerRoutine := ⟨2, 0, 0, 0, 0⟩
  maxSteps := 2
  minCoverage := 0
  minTiles := 0
  minBoundingBox := 0
  minTurns := 0
  maxAverageExecutions := 1000
  minRetraceRatio := 0
  minPathLength := 1
  maxUnneededPaints := 0

def twoRedCells : Setting where
  grid := some ⟨2, 1, #v[#v[some ⟨some .red, false⟩, some ⟨some .red, false⟩]]⟩
  start := some ⟨⟨0, 0⟩, .right⟩

def paintThenMove : Program :=
  ⟨⟨[some ⟨.paint .green, none⟩, some ⟨.forward, some .green⟩], [], [], [], []⟩⟩

theorem unneeded_paintThenMove :
    ∃ (a : Attempt) (after between : Tape),
      simulate paintThenMove noUnneeded twoRedCells (⟨#[0.5], 0, false⟩ : Tape) =
        (.ok a, after) ∧ a.verdict.isPassed = true ∧ a.trace.painted.isEmpty = false ∧
      execute paintThenMove noUnneeded twoRedCells (fun _ => false) (⟨#[0.5], 0, false⟩ : Tape) =
        (.ok a.trace, between) ∧
      ∃ n : Nat, (countPassing paintThenMove noUnneeded twoRedCells.window a.trace.unpainted
        a.trace.start (a.trace.paintSlots paintThenMove) between).1 = .ok n ∧
          n ≤ noUnneeded.maxUnneededPaints := by
  have evaluated : (simulate paintThenMove noUnneeded twoRedCells
      (⟨#[0.5], 0, false⟩ : Tape)).1.toOption.any (fun a =>
        a.verdict.isPassed && !a.trace.painted.isEmpty) = true := by
    decide +kernel
  obtain ⟨a, after, ran, tested⟩ := exists_ok_of_any evaluated
  rw [Bool.and_eq_true, Bool.not_eq_true'] at tested
  obtain ⟨between, executed, few, -⟩ := unneeded_of_passed ran tested.1 (by decide)
  exact ⟨a, after, between, ran, tested.1, tested.2, executed, few tested.2⟩

def paintOver : Program :=
  ⟨⟨[some ⟨.paint .red, none⟩, some ⟨.forward, none⟩], [], [], [], []⟩⟩

theorem unneeded_can_exceed :
    ¬ ∀ (p : Program) (c : Config) (s : Setting) (source between after : Tape) (a : Attempt),
      c.Valid → p.lengths = c.slotsPerRoutine → 0 ≤ c.maxUnneededPaints →
      simulate p c s source = (.ok a, after) → a.verdict.isPassed = true →
      execute p c s (fun _ => false) source = (.ok a.trace, between) → ∀ n : Nat,
        (countPassing p c s.window a.trace.unpainted a.trace.start (a.trace.paintSlots p)
          between).1 = .ok n → n ≤ c.maxUnneededPaints := by
  intro claim
  have evaluated : (simulate paintOver noUnneeded twoRedCells
      (⟨#[0.5], 0, false⟩ : Tape)).1.toOption.any (fun a =>
        a.verdict.isPassed && a.trace.painted.isEmpty &&
          decide ((a.trace.paintSlots paintOver).length = 1)) = true := by
    decide +kernel
  obtain ⟨a, after, ran, tested⟩ := exists_ok_of_any evaluated
  rw [Bool.and_eq_true, Bool.and_eq_true, decide_eq_true_eq] at tested
  obtain ⟨between, executed, judged⟩ := simulate_eq_ok.mp ran
  have few := claim paintOver noUnneeded twoRedCells _ between after a (by decide) rfl (by decide) ran
    tested.1.1 executed 1
  have assessed := (a.trace.evaluate_isPassed_iff paintOver noUnneeded twoRedCells.window between).mp
    (by rw [judged.2]; exact tested.1.1)
  have executed := execute_eq_ok.mp executed
  rw [runFrom?_start executed, countPassing_of_bare executed tested.1.2 assessed.1, tested.2] at few
  exact absurd (few rfl) (by decide : ¬ ((1 : Nat) : Int) ≤ noUnneeded.maxUnneededPaints)

end GridRobot
