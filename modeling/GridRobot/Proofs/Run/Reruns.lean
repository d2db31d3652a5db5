import GridRobot.Proofs.Run.Calls
import GridRobot.Proofs.Run.Thresholds

/-!
Re-runs and their count. A re-run whose failure has a figure beyond the range of floating-point numbers
breaks the count off. `Config.Reportable` rules this out; where a run has passed it is a matter of the
budget of steps and the size of the world alone.
-/

namespace GridRobot

variable {σ : Type} [RandomSource σ]

/-! ## Figures -/

theorem length_eraseDups (slots : List Slot) : slots.eraseDups.length ≤ slots.length :=
  (Grid.nodup_eraseDups slots).length_le_of_subset fun _ mem => List.mem_eraseDups.mp mem

/-- No count of a run exceeds its steps, but for the depth of the stack, which begins with one. -/
structure Trace.Sized (t : Trace) : Prop where
  path : t.pathLength ≤ t.steps
  turns : t.turnPositions.size ≤ t.steps
  depth : t.stackDepth ≤ t.steps + 1
  selfCalls : t.selfCalls.size ≤ t.steps
  conditional : t.conditional.size ≤ t.steps
  revisits : t.paintRevisits ≤ t.steps

theorem sized_of_execute {p : Program} {c : Config} {s : Setting} {suppressed : Slot → Bool}
    {source after : σ} {t : Trace} (ran : execute p c s suppressed source = (.ok t, after)) :
    t.Sized := by
  obtain ⟨entry, course⟩ := course_of_runFrom? (execute_eq_ok.mp ran)
  obtain ⟨begun, log, begins, logged, revisits, -, -⟩ := revisits_of_execute ran
  obtain ⟨tallies, reflects⟩ := logged.sums_begin begins
  obtain ⟨tile, here, rfl⟩ := Trace.begin?_eq_some begins
  dsimp only at tallies reflects
  have steps := tallies.steps
  have dispatched : (t.dispatched (log.map (·.slot))).length ≤ t.steps := by
    rw [steps, Trace.dispatched]
    split
    · exact List.dropLast_sublist _ |>.length_le
    · exact Nat.le_refl _
  rw [List.length_map] at steps
  have path : t.pathLength ≤ t.steps := by
    have moves := reflects.pathLength
    have forwards := List.length_filter_le p.isForward (t.dispatched (log.map (·.slot)))
    omega
  refine ⟨path, ?_, ?_, ?_, ?_, ?_⟩
  · have corners := length_corners t.path.toList
    rw [← course.turns, Array.length_toList, Array.length_toList] at corners
    exact Nat.le_trans corners path
  · have deep := logged.stackDepth_le ⟨Nat.le_refl 1, Nat.le_refl 1⟩
    have calls := List.countP_le_length (p := fun e : Event => e.instruction.action.isCall) (l := log)
    change t.stackDepth ≤ 1 + _ at deep
    omega
  · have listed := length_eraseDups ((t.dispatched (log.map (·.slot))).filter p.callsItself)
    have calls := List.length_filter_le p.callsItself (t.dispatched (log.map (·.slot)))
    rw [← reflects.selfCalls, ArrivalMap.keys, List.length_map] at listed
    exact Nat.le_trans listed (Nat.le_trans calls dispatched)
  · have waiting := List.length_filter_le p.isConditional t.executed.keys
    rw [← tallies.conditional, tallies.order, ArrivalMap.keys, List.length_map] at waiting
    have executed := length_eraseDups (log.map (·.slot))
    rw [List.length_map, ← steps] at executed
    exact Nat.le_trans waiting executed
  · rw [revisits, steps]
    exact Event.revisitsAfter_le [] log

def Config.bound (c : Config) : Failure → Nat
  | .minTiles => c.minTiles
  | .minBoundingBox => c.minBoundingBox
  | .minTurns => c.minTurns
  | .minStackDepth => c.minStackDepth
  | .minSelfCalls => c.minSelfCalls
  | .minPathLength => c.minPathLength
  | .minConditionals => c.minConditionals
  | .minPaintRevisits => c.minPaintRevisits
  | _ => 0

/-- No failure of a run in a world of this size has a figure that cannot be reported. -/
structure Config.Reportable (c : Config) (world : Grid) : Prop where
  steps : c.maxSteps < Verdict.rangeEnd
  cells : world.width * world.height < Verdict.rangeEnd
  bounds : ∀ f, c.bound f < Verdict.rangeEnd

theorem Verdict.ofCounts_ne_broken {f : Failure} {measured required : Nat}
    (first : measured < rangeEnd) (second : required < rangeEnd) (b : Breakdown) :
    ofCounts f measured required ≠ .broken b := by
  rw [ofCounts, if_pos ⟨first, second⟩]
  intro same
  cases same

namespace Trace

theorem verdict_ne_broken {t : Trace} {c : Config} {world : Grid} (reportable : c.Reportable world)
    (steps : t.steps ≤ c.maxSteps)
    (dense : t.world.denseCount Grid.denseThreshold ≤ world.width * world.height) {f : Failure}
    (fails : (t.comparison c f).Fails) (b : Breakdown) :
    (t.comparison c f).verdict f ≠ .broken b := by
  have below {count bound : Nat} (few : count < bound) (same : c.bound f = bound) :
      Verdict.ofCounts f count bound ≠ .broken b := by
    have inside := reportable.bounds f
    rw [same] at inside
    exact Verdict.ofCounts_ne_broken (Nat.lt_trans few inside) inside b
  cases f with
  | boundary | loop =>
    have ended := Nat.lt_of_le_of_lt steps reportable.steps
    exact Verdict.ofCounts_ne_broken ended (Nat.zero_lt_of_lt ended) b
  | coverage | pathTraceRatio => exact nofun
  | density =>
    have crowded := Nat.lt_of_le_of_lt dense reportable.cells
    exact Verdict.ofCounts_ne_broken crowded (Nat.lt_trans fails crowded) b
  | _ => exact below fails rfl

theorem assess_ne_broken {p : Program} {c : Config} {world : Grid} {start : Pose} {window : Nat}
    {suppressed : Slot → Bool} {source after : σ} {t : Trace}
    (ran : execute p c ⟨some world, some start, window⟩ suppressed source = (.ok t, after))
    (reportable : c.Reportable world) (b : Breakdown) : t.assess c ≠ .broken b := by
  obtain ⟨-, -, -, -, -, -, painted⟩ := revisits_of_execute ran
  obtain ⟨-, width, height⟩ := size_of_runFrom? (execute_eq_ok.mp ran)
  have dense := t.world.denseCount_le Grid.denseThreshold
  rw [width, height] at dense
  rcases assess_of_stage painted c with ⟨passed, -⟩ | ⟨f, -, fails, judged⟩
  · rw [passed]
    nofun
  · rw [judged]
    exact verdict_ne_broken reportable (records_of_execute ran).2 dense fails b

end Trace

theorem Config.reportable_of_passed {p : Program} {c : Config} {s : Setting}
    {suppressed : Slot → Bool} {source after : σ} {t : Trace}
    (ran : execute p c s suppressed source = (.ok t, after)) (passed : (t.assess c).isPassed = true)
    (steps : c.maxSteps + 1 < Verdict.rangeEnd)
    (cells : t.unpainted.width * t.unpainted.height < Verdict.rangeEnd) :
    c.Reportable t.unpainted := by
  obtain ⟨-, -, -, -, -, -, painted⟩ := revisits_of_execute ran
  have sized := sized_of_execute ran
  have within := (records_of_execute ran).2
  obtain ⟨grounded, -, -⟩ := size_of_runFrom? (execute_eq_ok.mp ran)
  rw [grounded.width, grounded.height] at cells
  have met := Trace.eq_none_of_assess passed
  rw [Trace.checks_eq painted] at met
  have holds (f : Failure) (listed : f ∈ Failure.order) : ¬ (t.comparison c f).Fails := by
    have none := met _ (List.mem_map_of_mem listed)
    intro fails
    rw [Comparison.result, if_pos fails] at none
    cases none
  have counted {bound measured : Nat} (met : ¬ measured < bound) (most : measured ≤ t.steps + 1) :
      bound < Verdict.rangeEnd := by omega
  have placed {bound measured : Nat} (met : ¬ measured < bound)
      (most : measured ≤ t.world.width * t.world.height) : bound < Verdict.rangeEnd := by omega
  refine ⟨by omega, by rwa [grounded.width, grounded.height], fun f => ?_⟩
  cases f with
  | minTiles => exact placed (holds .minTiles (by decide)) t.world.tileCount_le
  | minBoundingBox => exact placed (holds .minBoundingBox (by decide)) t.world.boundingBox_le
  | minTurns => exact counted (holds .minTurns (by decide)) (Nat.le_succ_of_le sized.turns)
  | minStackDepth => exact counted (holds .minStackDepth (by decide)) sized.depth
  | minSelfCalls => exact counted (holds .minSelfCalls (by decide)) (Nat.le_succ_of_le sized.selfCalls)
  | minPathLength => exact counted (holds .minPathLength (by decide)) (Nat.le_succ_of_le sized.path)
  | minConditionals =>
    exact counted (holds .minConditionals (by decide)) (Nat.le_succ_of_le sized.conditional)
  | minPaintRevisits =>
    exact counted (holds .minPaintRevisits (by decide)) (Nat.le_succ_of_le sized.revisits)
  | _ => exact Nat.zero_lt_of_lt steps

/-! ## The exhaustive search -/

def reruns (p : Program) (c : Config) (window : Nat) (world : Grid) (start : Pose)
    (slots : List Slot) : StateM σ (List (Except VoidStart Trace)) :=
  slots.mapM fun slot => execute p c ⟨some world, some start, window⟩ fun s => s == slot

/-- What a count of unneeded paints has to do with the re-runs, all of them made, `found` slots being
counted before. -/
def Config.Counts (c : Config) (found : Nat) (runs : List Trace) : Except Breakdown Nat → Prop
  | .ok n => n = min (found + runs.countP fun u => (u.assess c).isPassed)
      (c.maxUnneededPaints.toNat + 1)
  | .error b => ∃ u ∈ runs, u.assess c = .broken b

theorem Config.Counts.cons {c : Config} {found : Nat} {u : Trace} {runs : List Trace}
    {counted : Except Breakdown Nat}
    (counts : c.Counts (if (u.assess c).isPassed then found + 1 else found) runs counted) :
    c.Counts found (u :: runs) counted := by
  cases counted with
  | error b =>
    obtain ⟨v, mem, broken⟩ := counts
    exact ⟨v, List.mem_cons_of_mem u mem, broken⟩
  | ok n =>
    refine Eq.trans (show n = _ from counts) ?_
    rw [List.countP_cons]
    split <;> omega

section Reruns

variable {p : Program} {c : Config} {window : Nat} {world : Grid} {start : Pose}

variable (p c window world start) in
inductive Reruns : List Slot → σ → List Trace → σ → Prop
  | nil (source : σ) : Reruns [] source [] source
  | cons {slot : Slot} {rest : List Slot} {source between after : σ} {u : Trace} {runs : List Trace}
      (ran : execute p c ⟨some world, some start, window⟩ (fun s => s == slot) source =
        (.ok u, between))
      (others : Reruns rest between runs after) : Reruns (slot :: rest) source (u :: runs) after

variable (p c window) in
theorem exists_reruns (standing : (world.tile? start.position).isSome = true) (slots : List Slot)
    (source : σ) : ∃ runs after, Reruns p c window world start slots source runs after := by
  induction slots generalizing source with
  | nil => exact ⟨[], source, .nil source⟩
  | cons slot rest ih =>
    obtain ⟨u, between, ran, -⟩ := exists_rerun p c window standing slot source
    obtain ⟨runs, after, others⟩ := ih between
    exact ⟨u :: runs, after, .cons ran others⟩

namespace Reruns

variable {slots : List Slot} {source after : σ} {runs : List Trace}

theorem reruns_eq (made : Reruns p c window world start slots source runs after) :
    reruns p c window world start slots source = (runs.map .ok, after) := by
  induction made with
  | nil => rfl
  | @cons slot rest source between after u runs ran _ ih =>
    rw [reruns, List.mapM_cons, bind_apply, ran, bind_apply]
    change (.ok u :: (reruns p c window world start rest between).1,
      (reruns p c window world start rest between).2) = _
    rw [ih]
    rfl

theorem length_eq (made : Reruns p c window world start slots source runs after) :
    runs.length = slots.length := by
  induction made with
  | nil => rfl
  | cons _ _ ih => exact congrArg (· + 1) ih

theorem not_broken (made : Reruns p c window world start slots source runs after)
    (reportable : c.Reportable world) : ∀ u ∈ runs, ∀ b, u.assess c ≠ .broken b := by
  induction made with
  | nil => exact List.forall_mem_nil _
  | cons ran _ ih => exact List.forall_mem_cons.mpr ⟨Trace.assess_ne_broken ran reportable, ih⟩

theorem counts (made : Reruns p c window world start slots source runs after) {found : Nat}
    (within : found ≤ c.maxUnneededPaints.toNat) :
    c.Counts found runs (countUnneeded p c window world start found slots source).1 := by
  -- along the re-runs; the count goes on for as long as it is within the budget
  induction made generalizing found with
  | nil =>
    change found = min (found + 0) (c.maxUnneededPaints.toNat + 1)
    omega
  | @cons _ _ _ _ _ u _ ran _ ih =>
    have tested := passesWithout_of_execute ran
    cases judged : u.assess c with
    | broken b =>
      rw [judged] at tested
      rw [countUnneeded_of_error tested]
      exact ⟨u, List.mem_cons_self, judged⟩
    | failed f measured required =>
      rw [judged] at tested
      rw [countUnneeded_of_needed tested]
      exact .cons (by rw [judged]; exact ih within)
    | passed =>
      rw [judged] at tested
      rw [countUnneeded_of_unneeded tested]
      refine .cons ?_
      rw [judged]
      by_cases past : c.maxUnneededPaints < (found + 1 : Nat)
      · rw [if_pos past]
        change found + 1 = min (found + 1 + _) (c.maxUnneededPaints.toNat + 1)
        omega
      · rw [if_neg past]
        exact @ih (found + 1) (by omega)

end Reruns

variable (p) (window) in
theorem exists_counted (standing : (world.tile? start.position).isSome = true)
    (reportable : c.Reportable world) (slots : List Slot) (source : σ) :
    ∃ n, (countUnneeded p c window world start 0 slots source).1 = .ok n := by
  obtain ⟨runs, after, made⟩ := exists_reruns p c window standing slots source
  have counts := made.counts (Nat.zero_le _)
  cases counted : (countUnneeded p c window world start 0 slots source).1 with
  | ok n => exact ⟨n, rfl⟩
  | error b =>
    rw [counted] at counts
    obtain ⟨u, mem, broken⟩ := counts
    exact absurd broken (made.not_broken reportable u mem b)

end Reruns

/-- Stopping at the budget changes neither the count, as far as the budget goes, nor the verdict: a
trace that is examined for unneeded paints fails if more re-runs pass, all of them made, than the
budget allows. -/
theorem unneeded_eq_min_reruns (p : Program) (c : Config) (window : Nat) {world : Grid} {start : Pose}
    (standing : (world.tile? start.position).isSome = true) (slots : List Slot) (source : σ) :
    ∃ (runs : List Trace) (after : σ),
      reruns p c window world start slots source = (runs.map .ok, after) ∧
      runs.length = slots.length ∧
      let passing := runs.countP fun u => (u.assess c).isPassed
      let counted := (countUnneeded p c window world start 0 slots source).1
      (∀ n, counted = .ok n → n = min passing (c.maxUnneededPaints.toNat + 1)) ∧
      (∀ b, counted = .error b → ∃ u ∈ runs, u.assess c = .broken b) ∧
      (c.Reportable world → counted = .ok (min passing (c.maxUnneededPaints.toNat + 1))) ∧
      ∀ t : Trace, t.unpainted = world → t.start = start → t.paintSlots p = slots →
        (t.assess c).isPassed = true → 0 ≤ c.maxUnneededPaints → t.painted.isEmpty = false →
          (∀ b, counted = .error b → (t.evaluate p c window source).1 = .broken b) ∧
          ∀ n, counted = .ok n →
            (t.evaluate p c window source).1 =
              (if c.maxUnneededPaints < passing then
                .ofCounts .unnecessaryPaint (c.maxUnneededPaints.toNat + 1) c.maxUnneededPaints.toNat
              else .passed) ∧
            (passing < Verdict.rangeEnd →
              ((t.evaluate p c window source).1.failure? = some .unnecessaryPaint ↔
                c.maxUnneededPaints < passing)) := by
  obtain ⟨runs, after, made⟩ := exists_reruns p c window standing slots source
  have counts := made.counts (Nat.zero_le _)
  have ok (n : Nat) (counted : (countUnneeded p c window world start 0 slots source).1 = .ok n) :
      n = min (runs.countP fun u => (u.assess c).isPassed) (c.maxUnneededPaints.toNat + 1) := by
    rw [counted] at counts
    exact counts.trans (by rw [Nat.zero_add])
  have error (b : Breakdown)
      (counted : (countUnneeded p c window world start 0 slots source).1 = .error b) :
      ∃ u ∈ runs, u.assess c = .broken b := by
    rw [counted] at counts
    exact counts
  refine ⟨runs, after, made.reruns_eq, made.length_eq, ok, error, fun reportable => ?_, ?_⟩
  · obtain ⟨n, counted⟩ := exists_counted p window standing reportable slots source
    rw [counted, ok n counted]
  rintro t rfl rfl rfl passed budget painted
  have judged := t.evaluate_examined passed budget painted p window source
  refine ⟨fun b counted => by rw [judged, counted], fun n counted => ?_⟩
  have least := ok n counted
  rw [counted] at judged
  generalize (runs.countP fun u => (u.assess c).isPassed) = passing at least ⊢
  dsimp only at judged
  by_cases past : c.maxUnneededPaints < passing
  · have stopped : n = c.maxUnneededPaints.toNat + 1 := by omega
    rw [if_pos past, judged, if_pos (by omega), stopped]
    refine ⟨rfl, fun reportable => iff_of_true ?_ past⟩
    have measured : c.maxUnneededPaints.toNat + 1 < Verdict.rangeEnd := by omega
    have required : c.maxUnneededPaints.toNat < Verdict.rangeEnd := by omega
    rw [Verdict.ofCounts, if_pos ⟨measured, required⟩, Verdict.failure?]
  · rw [if_neg past, judged, if_neg (by omega)]
    exact ⟨rfl, fun _ => iff_of_false (Option.some_ne_none _).symm past⟩

def noneAllowed : Config where
  slotsPerRoutine := ⟨4, 0, 0, 0, 0⟩
  maxSteps := 4
  minCoverage := 0
  minTiles := 0
  minBoundingBox := 0
  minTurns := 0
  maxAverageExecutions := 1000
  minRetraceRatio := 0
  minPathLength := 1
  maxUnneededPaints := 0

def column : Setting where
  grid := some ⟨2, 2, #v[#v[some ⟨some .red, false⟩, none], #v[some ⟨some .red, false⟩, none]]⟩
  start := some ⟨⟨0, 0⟩, .right⟩

def turnOnGreen : Program :=
  ⟨⟨[some ⟨.paint .green, none⟩, some ⟨.turn .right, some .green⟩, some ⟨.forward, none⟩,
    some ⟨.paint .blue, none⟩], [], [], [], []⟩⟩

theorem unneeded_turnOnGreen :
    ∃ (t : Trace) (between : Tape) (runs : List Trace) (after : Tape),
      execute turnOnGreen noneAllowed column (fun _ => false) (⟨#[0.5], 0, false⟩ : Tape) =
        (.ok t, between) ∧
      reruns turnOnGreen noneAllowed column.window t.unpainted t.start (t.paintSlots turnOnGreen)
        (⟨#[0.5], 0, false⟩ : Tape) = (runs.map .ok, after) ∧ after.consumed = 1 ∧
      (runs.countP fun u => (u.assess noneAllowed).isPassed) = 2 ∧
      noneAllowed.Reportable t.unpainted ∧
      (countUnneeded turnOnGreen noneAllowed column.window t.unpainted t.start 0
        (t.paintSlots turnOnGreen) (⟨#[0.5], 0, false⟩ : Tape)).1 = .ok 1 ∧
      (t.evaluate turnOnGreen noneAllowed column.window
        (⟨#[0.5], 0, false⟩ : Tape)).1.failure? = some .unnecessaryPaint := by
  have evaluated : (execute turnOnGreen noneAllowed column (fun _ => false)
      (⟨#[0.5], 0, false⟩ : Tape)).1.toOption.any (fun t =>
        (t.assess noneAllowed).isPassed && !t.painted.isEmpty &&
          (t.unpainted.tile? t.start.position).isSome &&
          let made := reruns turnOnGreen noneAllowed column.window t.unpainted t.start
            (t.paintSlots turnOnGreen) (⟨#[0.5], 0, false⟩ : Tape)
          decide (made.2.consumed = 1 ∧ t.unpainted.width * t.unpainted.height < Verdict.rangeEnd ∧
            (made.1.countP fun r =>
              r.toOption.any fun u => (u.assess noneAllowed).isPassed) = 2)) = true := by
    decide +kernel
  obtain ⟨t, between, ran, tested⟩ := exists_ok_of_any evaluated
  simp only [Bool.and_eq_true, Bool.not_eq_true', decide_eq_true_eq] at tested
  obtain ⟨⟨⟨passed, painted⟩, standing⟩, drawn, cells, counted⟩ := tested
  have reportable := Config.reportable_of_passed ran passed (by decide +kernel) cells
  obtain ⟨runs, after, made, -, -, -, stopped, judged⟩ := unneeded_eq_min_reruns turnOnGreen
    noneAllowed column.window standing (t.paintSlots turnOnGreen) (⟨#[0.5], 0, false⟩ : Tape)
  rw [made] at drawn counted
  have passing : (runs.countP fun u => (u.assess noneAllowed).isPassed) = 2 := by
    rw [List.countP_map] at counted
    exact counted
  have stopped := stopped reportable
  obtain ⟨-, reported⟩ := (judged t rfl rfl rfl passed (by decide) painted).2 _ stopped
  rw [passing] at stopped reported
  refine ⟨t, between, runs, after, ran, made, drawn, passing, reportable, stopped,
    (reported ?_).mpr (by decide)⟩
  decide +kernel

/-! ## Silenced paints -/

theorem min_length_le_counted {p : Program} {c : Config} {window : Nat} {world : Grid} {start : Pose}
    {passing slots : List Slot} (among : passing.Sublist slots)
    (passes : ∀ slot ∈ passing,
      (passesWithout p c window world start slot : StateM σ _) = pure (.ok true))
    {found : Nat} (within : found ≤ c.maxUnneededPaints.toNat) {source : σ} {n : Nat}
    (counted : (countUnneeded p c window world start found slots source).1 = .ok n) :
    min (found + passing.length) (c.maxUnneededPaints.toNat + 1) ≤ n := by
  -- on how the passing slots lie among all of them; nothing is known of those in between
  induction among generalizing found source with
  | slnil =>
    cases counted
    exact Nat.min_le_left _ _
  | @cons _ rest slot _ ih =>
    rcases first : passesWithout p c window world start slot source with ⟨b | _ | _, after⟩
    · rw [countUnneeded_of_error first] at counted
      cases counted
    · rw [countUnneeded_of_needed first] at counted
      exact ih passes within counted
    · rw [countUnneeded_of_unneeded first] at counted
      split at counted
      · cases counted
        omega
      · have others := ih passes (show found + 1 ≤ _ by omega) counted
        omega
  | @cons_cons _ rest slot _ ih =>
    obtain ⟨here, later⟩ := List.forall_mem_cons.mp passes
    have first : passesWithout p c window world start slot source = (.ok true, source) :=
      congrFun here source
    rw [countUnneeded_of_unneeded first] at counted
    rw [List.length_cons]
    split at counted
    · cases counted
      omega
    · have others := ih later (show found + 1 ≤ _ by omega) counted
      omega

/-- Silencing paints that change nothing, in a run on the world that the run has left, is not noticed.
If the run passes it passes without each of them, and as far as the budget goes they are all counted. -/
theorem unnoticed_of_idle {p : Program} {c : Config} {s : Setting} {suppressed : Slot → Bool}
    {source after : σ} {t : Trace} (ran : execute p c s suppressed source = (.ok t, after)) :
    ∃ begun log,
      Trace.begin? (s.prepare c source).1.1 (s.prepare c source).1.2 = some begun ∧
      Logged ⟨p, c, suppressed, s.window⟩ (c.maxSteps * Run.fetchesPerStep) .root 0
        { trace := begun } (s.prepare c source).2 log t after ∧
      (∀ silenced : Slot → Bool, (∀ slot, suppressed slot = true → silenced slot = true) →
        (∀ e ∈ log, silenced e.slot = true → e.Idle) → ∀ (τ : Type) [RandomSource τ],
          (execute p c ⟨some t.unpainted, some t.start, s.window⟩ silenced : StateM τ _) =
            pure (.ok t)) ∧
      ((∀ slot, suppressed slot = false) → (t.assess c).isPassed = true →
        ∀ idle : List Slot, idle.Sublist (t.paintSlots p) →
          (∀ e ∈ log, e.slot ∈ idle → e.Idle) → ∀ (τ : Type) [RandomSource τ],
            (∀ slot ∈ idle, (passesWithout p c s.window t.unpainted t.start slot : StateM τ _) =
              pure (.ok true)) ∧
            ∀ other : τ,
              (∀ n, (countUnneeded p c s.window t.unpainted t.start 0 (t.paintSlots p) other).1 =
                .ok n → min idle.length (c.maxUnneededPaints.toNat + 1) ≤ n) ∧
              (c.maxSteps + 1 < Verdict.rangeEnd →
                t.unpainted.width * t.unpainted.height < Verdict.rangeEnd →
                  ∃ n, (countUnneeded p c s.window t.unpainted t.start 0 (t.paintSlots p) other).1 =
                    .ok n)) := by
  obtain ⟨begun, log, begins, logged⟩ := runFrom?_eq_some.mp (execute_eq_ok.mp ran)
  refine ⟨begun, log, begins, logged, fun silenced => execute_silenced begins logged, ?_⟩
  intro free passed idle among unchanged τ _
  have passes (slot : Slot) (mem : slot ∈ idle) :
      (passesWithout p c s.window t.unpainted t.start slot : StateM τ _) = pure (.ok true) := by
    refine passesWithout_of_idle begins logged free (fun e listed here => ?_) passed τ
    exact unchanged e listed (here ▸ mem)
  refine ⟨passes, fun other => ⟨fun n counted => ?_, fun steps cells => ?_⟩⟩
  · have enough := min_length_le_counted among passes (Nat.zero_le _) counted
    rwa [Nat.zero_add] at enough
  · exact exists_counted p s.window (standing_start_of_execute ran)
      (Config.reportable_of_passed ran passed steps cells) (t.paintSlots p) other

def threeSteps : Config :=
  { noUnneeded with slotsPerRoutine := ⟨3, 0, 0, 0, 0⟩, maxSteps := 3 }

def paintTwice : Program :=
  ⟨⟨[some ⟨.paint .green, none⟩, some ⟨.paint .green, some .green⟩, some ⟨.forward, none⟩],
    [], [], [], []⟩⟩

theorem unnoticed_paintTwice :
    ∃ (t : Trace) (after : Tape),
      execute paintTwice threeSteps twoRedCells (fun _ => false) (⟨#[0.5], 0, false⟩ : Tape) =
        (.ok t, after) ∧
      t.painted.isEmpty = false ∧ t.executed.contains ⟨.f1, 1⟩ = true ∧
      (execute paintTwice threeSteps ⟨some t.unpainted, some t.start, twoRedCells.window⟩
        (fun slot => slot == ⟨.f1, 1⟩) : StateM Tape _) = pure (.ok t) ∧
      (passesWithout paintTwice threeSteps twoRedCells.window t.unpainted t.start ⟨.f1, 1⟩ :
        StateM Tape _) = pure (.ok true) ∧
      ∃ n, (countUnneeded paintTwice threeSteps twoRedCells.window t.unpainted t.start 0
        (t.paintSlots paintTwice) after).1 = .ok n ∧ 1 ≤ n := by
  have evaluated : (execute paintTwice threeSteps twoRedCells (fun _ => false)
      (⟨#[0.5], 0, false⟩ : Tape)).1.toOption.any (fun t =>
        (t.assess threeSteps).isPassed && !t.painted.isEmpty && t.executed.contains ⟨.f1, 1⟩ &&
          decide ([⟨.f1, 1⟩].Sublist (t.paintSlots paintTwice) ∧
            t.unpainted.width * t.unpainted.height < Verdict.rangeEnd)) = true := by
    decide +kernel
  obtain ⟨t, after, ran, tested⟩ := exists_ok_of_any evaluated
  simp only [Bool.and_eq_true, Bool.not_eq_true', decide_eq_true_eq] at tested
  obtain ⟨⟨⟨passed, painted⟩, executed⟩, among, cells⟩ := tested
  obtain ⟨begun, log, -, logged, again, counted⟩ := unnoticed_of_idle ran
  have unchanged : ∀ e ∈ log, e.slot = ⟨.f1, 1⟩ → e.Idle :=
    logged.idle_of_waits (c := .green) rfl
  have same := again (fun slot => slot == ⟨.f1, 1⟩) (fun _ kept => absurd kept Bool.false_ne_true)
    (fun e mem here => unchanged e mem (eq_of_beq here)) Tape
  obtain ⟨passes, enough⟩ := counted (fun _ => rfl) passed [⟨.f1, 1⟩] among
    (fun e mem here => unchanged e mem (List.mem_singleton.mp here)) Tape
  obtain ⟨least, returns⟩ := enough after
  obtain ⟨n, made⟩ := returns (by decide +kernel) cells
  exact ⟨t, after, ran, painted, executed, same, passes _ List.mem_cons_self, n, made, least n made⟩

end GridRobot
