import GridRobot.Proofs.Decimal.Rational
import GridRobot.Proofs.Run.Revisits

namespace GridRobot

def Failure.order : List Failure := [
  .boundary, .loop, .coverage, .minTiles, .minBoundingBox, .minTurns, .density, .minStackDepth,
  .minSelfCalls, .minPathLength, .pathTraceRatio, .minConditionals, .minPaintRevisits]

inductive Comparison where
  | ends (terminal failing : Terminal) (steps : Nat)
  | atLeast (measured required : Nat)
  | atMost (measured allowed : Nat)
  | reaches (measured required : Float)

namespace Comparison

def Fails : Comparison → Prop
  | ends terminal failing _ => terminal = failing
  | atLeast measured required => measured < required
  | atMost measured allowed => allowed < measured
  | reaches measured required => measured < required

instance : (x : Comparison) → Decidable x.Fails
  | ends terminal failing _ => inferInstanceAs (Decidable (terminal = failing))
  | atLeast measured required => inferInstanceAs (Decidable (measured < required))
  | atMost measured allowed => inferInstanceAs (Decidable (allowed < measured))
  | reaches measured required => inferInstanceAs (Decidable (measured < required))

def verdict (f : Failure) : Comparison → Verdict
  | ends _ _ steps => .ofCounts f steps 0
  | atLeast measured bound | atMost measured bound => .ofCounts f measured bound
  | reaches measured required => .failed f measured required

def result (f : Failure) (x : Comparison) : Option Verdict :=
  if x.Fails then some (x.verdict f) else none

theorem isSome_result (f : Failure) (x : Comparison) : (x.result f).isSome = decide x.Fails := by
  by_cases fails : x.Fails <;> simp [result, fails]

/-- The figures that a failed check reports, the one measured on the failing side. Counts are on that
side themselves; so are the numbers that they are reported as, if the lesser has at most 53 bits. -/
def Reports : Comparison → Float → Float → Prop
  | ends _ _ steps, measured, required => measured = .ofNat steps ∧ required = .ofNat 0
  | atLeast count bound, measured, required =>
    measured = .ofNat count ∧ required = .ofNat bound ∧ count < bound ∧
      (count < 2 ^ 53 → measured < required)
  | atMost count bound, measured, required =>
    measured = .ofNat count ∧ required = .ofNat bound ∧ bound < count ∧
      (bound < 2 ^ 53 → required < measured)
  | reaches figure bound, measured, required =>
    measured = figure ∧ required = bound ∧ measured < required

theorem reports_of_fails {x : Comparison} (fails : x.Fails) {f g : Failure}
    {measured required : Float} (failed : x.verdict f = .failed g measured required) :
    g = f ∧ x.Reports measured required := by
  have counts {m n : Nat} (failed : Verdict.ofCounts f m n = .failed g measured required) :
      g = f ∧ measured = .ofNat m ∧ required = .ofNat n := by
    unfold Verdict.ofCounts at failed
    split at failed
    · cases failed
      exact ⟨rfl, rfl, rfl⟩
    · cases failed
  cases x with
  | ends => exact counts failed
  | atLeast =>
    obtain ⟨rfl, rfl, rfl⟩ := counts failed
    exact ⟨rfl, rfl, rfl, fails, Decimal.ofNat_lt_ofNat fails⟩
  | atMost =>
    obtain ⟨rfl, rfl, rfl⟩ := counts failed
    exact ⟨rfl, rfl, rfl, fails, Decimal.ofNat_lt_ofNat fails⟩
  | reaches =>
    cases failed
    exact ⟨rfl, rfl, rfl, fails⟩

end Comparison

/-- The same slots, and thresholds no harder to meet. -/
structure Config.Relaxes (d c : Config) : Prop where
  slots : d.slotsPerRoutine = c.slotsPerRoutine
  coverage : d.minCoverage ≤ c.minCoverage
  tiles : d.minTiles ≤ c.minTiles
  box : d.minBoundingBox ≤ c.minBoundingBox
  turns : d.minTurns ≤ c.minTurns
  dense : c.maxDenseTiles ≤ d.maxDenseTiles
  stackDepth : d.minStackDepth ≤ c.minStackDepth
  selfCalls : d.minSelfCalls ≤ c.minSelfCalls
  pathLength : d.minPathLength ≤ c.minPathLength
  retrace : d.minRetraceRatio ≤ c.minRetraceRatio
  conditionals : d.minConditionals ≤ c.minConditionals
  revisits : d.minPaintRevisits ≤ c.minPaintRevisits

theorem Config.Relaxes.totalSlots {d c : Config} (relaxes : d.Relaxes c) :
    d.totalSlots = c.totalSlots :=
  congrArg (fun slots : PerRoutine Nat => sum slots.toList) relaxes.slots

namespace Trace

def comparison (t : Trace) (c : Config) : Failure → Comparison
  | .boundary => .ends t.terminal .boundary t.steps
  | .loop => .ends t.terminal .loop t.steps
  | .coverage => .reaches (t.coverage c.totalSlots) c.minCoverage
  | .minTiles => .atLeast t.world.tileCount c.minTiles
  | .minBoundingBox =>
    .atLeast (max t.world.boundingBox.1 t.world.boundingBox.2) c.minBoundingBox
  | .minTurns => .atLeast t.turnPositions.size c.minTurns
  | .density => .atMost (t.world.denseCount Grid.denseThreshold) c.maxDenseTiles
  | .minStackDepth => .atLeast t.stackDepth c.minStackDepth
  | .minSelfCalls => .atLeast t.selfCalls.size c.minSelfCalls
  | .minPathLength => .atLeast t.pathLength c.minPathLength
  | .pathTraceRatio => .reaches (.ofNat (retraceLength t.start.heading t.path.toList))
    (c.minRetraceRatio * .ofNat c.totalSlots)
  | .minConditionals => .atLeast t.conditional.size c.minConditionals
  | .minPaintRevisits => .atLeast t.paintRevisits c.minPaintRevisits
  | .unnecessaryPaint | .other => .atLeast 0 0

/-- How many checks are passed before one fails. -/
def stage (t : Trace) (c : Config) : Nat :=
  (t.checks c).findIdx (·.isSome)

theorem checks_eq {t : Trace} (painted : 0 < t.paintRevisits → t.painted.isEmpty = false)
    (c : Config) :
    t.checks c = Failure.order.map fun f => (t.comparison c f).result f := by
  simp only [checks, revisits_lt_iff painted]
  rfl

theorem stage_eq {t : Trace} (painted : 0 < t.paintRevisits → t.painted.isEmpty = false)
    (c : Config) :
    t.stage c = Failure.order.findIdx fun f => (t.comparison c f).Fails := by
  rw [stage, checks_eq painted, List.findIdx_map]
  simp only [Function.comp_def, Comparison.isSome_result]

theorem fails_of_relaxes {c d : Config} (relaxes : d.Relaxes c) (t : Trace) {f : Failure}
    (fails : (t.comparison d f).Fails) : (t.comparison c f).Fails := by
  cases f with
  | boundary | loop | unnecessaryPaint | other => exact fails
  | coverage =>
    have fails : t.coverage d.totalSlots < d.minCoverage := fails
    rw [relaxes.totalSlots] at fails
    exact Decimal.lt_of_lt_of_le fails relaxes.coverage
  | minTiles => exact Nat.lt_of_lt_of_le fails relaxes.tiles
  | minBoundingBox => exact Nat.lt_of_lt_of_le fails relaxes.box
  | minTurns => exact Nat.lt_of_lt_of_le fails relaxes.turns
  | density => exact Nat.lt_of_le_of_lt relaxes.dense fails
  | minStackDepth => exact Nat.lt_of_lt_of_le fails relaxes.stackDepth
  | minSelfCalls => exact Nat.lt_of_lt_of_le fails relaxes.selfCalls
  | minPathLength => exact Nat.lt_of_lt_of_le fails relaxes.pathLength
  | pathTraceRatio =>
    have fails : Float.ofNat (retraceLength t.start.heading t.path.toList) <
      d.minRetraceRatio * .ofNat d.totalSlots := fails
    rw [relaxes.totalSlots] at fails
    exact Decimal.lt_mul_of_le (Decimal.nonneg_ofNat _) (Decimal.nonneg_ofNat _) relaxes.retrace fails
  | minConditionals => exact Nat.lt_of_lt_of_le fails relaxes.conditionals
  | minPaintRevisits => exact Nat.lt_of_lt_of_le fails relaxes.revisits

theorem stage_mono {c d : Config} (relaxes : d.Relaxes c) {t : Trace}
    (painted : 0 < t.paintRevisits → t.painted.isEmpty = false) : t.stage c ≤ t.stage d := by
  rw [stage_eq painted, stage_eq painted]
  refine List.findIdx_le_findIdx fun f _ fails => decide_eq_true ?_
  exact fails_of_relaxes relaxes t (of_decide_eq_true fails)

theorem findSome?_eq_bind {α β : Type} (f : α → Option β) (l : List α) :
    l.findSome? f = l[l.findIdx fun a => (f a).isSome]?.bind f := by
  induction l with
  | nil => rfl
  | cons x rest ih =>
    rw [List.findSome?_cons, List.findIdx_cons]
    cases found : f x with
    | none => exact ih
    | some b => exact found.symm

theorem assess_of_stage {t : Trace} (painted : 0 < t.paintRevisits → t.painted.isEmpty = false)
    (c : Config) :
    (t.assess c = .passed ∧ t.stage c = Failure.order.length) ∨
      ∃ f, Failure.order[t.stage c]? = some f ∧ (t.comparison c f).Fails ∧
        t.assess c = (t.comparison c f).verdict f := by
  have stopped := stage_eq painted c
  have judged : t.assess c =
      (Failure.order[t.stage c]?.bind fun f => (t.comparison c f).result f).getD .passed := by
    rw [assess, checks_eq painted, List.findSome?_map, Function.id_comp, findSome?_eq_bind]
    simp only [Comparison.isSome_result, stopped]
  cases found : Failure.order[t.stage c]? with
  | none =>
    have beyond := List.getElem?_eq_none_iff.mp found
    rw [found] at judged
    exact .inl ⟨judged, beyond.antisymm' (stopped ▸ List.findIdx_le_length)⟩
  | some f =>
    have first : Failure.order.find? (fun f => (t.comparison c f).Fails) = some f := by
      rw [List.find?_eq_getElem?_findIdx, ← stopped, found]
    have fails : (t.comparison c f).Fails := by simpa using List.find?_some first
    rw [found, Option.bind_some, Comparison.result, if_pos fails] at judged
    exact .inr ⟨f, rfl, fails, judged⟩

theorem evaluate_eq_assess {σ : Type} [RandomSource σ] (t : Trace) {c : Config}
    (off : c.maxUnneededPaints < 0) (p : Program) (window : Nat) (source : σ) :
    (t.evaluate p c window source).1 = t.assess c := by
  cases passed : (t.assess c).isPassed with
  | false => rw [evaluate_of_assess passed]
  | true =>
    rw [Verdict.eq_passed passed]
    exact evaluate_unexamined passed (fun examined => absurd examined.1 (Int.not_le.mpr off)) _ _ _

end Trace

/-- Relaxing the thresholds moves the check at which the examination of a run stops to no earlier
place. A failed check reports what it compares, the figure measured on the failing side. -/
theorem stage_le_of_relaxes {σ : Type} [RandomSource σ] {p : Program} {b : Config} {s : Setting}
    {suppressed : Slot → Bool} {source after : σ} {t : Trace}
    (ran : execute p b s suppressed source = (.ok t, after)) :
    (∀ c d : Config, d.Relaxes c → t.stage c ≤ t.stage d) ∧
      ∀ c : Config,
        (∀ (program : Program) (window : Nat) (other : σ), c.maxUnneededPaints < 0 →
          (t.evaluate program c window other).1 = t.assess c) ∧
        ((t.assess c = .passed ∧ t.stage c = Failure.order.length) ∨
          ∃ f, Failure.order[t.stage c]? = some f ∧ (t.comparison c f).Fails ∧
            t.assess c = (t.comparison c f).verdict f ∧
            ∀ g measured required, t.assess c = .failed g measured required →
              g = f ∧ (t.comparison c f).Reports measured required) := by
  obtain ⟨-, -, -, -, -, -, painted⟩ := revisits_of_execute ran
  refine ⟨fun c d relaxes => Trace.stage_mono relaxes painted, fun c => ⟨?_, ?_⟩⟩
  · exact fun program window other off => t.evaluate_eq_assess off program window other
  rcases Trace.assess_of_stage painted c with all | ⟨f, found, fails, judged⟩
  · exact .inl all
  · refine .inr ⟨f, found, fails, judged, fun g measured required failed => ?_⟩
    exact Comparison.reports_of_fails fails (judged.symm.trans failed)

def oneTurn : Config :=
  { twoRevisits with minTurns := 1, minPaintRevisits := 3 }

theorem stage_paintAndReturn :
    ∃ t after, execute paintAndReturn twoRevisits twoRedCells (fun _ => false)
        (⟨#[0.5], 0, false⟩ : Tape) = (.ok t, after) ∧
      twoRevisits.Relaxes oneTurn ∧ t.stage oneTurn ≤ t.stage twoRevisits ∧
      t.stage oneTurn = 5 ∧ t.stage twoRevisits = 12 ∧
      ∃ measured required,
        (t.evaluate paintAndReturn oneTurn twoRedCells.window after).1 =
          .failed .minTurns measured required ∧ measured < required := by
  have evaluated : (execute paintAndReturn twoRevisits twoRedCells (fun _ => false)
      (⟨#[0.5], 0, false⟩ : Tape)).1.toOption.any (fun t =>
        decide (t.stage oneTurn = 5 ∧ t.stage twoRevisits = 12 ∧ t.turnPositions.size = 0)) =
          true := by
    decide +kernel
  obtain ⟨t, after, ran, tested⟩ := exists_ok_of_any evaluated
  obtain ⟨strict, loose, straight⟩ := of_decide_eq_true tested
  have relaxes : twoRevisits.Relaxes oneTurn := by
    constructor <;> decide +kernel
  obtain ⟨later, judged⟩ := stage_le_of_relaxes ran
  obtain ⟨unexamined, ⟨-, all⟩ | ⟨f, found, -, verdict, reports⟩⟩ := judged oneTurn
  · rw [strict] at all
    cases all
  rw [strict] at found
  cases found
  have reportable : 0 < Verdict.rangeEnd ∧ oneTurn.minTurns < Verdict.rangeEnd := by
    decide +kernel
  have failed : t.assess oneTurn = .failed .minTurns (.ofNat 0) (.ofNat oneTurn.minTurns) := by
    rw [verdict, Trace.comparison, Comparison.verdict, straight, Verdict.ofCounts, if_pos reportable]
  obtain ⟨-, -, -, -, less⟩ := reports _ _ _ failed
  rw [straight] at less
  refine ⟨t, after, ran, relaxes, later _ _ relaxes, strict, loose, _, _, ?_, less (by decide)⟩
  rw [unexamined paintAndReturn twoRedCells.window after (by decide), failed]

end GridRobot
