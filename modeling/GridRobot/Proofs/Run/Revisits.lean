import GridRobot.Proofs.Run.Necessity
import GridRobot.Proofs.Run.Paving
import GridRobot.Proofs.Run.Suppression

namespace GridRobot

theorem ArrivalMap.isSome_get? {κ : Type u} {α : Type v} [DecidableEq κ] (m : ArrivalMap κ α)
    (k : κ) : (m.get? k).isSome = m.contains k := by
  simp only [get?, contains, Option.isSome_map, List.isSome_find?]

namespace Event

abbrev position (e : Event) : Position :=
  e.before.trace.final.position

def Repaints (e : Event) (q : Position) : Prop :=
  e.instruction.action.isPaint = true ∧ e.position = q ∧
    e.after.trace.world.color? q ≠ e.before.trace.world.color? q

def Departs (e : Event) (q : Position) : Prop :=
  e.instruction.action = .forward ∧ e.position = q

def PaintedAndLeft (past : List Event) (q : Position) : Prop :=
  ∃ paint forward, [paint, forward].Sublist past ∧ paint.Repaints q ∧ forward.Departs q

def Revisits (e : Event) (past : List Event) : Prop :=
  e.instruction.condition.isSome = true ∧ PaintedAndLeft past e.position

instance (e : Event) (q : Position) : Decidable (e.Repaints q) :=
  inferInstanceAs (Decidable (_ ∧ _ ∧ _))

instance (e : Event) (q : Position) : Decidable (e.Departs q) :=
  inferInstanceAs (Decidable (_ ∧ _))

theorem paintedAndLeft_iff {past : List Event} {q : Position} :
    PaintedAndLeft past q ↔
      ¬ past.Pairwise fun paint forward => ¬ (paint.Repaints q ∧ forward.Departs q) := by
  simp only [List.pairwise_iff_forall_sublist, PaintedAndLeft, not_forall, not_not, exists_prop]

instance (past : List Event) (q : Position) : Decidable (PaintedAndLeft past q) :=
  decidable_of_iff' _ paintedAndLeft_iff

instance (e : Event) (past : List Event) : Decidable (e.Revisits past) :=
  inferInstanceAs (Decidable (_ ∧ _))

theorem paintedAndLeft_concat {past : List Event} {e : Event} {q : Position} :
    PaintedAndLeft (past ++ [e]) q ↔
      PaintedAndLeft past q ∨ (∃ paint ∈ past, paint.Repaints q) ∧ e.Departs q := by
  simp only [paintedAndLeft_iff, List.pairwise_append, List.pairwise_singleton, true_and,
    List.mem_singleton, forall_eq]
  grind

def revisitsAfter (past : List Event) : List Event → Nat
  | [] => 0
  | e :: rest => (if e.Revisits past then 1 else 0) + revisitsAfter (past ++ [e]) rest

theorem revisitsAfter_le (past log : List Event) : revisitsAfter past log ≤ log.length := by
  induction log generalizing past with
  | nil => exact Nat.le_refl 0
  | cons e rest ih =>
    have later := ih (past ++ [e])
    rw [revisitsAfter, List.length_cons]
    split <;> omega

end Event

/-! ## What one instruction does to the record -/

theorem Trace.paintRevisits_record {t : Trace} {i : Instruction} {departed : List Position}
    (agrees : ∀ c, i.condition = some c → t.final.position ∈ departed →
      t.painted.get? t.final.position = some c) (slot : Slot) :
    (t.record slot i departed).paintRevisits =
      t.paintRevisits +
        if i.condition.isSome = true ∧ t.final.position ∈ departed then 1 else 0 := by
  unfold record
  cases condition : i.condition with
  | none => rfl
  | some c =>
    by_cases left : t.final.position ∈ departed
    · simp [left, agrees c condition left]
    · simp [left]

theorem Trace.contains_painted_paint (t : Trace) (c : Color) (q : Position) :
    (t.paint c).painted.contains q = true ↔
      t.painted.contains q = true ∨
        t.final.position = q ∧ (t.paint c).world.color? q ≠ t.world.color? q := by
  cases here : t.here with
  | none => simp [paint, here]
  | some tile =>
    have shown : t.world.color? t.final.position = some tile.color := Grid.color?_of_tile? here
    by_cases same : tile.color = some c
    · rw [paint_eq here, if_pos same]
      simp
    · rw [Grid.color?, tile?_paint here, paint_eq here, if_neg same]
      dsimp only
      rw [ArrivalMap.insert, ArrivalMap.contains_alter, or_comm]
      refine or_congr_right ⟨?_, fun known => known.1.symm⟩
      rintro rfl
      rw [if_pos rfl, shown]
      exact ⟨rfl, fun changed => same (Option.some.inj changed).symm⟩

section Effect

variable {rules : Rules} {r : Run} {slot : Slot} {action : Action} {drawn : Option Color}
  {progress : Progress}

theorem Effect.keeps_paints (effect : Effect rules r slot action drawn progress) :
    progress.trace.paintRevisits = r.trace.paintRevisits ∧
      (action.isPaint = false → progress.trace.painted = r.trace.painted) := by
  cases effect with
  | boundary | call | noop | other => exact ⟨rfl, fun _ => rfl⟩
  | move =>
    obtain ⟨turning, terminal, came⟩ :=
      Run.trace_arrive rules (r.departing rules slot) r.trace.ahead
    rw [came]
    exact ⟨rfl, fun _ => rfl⟩
  | pave c =>
    obtain ⟨turning, terminal, came⟩ :=
      Run.trace_arrive rules (r.paving rules slot c) r.trace.ahead
    rw [came]
    exact ⟨rfl, fun _ => rfl⟩
  | turn t =>
    obtain ⟨terminal, same⟩ := Run.trace_turn rules r t
    rw [same]
    exact ⟨rfl, fun _ => rfl⟩
  | paint c =>
    obtain ⟨world, visited, painted, same, -⟩ := Run.paint_frame rules r slot c
    rw [same]
    exact ⟨rfl, nofun⟩

theorem Effect.contains_painted (effect : Effect rules r slot action drawn progress) (q : Position) :
    progress.trace.painted.contains q = true ↔
      r.trace.painted.contains q = true ∨
        action.isPaint = true ∧ r.trace.final.position = q ∧
          progress.trace.world.color? q ≠ r.trace.world.color? q := by
  cases paints : action.isPaint with
  | false =>
    rw [effect.keeps_paints.2 paints]
    simp
  | true =>
    rw [and_iff_right rfl]
    cases effect with
    | paint c =>
      change (r.paint rules slot c).trace.painted.contains q = true ↔
        _ ∨ _ ∧ (r.paint rules slot c).trace.world.color? q ≠ _
      unfold Run.paint
      split
      · simp
      · exact r.trace.contains_painted_paint c q
    | _ => cases paints

theorem Effect.mem_departed {next : Run} (effect : Effect rules r slot action drawn (.running next))
    (q : Position) :
    q ∈ next.departed ↔ q ∈ r.departed ∨
      r.trace.painted.contains q = true ∧ action = .forward ∧ r.trace.final.position = q := by
  have left : q ∈ (r.departing rules slot).departed ↔ q ∈ r.departed ∨
      r.trace.painted.contains q = true ∧ r.trace.final.position = q := by
    unfold Run.departing
    dsimp only
    split
    · rename_i fresh
      rw [Bool.and_eq_true] at fresh
      rw [List.mem_cons, or_comm]
      refine or_congr_right ⟨?_, fun known => known.2.symm⟩
      rintro rfl
      exact ⟨fresh.1, rfl⟩
    · -- a position is entered once
      rename_i known
      constructor
      · exact .inl
      · rintro (before | ⟨painted, rfl⟩)
        · exact before
        · by_contra apart
          exact known (by simp [painted, apart])
  generalize went : Progress.running next = progress at effect
  cases effect with
  | boundary => cases went
  | move =>
    obtain ⟨-, rfl⟩ := Run.unlessBack_eq_running went.symm
    rw [and_iff_right rfl]
    exact left
  | pave =>
    obtain ⟨-, rfl⟩ := Run.unlessBack_eq_running went.symm
    rw [and_iff_right rfl]
    exact left
  | turn t =>
    obtain ⟨-, rfl⟩ := Run.unlessBack_eq_running went.symm
    simp
  | paint c =>
    cases went
    obtain ⟨world, visited, painted, same, -⟩ := Run.paint_frame rules r slot c
    rw [same]
    simp
  | call | noop | other =>
    cases went
    simp [Run.call]

end Effect

/-- What a run knows of the paints and the forwards before. -/
structure Trace.Remembers (t : Trace) (departed : List Position) (past : List Event) : Prop where
  painted : ∀ q, t.painted.contains q = true ↔ ∃ paint ∈ past, paint.Repaints q
  left : ∀ q, q ∈ departed ↔ Event.PaintedAndLeft past q

theorem Trace.remembers_begin {world : Grid} {start : Pose} {t : Trace}
    (begun : begin? world start = some t) : t.Remembers [] [] := by
  obtain ⟨tile, here, rfl⟩ := begin?_eq_some begun
  constructor
  · intro q
    exact iff_of_false (by rintro ⟨⟩) (by simp)
  · intro q
    exact iff_of_false List.not_mem_nil (by simp [Event.PaintedAndLeft])

theorem Trace.Tinted.get?_painted {t : Trace} (tinted : t.Tinted) {i : Instruction}
    (runs : i.runsOn t.here = true) (painted : t.painted.contains t.final.position = true) {c : Color}
    (condition : i.condition = some c) : t.painted.get? t.final.position = some c := by
  obtain ⟨d, paint⟩ := Option.isSome_iff_exists.mp ((t.painted.isSome_get? _).trans painted)
  -- the robot stands on the tile, whose colour is the paint's
  have seen := Instruction.color_of_runsOn runs condition
  rw [Trace.here, tinted.shown, paint, Option.map_map] at seen
  obtain ⟨tile, -, same⟩ := Option.map_eq_some_iff.mp seen
  exact paint.trans same

namespace Trace.Remembers

variable {rules : Rules} {r : Run} {slot : Slot} {i : Instruction} {drawn : Option Color}
  {progress : Progress} {past : List Event}

theorem agrees (remembers : r.trace.Remembers r.departed past) (tinted : r.trace.Tinted)
    (runs : i.runsOn r.trace.here = true) (c : Color) (condition : i.condition = some c)
    (left : r.trace.final.position ∈ r.departed) :
    r.trace.painted.get? r.trace.final.position = some c := by
  obtain ⟨paint, forward, earlier, repaints, -⟩ := (remembers.left _).mp left
  have mem : paint ∈ past := earlier.subset List.mem_cons_self
  exact tinted.get?_painted runs ((remembers.painted _).mpr ⟨paint, mem, repaints⟩) condition

variable (dispatched : Dispatch rules r slot i drawn progress)
  (remembers : r.trace.Remembers r.departed past) (origin : CallStack) (skipped : Nat)

include dispatched remembers

theorem paintRevisits (tinted : r.trace.Tinted) (runs : i.runsOn r.trace.here = true) :
    progress.trace.paintRevisits = r.trace.paintRevisits +
      if (Event.mk slot i origin skipped r progress).Revisits past then 1 else 0 := by
  have recorded := Trace.paintRevisits_record (remembers.agrees tinted runs) slot
  simp only [remembers.left] at recorded
  refine Eq.trans ?_ recorded
  cases dispatched with
  | earlyExit => rfl
  | act _ effect => exact effect.keeps_paints.1

theorem contains_painted (q : Position) : progress.trace.painted.contains q = true ↔
    ∃ paint ∈ past ++ [Event.mk slot i origin skipped r progress], paint.Repaints q := by
  have recorded : progress.trace.painted.contains q = true ↔ r.trace.painted.contains q = true ∨
      (Event.mk slot i origin skipped r progress).Repaints q := by
    cases dispatched with
    | earlyExit => simp [Event.Repaints, Trace.painted_record]
    | act _ effect =>
      have painted := effect.contains_painted q
      simpa [Event.Repaints, Trace.painted_record] using painted
  rw [recorded, remembers.painted]
  simp [or_and_right, exists_or]

end Trace.Remembers

theorem Dispatch.remembers {rules : Rules} {r next : Run} {slot : Slot} {i : Instruction}
    {drawn : Option Color} {past : List Event}
    (dispatched : Dispatch rules r slot i drawn (.running next))
    (remembers : r.trace.Remembers r.departed past) (origin : CallStack) (skipped : Nat) :
    next.trace.Remembers next.departed (past ++ [⟨slot, i, origin, skipped, r, .running next⟩]) where
  painted := remembers.contains_painted dispatched origin skipped
  left q := by
    rw [Event.paintedAndLeft_concat, ← remembers.left, ← remembers.painted]
    cases dispatched with
    | act _ effect =>
      have left := effect.mem_departed q
      simpa [Event.Departs, Trace.painted_record] using left

/-! ## Whole runs -/

theorem Event.exists_repaints {past log : List Event} (positive : 0 < revisitsAfter past log) :
    ∃ paint ∈ past ++ log, ∃ q, paint.Repaints q := by
  induction log generalizing past with
  | nil => cases positive
  | cons e rest ih =>
    by_cases revisits : e.Revisits past
    · obtain ⟨-, paint, forward, earlier, repaints, -⟩ := revisits
      exact ⟨paint, List.mem_append_left _ (earlier.subset List.mem_cons_self), _, repaints⟩
    · rw [revisitsAfter, if_neg revisits, Nat.zero_add] at positive
      have found := ih positive
      rwa [List.append_assoc] at found

variable {σ : Type} [RandomSource σ]

/-- The list of positions that were painted and left is up to date throughout the run, and so is the
map of paints, whose colours the tiles show. -/
theorem Logged.revisits {rules : Rules} {n : Nat} {origin : CallStack} {skipped : Nat} {r : Run}
    {source after : σ} {log past : List Event} {t : Trace}
    (logged : Logged rules n origin skipped r source log t after) (grounded : r.trace.Grounded)
    (traced : r.trace.Traced) (walked : r.trace.Walked) (tinted : r.trace.Tinted)
    (remembers : r.trace.Remembers r.departed past) :
    t.paintRevisits = r.trace.paintRevisits + Event.revisitsAfter past log ∧
      (∀ q, t.painted.contains q = true ↔ ∃ paint ∈ past ++ log, paint.Repaints q) ∧
      ∀ e ∈ log, ∀ c, e.instruction.condition = some c → e.position ∈ e.before.departed →
        e.before.trace.painted.get? e.position = some c := by
  induction logged generalizing past with
  | exhausted | spent =>
    rw [List.append_nil]
    exact ⟨rfl, remembers.painted, List.forall_mem_nil _⟩
  | passed _ _ _ ih => exact ih grounded traced walked tinted remembers
  | ended _ fetched dispatched =>
    have runs := CallStack.runsOn_of_next fetched
    refine ⟨?_, remembers.contains_painted dispatched _ _,
      List.forall_mem_singleton.mpr (remembers.agrees tinted runs)⟩
    exact remembers.paintRevisits dispatched _ _ tinted runs
  | @executed n origin stack skipped r next source between after slot i drawn log t left fetched
      dispatched draws rest ih =>
    have runs := CallStack.runsOn_of_next fetched
    obtain ⟨counted, painted, agrees⟩ := ih (dispatched.grounded grounded)
      (dispatched.extension traced).traced (dispatched.walked grounded traced walked)
      (dispatched.tinted grounded traced walked tinted) (dispatched.remembers remembers origin skipped)
    have before := remembers.paintRevisits dispatched origin skipped tinted runs
    rw [List.append_assoc] at painted
    refine ⟨?_, painted, List.forall_mem_cons.mpr ⟨remembers.agrees tinted runs, agrees⟩⟩
    rw [counted, Event.revisitsAfter, ← Nat.add_assoc]
    exact congrArg (· + _) before

namespace Trace

theorem revisits_lt_iff {t : Trace} (painted : 0 < t.paintRevisits → t.painted.isEmpty = false)
    (c : Config) :
    (0 < c.minPaintRevisits ∧
      (t.painted.isEmpty = true ∨ t.paintRevisits < c.minPaintRevisits)) ↔
        t.paintRevisits < c.minPaintRevisits := by
  constructor
  · rintro ⟨positive, bare | below⟩
    · by_contra enough
      rw [painted (by omega)] at bare
      cases bare
    · exact below
  · exact fun below => ⟨by omega, .inr below⟩

theorem getLast?_checks {t : Trace} (painted : 0 < t.paintRevisits → t.painted.isEmpty = false)
    (c : Config) : (t.checks c).getLast? =
      some (belowCount .minPaintRevisits t.paintRevisits c.minPaintRevisits) := by
  unfold checks belowCount
  simp only [List.getLast?_cons_cons, List.getLast?_singleton, revisits_lt_iff painted]

theorem assess_of_dropLast {t : Trace} {c : Config} {last : Option Verdict}
    (others : ∀ check ∈ (t.checks c).dropLast, check = none)
    (final : (t.checks c).getLast? = some last) : t.assess c = last.getD .passed := by
  have split := List.dropLast_append_getLast? last final
  have passed : (t.checks c).dropLast.findSome? id = none := by simpa using others
  rw [assess, ← split, List.findSome?_append, passed]
  cases last <;> rfl

theorem failure?_assess {t : Trace} {c : Config}
    (painted : 0 < t.paintRevisits → t.painted.isEmpty = false)
    (others : ∀ check ∈ (t.checks c).dropLast, check = none)
    (reportable : c.minPaintRevisits < Verdict.rangeEnd) :
    (t.assess c).failure? = some .minPaintRevisits ↔ t.paintRevisits < c.minPaintRevisits := by
  rw [assess_of_dropLast others (getLast?_checks painted c), belowCount]
  by_cases few : t.paintRevisits < c.minPaintRevisits
  · have measured : t.paintRevisits < Verdict.rangeEnd := Nat.lt_trans few reportable
    rw [if_pos few, Option.getD_some, Verdict.ofCounts, if_pos ⟨measured, reportable⟩]
    exact iff_of_true rfl few
  · rw [if_neg few]
    refine iff_of_false (fun failed => ?_) few
    cases failed

end Trace

/-- The revisits that a run counts are those of its log; the colour that it remembers is the one that the
instruction waits for. So it takes a paint to count one. -/
structure Revisited (p : Program) (c : Config) (s : Setting) (suppressed : Slot → Bool) (source : σ)
    (begun : Trace) (log : List Event) (t : Trace) (after : σ) : Prop where
  begins : Trace.begin? (s.prepare c source).1.1 (s.prepare c source).1.2 = some begun
  logged : Logged ⟨p, c, suppressed, s.window⟩ (c.maxSteps * Run.fetchesPerStep) .root 0
    { trace := begun } (s.prepare c source).2 log t after
  counted : t.paintRevisits = Event.revisitsAfter [] log
  agrees : ∀ e ∈ log, ∀ color, e.instruction.condition = some color →
    e.position ∈ e.before.departed → e.before.trace.painted.get? e.position = some color
  painted : 0 < t.paintRevisits → t.painted.isEmpty = false

/-- The last check is the one for revisits, and it fails just if there are too few. -/
structure Trace.JudgesRevisits (t : Trace) (p : Program) (judge : Config) (σ : Type) [RandomSource σ] :
    Prop where
  last : (t.checks judge).getLast? =
    some (Trace.belowCount .minPaintRevisits t.paintRevisits judge.minPaintRevisits)
  fails : (∀ check ∈ (t.checks judge).dropLast, check = none) →
    judge.minPaintRevisits < Verdict.rangeEnd → ∀ (window : Nat) (other : σ),
      ((t.evaluate p judge window other).1.failure? = some .minPaintRevisits ↔
        t.paintRevisits < judge.minPaintRevisits)

theorem revisits_of_execute {p : Program} {c : Config} {s : Setting} {suppressed : Slot → Bool}
    {source after : σ} {t : Trace} (ran : execute p c s suppressed source = (.ok t, after)) :
    ∃ begun log, Revisited p c s suppressed source begun log t after := by
  obtain ⟨begun, log, begins, logged⟩ := runFrom?_eq_some.mp (execute_eq_ok.mp ran)
  have grounded := Trace.grounded_begin begins
  have traced := Trace.traced_begin begins
  have walked := Trace.walked_begin begins
  have tinted := Trace.tinted_begin begins
  have remembers := Trace.remembers_begin begins
  obtain ⟨tile, here, rfl⟩ := Trace.begin?_eq_some begins
  obtain ⟨counted, painted, agrees⟩ := logged.revisits grounded traced walked tinted remembers
  rw [Nat.zero_add] at counted
  refine ⟨_, log, begins, logged, counted, agrees, ?_⟩
  rw [counted]
  intro positive
  obtain ⟨paint, mem, q, repaints⟩ := Event.exists_repaints positive
  have known := (painted q).mpr ⟨paint, mem, repaints⟩
  rw [ArrivalMap.contains, List.any_eq_true] at known
  obtain ⟨entry, mem, -⟩ := known
  exact List.isEmpty_eq_false_iff.mpr (List.ne_nil_of_mem mem)

/-- A run counts its revisits, and every judge goes by the count. -/
theorem paintRevisits_of_execute {p : Program} {c : Config} {s : Setting} {suppressed : Slot → Bool}
    {source after : σ} {t : Trace} (ran : execute p c s suppressed source = (.ok t, after)) :
    ∃ begun log, Revisited p c s suppressed source begun log t after ∧
      ∀ judge : Config, t.JudgesRevisits p judge σ := by
  obtain ⟨begun, log, revisited⟩ := revisits_of_execute ran
  have painted := revisited.painted
  refine ⟨begun, log, revisited, fun judge => ⟨Trace.getLast?_checks painted judge, ?_⟩⟩
  intro others reportable window other
  rw [Trace.failure?_evaluate (by decide)]
  exact Trace.failure?_assess painted others reportable

def twoRevisits : Config where
  slotsPerRoutine := ⟨6, 0, 0, 0, 0⟩
  maxSteps := 6
  minCoverage := 0
  minTiles := 0
  minBoundingBox := 0
  minTurns := 0
  maxAverageExecutions := 1000
  minRetraceRatio := 0
  minPathLength := 1
  minPaintRevisits := 2

def paintAndReturn : Program :=
  ⟨⟨[some ⟨.paint .green, none⟩, some ⟨.forward, none⟩, some ⟨.turn .right, none⟩,
    some ⟨.turn .right, none⟩, some ⟨.forward, none⟩, some ⟨.turn .left, some .green⟩],
    [], [], [], []⟩⟩

theorem paintRevisits_paintAndReturn :
    ∃ t after, execute paintAndReturn twoRevisits twoRedCells (fun _ => false)
        (⟨#[0.5], 0, false⟩ : Tape) = (.ok t, after) ∧
      t.paintRevisits = 1 ∧ t.painted.isEmpty = false ∧
      (∃ begun log, Logged ⟨paintAndReturn, twoRevisits, fun _ => false, twoRedCells.window⟩
        (twoRevisits.maxSteps * Run.fetchesPerStep) .root 0 { trace := begun }
        (⟨#[0.5], 0, false⟩ : Tape) log t after ∧ Event.revisitsAfter [] log = 1) ∧
      (t.evaluate paintAndReturn twoRevisits twoRedCells.window after).1.failure? =
        some .minPaintRevisits := by
  have evaluated : (execute paintAndReturn twoRevisits twoRedCells (fun _ => false)
      (⟨#[0.5], 0, false⟩ : Tape)).1.toOption.any (fun t =>
        decide (t.paintRevisits = 1) &&
          (t.checks twoRevisits).dropLast.all (·.isNone)) = true := by
    decide +kernel
  obtain ⟨t, after, ran, tested⟩ := exists_ok_of_any evaluated
  simp only [Bool.and_eq_true, decide_eq_true_eq, List.all_eq_true, Option.isNone_iff_eq_none]
    at tested
  obtain ⟨one, others⟩ := tested
  obtain ⟨begun, log, revisited, judged⟩ := paintRevisits_of_execute ran
  have below := (judged twoRevisits).fails others (by decide +kernel) twoRedCells.window after
  have counted := revisited.counted
  have painted := revisited.painted
  rw [one] at counted painted
  refine ⟨t, after, ran, one, painted (by decide), ⟨begun, log, revisited.logged, counted.symm⟩,
    below.mpr ?_⟩
  rw [one]
  decide

end GridRobot
