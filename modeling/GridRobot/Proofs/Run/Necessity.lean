import GridRobot.Proofs.Grid.Layout
import GridRobot.Proofs.Run.Replay

namespace GridRobot

variable {σ : Type} [RandomSource σ]

def countPassing (p : Program) (c : Config) (window : Nat) (world : Grid) (start : Pose) :
    List Slot → StateM σ (Except Breakdown Nat)
  | [] => return .ok 0
  | slot :: rest => do
    match ← passesWithout p c window world start slot with
    | .error b => return .error b
    | .ok passes =>
      let others ← countPassing p c window world start rest
      return others.map fun n => if passes then n + 1 else n

section Counting

variable {p : Program} {c : Config} {window : Nat} {world : Grid} {start : Pose} {slot : Slot}
  {source after : σ}

theorem countPassing_of_error {b : Breakdown}
    (first : passesWithout p c window world start slot source = (.error b, after))
    (rest : List Slot) :
    countPassing p c window world start (slot :: rest) source = (.error b, after) := by
  rw [countPassing, bind_apply, first]
  rfl

theorem countPassing_of_needed
    (first : passesWithout p c window world start slot source = (.ok false, after))
    (rest : List Slot) :
    countPassing p c window world start (slot :: rest) source =
      countPassing p c window world start rest after := by
  rw [countPassing, bind_apply, first]
  dsimp only
  rw [bind_apply]
  rcases countPassing p c window world start rest after with ⟨b | n, last⟩ <;> rfl

theorem countPassing_of_unneeded
    (first : passesWithout p c window world start slot source = (.ok true, after))
    (rest : List Slot) :
    countPassing p c window world start (slot :: rest) source =
      ((countPassing p c window world start rest after).1.map (· + 1),
        (countPassing p c window world start rest after).2) := by
  rw [countPassing, bind_apply, first]
  rfl

theorem countUnneeded_of_error {b : Breakdown}
    (first : passesWithout p c window world start slot source = (.error b, after)) (found : Nat)
    (rest : List Slot) :
    countUnneeded p c window world start found (slot :: rest) source = (.error b, after) := by
  rw [countUnneeded, bind_apply, first]
  rfl

theorem countUnneeded_of_needed
    (first : passesWithout p c window world start slot source = (.ok false, after)) (found : Nat)
    (rest : List Slot) :
    countUnneeded p c window world start found (slot :: rest) source =
      countUnneeded p c window world start found rest after := by
  rw [countUnneeded, bind_apply, first]

theorem countUnneeded_of_unneeded
    (first : passesWithout p c window world start slot source = (.ok true, after)) (found : Nat)
    (rest : List Slot) :
    countUnneeded p c window world start found (slot :: rest) source =
      if c.maxUnneededPaints < (found + 1 : Nat) then (.ok (found + 1), after)
      else countUnneeded p c window world start (found + 1) rest after := by
  rw [countUnneeded, bind_apply, first]
  dsimp only
  split <;> rfl

/-- What stopping at the budget makes of a full count, `found` slots being counted already. Past the
budget the re-run that breaks the full count off need not be made. -/
def Config.Curbs (c : Config) (found : Nat) (all curbed : Except Breakdown Nat) : Prop :=
  match all with
  | .ok n => curbed = .ok (min (found + n) (c.maxUnneededPaints.toNat + 1))
  | .error b => curbed = .error b ∨ curbed = .ok (c.maxUnneededPaints.toNat + 1)

variable (p c window world start)

theorem countUnneeded_curbs {found : Nat} (within : found ≤ c.maxUnneededPaints.toNat)
    (slots : List Slot) (source : σ) :
    c.Curbs found (countPassing p c window world start slots source).1
      (countUnneeded p c window world start found slots source).1 := by
  induction slots generalizing found source with
  | nil =>
    change Except.ok found = .ok (min (found + 0) (c.maxUnneededPaints.toNat + 1))
    rw [Nat.min_eq_left (by omega)]
    rfl
  | cons slot rest ih =>
    cases first : passesWithout p c window world start slot source with
    | mk passes after =>
      rcases passes with b | _ | _
      · rw [countPassing_of_error first, countUnneeded_of_error first]
        exact .inl rfl
      · rw [countPassing_of_needed first, countUnneeded_of_needed first]
        exact ih within after
      · rw [countPassing_of_unneeded first, countUnneeded_of_unneeded first]
        by_cases past : c.maxUnneededPaints < (found + 1 : Nat)
        · have last : found + 1 = c.maxUnneededPaints.toNat + 1 := by omega
          rw [if_pos past, last]
          cases (countPassing p c window world start rest after).1 with
          | error b => exact .inr rfl
          | ok n =>
            change Except.ok _ = .ok (min (found + (n + 1)) (c.maxUnneededPaints.toNat + 1))
            rw [Nat.min_eq_right (by omega)]
        · rw [if_neg past]
          have later := @ih (found + 1) (by omega) after
          cases all : (countPassing p c window world start rest after).1 with
          | error b => rwa [all] at later
          | ok n =>
            rw [all] at later
            change _ = Except.ok (min (found + (n + 1)) (c.maxUnneededPaints.toNat + 1))
            rw [later, Nat.add_right_comm, Nat.add_assoc]

end Counting

theorem Verdict.eq_passed {v : Verdict} (passed : v.isPassed = true) : v = .passed := by
  cases v with
  | passed => rfl
  | failed | broken => cases passed

theorem Verdict.passes_of_isPassed {v : Verdict} (passed : v.isPassed = true) : v.passes = .ok true := by
  rw [eq_passed passed]
  rfl

@[simp]
theorem Verdict.isPassed_ofCounts (f : Failure) (measured required : Nat) :
    (ofCounts f measured required).isPassed = false := by
  unfold ofCounts
  split <;> rfl

theorem Verdict.failure?_ofCounts {f g : Failure} {measured required : Nat}
    (failed : (ofCounts f measured required).failure? = some g) : g = f := by
  unfold ofCounts at failed
  split at failed
  · exact (Option.some.inj failed).symm
  · cases failed

namespace Trace

theorem assess_onto (t : Trace) {world : Grid} (same : world.SameColors t.world) (unpainted : Grid)
    (recent : List Slot) (c : Config) : (t.onto world unpainted recent).assess c = t.assess c := by
  have tiles := Grid.tileCount_congr same.mask_eq
  have box := Grid.boundingBox_congr same.mask_eq same.width
  have dense := Grid.denseCount_congr same.mask_eq same.width
  simp only [assess, checks, onto, tiles, box, dense]
  rfl

theorem Matches.assess_eq {t u : Trace} (matched : t.Matches u) (c : Config) :
    u.assess c = t.assess c := by
  rw [matched.observed]
  exact t.assess_onto matched.colors _ _ c

/-! ## Passing the checks -/

theorem belowCount_eq_none {f : Failure} {measured required : Nat} :
    belowCount f measured required = none ↔ required ≤ measured := by
  simp [belowCount]

theorem aboveCount_eq_none {f : Failure} {measured allowed : Nat} :
    aboveCount f measured allowed = none ↔ measured ≤ allowed := by
  simp [aboveCount]

theorem below_eq_none {f : Failure} {measured required : Float} :
    below f measured required = none ↔ ¬ measured < required := by
  simp [below]

theorem isPassed_of_checks {t : Trace} {c : Config} :
    ∀ check ∈ t.checks c, ∀ v, check = some v → v.isPassed = false := by
  have only {test : Prop} [Decidable test] {u : Verdict} (failing : u.isPassed = false) (v : Verdict)
      (failed : (if test then some u else none) = some v) : v.isPassed = false := by
    by_cases holds : test
    · rw [if_pos holds] at failed
      rw [← Option.some.inj failed, failing]
    · rw [if_neg holds] at failed
      cases failed
  have counts {test : Prop} [Decidable test] {f : Failure} {measured required : Nat} (v : Verdict)
      (failed : (if test then some (.ofCounts f measured required) else none) = some v) :
      v.isPassed = false :=
    only (Verdict.isPassed_ofCounts _ _ _) v failed
  simp only [checks, List.forall_mem_cons]
  exact ⟨counts, counts, only rfl, counts, counts, counts, counts, counts, counts, counts, only rfl,
    counts, counts, nofun⟩

theorem eq_none_of_assess {t : Trace} {c : Config} (passed : (t.assess c).isPassed = true) :
    ∀ check ∈ t.checks c, check = none := by
  have none : (t.checks c).findSome? id = none := by
    cases failed : (t.checks c).findSome? id with
    | none => rfl
    | some v =>
      obtain ⟨check, mem, found⟩ := List.exists_of_findSome?_eq_some failed
      rw [assess, failed, Option.getD_some, isPassed_of_checks check mem v found] at passed
      cases passed
  simpa using none

theorem unstopped_of_assess {t : Trace} {c : Config} (passed : (t.assess c).isPassed = true) :
    t.terminal ≠ .boundary ∧ t.terminal ≠ .loop := by
  have none := eq_none_of_assess passed
  simp only [checks, List.forall_mem_cons, endsIn] at none
  obtain ⟨boundary, loop, -⟩ := none
  constructor
  · intro ended
    simp [ended] at boundary
  · intro ended
    simp [ended] at loop

theorem evaluate_examined {t : Trace} {c : Config} (passed : (t.assess c).isPassed = true)
    (budget : 0 ≤ c.maxUnneededPaints) (painted : t.painted.isEmpty = false) (p : Program)
    (window : Nat) (source : σ) :
    (t.evaluate p c window source).1 =
      match (countUnneeded p c window t.unpainted t.start 0 (t.paintSlots p) source).1 with
      | .ok n =>
        if c.maxUnneededPaints < n then .ofCounts .unnecessaryPaint n c.maxUnneededPaints.toNat
        else .passed
      | .error b => .broken b := by
  unfold evaluate
  rw [Verdict.eq_passed passed]
  dsimp only
  rw [if_pos ⟨budget, painted⟩, bind_apply]
  rcases countUnneeded p c window t.unpainted t.start 0 (t.paintSlots p) source with ⟨b | n, after⟩
  · rfl
  · dsimp only
    by_cases past : c.maxUnneededPaints < n
    · rw [if_pos past, if_pos past, pure_apply]
    · rw [if_neg past, if_neg past, pure_apply]

theorem evaluate_of_countPassing {t : Trace} {c : Config} (passed : (t.assess c).isPassed = true)
    (budget : 0 ≤ c.maxUnneededPaints) (painted : t.painted.isEmpty = false) {p : Program}
    {window : Nat} {source : σ} {n : Nat}
    (counted : (countPassing p c window t.unpainted t.start (t.paintSlots p) source).1 = .ok n) :
    (t.evaluate p c window source).1 =
      if c.maxUnneededPaints < n then
        .ofCounts .unnecessaryPaint (c.maxUnneededPaints.toNat + 1) c.maxUnneededPaints.toNat
      else .passed := by
  have curbed := countUnneeded_curbs p c window t.unpainted t.start (Nat.zero_le _)
    (t.paintSlots p) source
  rw [counted] at curbed
  rw [evaluate_examined passed budget painted, show _ = _ from curbed]
  dsimp only
  by_cases past : c.maxUnneededPaints < n
  · rw [Nat.min_eq_right (by omega), if_pos past, if_pos (by omega)]
  · rw [if_neg past, if_neg (by omega)]

theorem evaluate_unexamined {t : Trace} {c : Config} (passed : (t.assess c).isPassed = true)
    (skipped : ¬ (0 ≤ c.maxUnneededPaints ∧ t.painted.isEmpty = false)) (p : Program)
    (window : Nat) (source : σ) : (t.evaluate p c window source).1 = .passed := by
  unfold evaluate
  rw [Verdict.eq_passed passed]
  dsimp only
  rw [if_neg skipped, pure_apply]

theorem evaluate_of_assess {t : Trace} {c : Config} (failed : (t.assess c).isPassed = false)
    (p : Program) (window : Nat) (source : σ) :
    t.evaluate p c window source = (t.assess c, source) := by
  unfold evaluate
  cases assessed : t.assess c with
  | passed =>
    rw [assessed] at failed
    cases failed
  | failed | broken => rfl

theorem evaluate_isPassed_iff (t : Trace) (p : Program) (c : Config) (window : Nat) (source : σ) :
    (t.evaluate p c window source).1.isPassed = true ↔
      (t.assess c).isPassed = true ∧
        (0 ≤ c.maxUnneededPaints → t.painted.isEmpty = false →
          ∃ n : Nat,
            (countPassing p c window t.unpainted t.start (t.paintSlots p) source).1 = .ok n ∧
            n ≤ c.maxUnneededPaints) := by
  by_cases passed : (t.assess c).isPassed = true
  · by_cases examined : 0 ≤ c.maxUnneededPaints ∧ t.painted.isEmpty = false
    · simp only [passed, examined, true_and, forall_const]
      cases counted : (countPassing p c window t.unpainted t.start (t.paintSlots p) source).1 with
      | ok n =>
        rw [evaluate_of_countPassing passed examined.1 examined.2 counted]
        split
        · rename_i exceeds
          rw [Verdict.isPassed_ofCounts]
          refine iff_of_false nofun ?_
          rintro ⟨_, ⟨⟩, few⟩
          exact absurd few (Int.not_le.mpr exceeds)
        · rename_i within
          exact iff_of_true rfl ⟨n, rfl, Int.not_lt.mp within⟩
      | error b =>
        have curbed := countUnneeded_curbs p c window t.unpainted t.start (Nat.zero_le _)
          (t.paintSlots p) source
        rw [counted] at curbed
        refine iff_of_false ?_ (by rintro ⟨_, ⟨⟩, _⟩)
        rw [evaluate_examined passed examined.1 examined.2]
        rcases curbed with broken | stopped
        · rw [broken]
          exact nofun
        · rw [stopped]
          dsimp only
          rw [if_pos (by omega), Verdict.isPassed_ofCounts]
          exact nofun
    · rw [evaluate_unexamined passed examined]
      exact iff_of_true rfl ⟨passed, fun budget painted => absurd ⟨budget, painted⟩ examined⟩
  · refine iff_of_false ?_ fun known => passed known.1
    rw [evaluate_of_assess (Bool.eq_false_iff.mpr passed)]
    exact passed

theorem failure?_evaluate {t : Trace} {c : Config} {f : Failure} (apart : f ≠ .unnecessaryPaint)
    (p : Program) (window : Nat) (source : σ) :
    (t.evaluate p c window source).1.failure? = some f ↔ (t.assess c).failure? = some f := by
  cases passed : (t.assess c).isPassed with
  | false => rw [evaluate_of_assess passed]
  | true =>
    rw [Verdict.eq_passed passed]
    refine iff_of_false (fun failed => ?_) (by rintro ⟨⟩)
    by_cases examined : 0 ≤ c.maxUnneededPaints ∧ t.painted.isEmpty = false
    · rw [evaluate_examined passed examined.1 examined.2] at failed
      split at failed
      · split at failed
        · exact apart (Verdict.failure?_ofCounts failed)
        · cases failed
      · cases failed
    · rw [evaluate_unexamined passed examined] at failed
      cases failed

end Trace

theorem simulate_eq_ok {p : Program} {c : Config} {s : Setting} {source after : σ} {a : Attempt} :
    simulate p c s source = (.ok a, after) ↔
      ∃ between, execute p c s (fun _ => false) source = (.ok a.trace, between) ∧
        a.program = p ∧ a.trace.evaluate p c s.window between = (a.verdict, after) := by
  unfold simulate
  rw [bind_apply]
  cases ran : execute p c s (fun _ => false) source with
  | mk result between =>
    cases result with
    | error e =>
      constructor
      · intro run
        cases run
      · rintro ⟨_, ⟨⟩, _⟩
    | ok t =>
      dsimp only
      rw [bind_apply]
      constructor
      · intro run
        cases run
        exact ⟨between, rfl, rfl, rfl⟩
      · rintro ⟨_, ⟨⟩, rfl, judged⟩
        rw [judged]
        rfl

theorem passesWithout_apply (p : Program) (c : Config) (window : Nat) (world : Grid) (start : Pose)
    (slot : Slot) (source : σ) :
    passesWithout p c window world start slot source =
      let run := runFrom? ⟨p, c, fun s => s == slot, window⟩ world start source
      (run.1.elim (.error (.void ⟨start.position⟩)) fun t => (t.assess c).passes, run.2) := by
  have executed : execute p c ⟨some world, some start, window⟩ (fun s => s == slot) source =
      let run := runFrom? ⟨p, c, fun s => s == slot, window⟩ world start source
      (run.1.elim (.error ⟨start.position⟩) .ok, run.2) := by
    unfold execute
    rw [bind_apply]
    change (runFrom? ⟨p, c, fun s => s == slot, window⟩ world start >>= _) source = _
    rw [bind_apply]
    rcases runFrom? ⟨p, c, fun s => s == slot, window⟩ world start source with ⟨_ | t, after⟩ <;> rfl
  rw [passesWithout, bind_apply, executed]
  rcases runFrom? ⟨p, c, fun s => s == slot, window⟩ world start source with ⟨_ | t, after⟩ <;> rfl

theorem passesWithout_of_execute {p : Program} {c : Config} {window : Nat} {world : Grid}
    {start : Pose} {slot : Slot} {source after : σ} {u : Trace}
    (ran : execute p c ⟨some world, some start, window⟩ (fun s => s == slot) source = (.ok u, after)) :
    passesWithout p c window world start slot source = ((u.assess c).passes, after) := by
  rw [passesWithout, bind_apply, ran]
  rfl

theorem exists_rerun (p : Program) (c : Config) (window : Nat) {world : Grid} {start : Pose}
    (standing : (world.tile? start.position).isSome = true) (slot : Slot) (source : σ) :
    ∃ u after,
      execute p c ⟨some world, some start, window⟩ (fun s => s == slot) source = (.ok u, after) ∧
      passesWithout p c window world start slot source = ((u.assess c).passes, after) := by
  obtain ⟨begun, begins⟩ := Trace.exists_begin? standing
  obtain ⟨u, after, ran⟩ := exists_runFrom? ⟨p, c, fun s => s == slot, window⟩ begins source
  exact ⟨u, after, execute_eq_ok.mpr ran, passesWithout_of_execute (execute_eq_ok.mpr ran)⟩

end GridRobot
