import GridRobot.Proofs.Decimal.Order
import GridRobot.Proofs.Player.Solution
import GridRobot.Proofs.Search.Candidates

namespace GridRobot

variable {σ τ : Type} [RandomSource σ] [Clock τ]

namespace Program

/-! ## Measurements of a program -/

def slotsWhere (p : Program) (test : Slot → Instruction → Bool) : List Slot :=
  p.slots.filter fun s => (p.at? s).any (test s)

def filledSlots (p : Program) : List Slot :=
  p.slotsWhere fun _ _ => true

def conditionalSlots (p : Program) : List Slot :=
  p.slotsWhere fun _ i => i.condition.isSome

def selfCallSlots (p : Program) : List Slot :=
  p.slotsWhere fun s i => i.action == .call s.routine

def coverage (p : Program) : Float :=
  if p.slotCount = 0 then 100
  else Float.ofNat p.filledSlots.length / Float.ofNat p.slotCount * 100

theorem mem_slotsWhere {p : Program} {test : Slot → Instruction → Bool} {s : Slot} :
    s ∈ p.slotsWhere test ↔ ∃ i, p.at? s = some i ∧ test s i = true := by
  rw [slotsWhere, List.mem_filter, mem_slots, Option.any_eq_true]
  constructor
  · exact fun holds => holds.2
  · rintro ⟨i, filled, holds⟩
    exact ⟨hasSlot_of_at? filled, i, filled, holds⟩

theorem nodup_slots (p : Program) : p.slots.Nodup := by
  refine List.pairwise_flatMap.mpr ⟨fun r _ => ?_, ?_⟩
  · refine List.pairwise_map.mpr (List.Pairwise.imp ?_ List.nodup_range)
    intro i j other same
    cases same
    exact other rfl
  · refine List.Pairwise.imp ?_ (show Routine.all.Nodup by decide)
    intro r q other s first t second same
    obtain ⟨i, -, rfl⟩ := List.mem_map.mp first
    obtain ⟨j, -, rfl⟩ := List.mem_map.mp second
    cases same
    exact other rfl

theorem length_slots (p : Program) : p.slots.length = p.slotCount := by
  simp [slots, slotCount, PerRoutine.toList, Routine.all, sum]

theorem slotCount_eq {p : Program} {c : Config} (lengths : p.lengths = c.slotsPerRoutine) :
    p.slotCount = c.totalSlots := by
  rw [Config.totalSlots, ← lengths]
  rfl

theorem length_filledSlots_le (p : Program) : p.filledSlots.length ≤ p.slotCount := by
  rw [← length_slots]
  exact List.length_filter_le _ _

end Program

namespace Config

theorem totalSlots_le {c : Config} (valid : c.Valid) : c.totalSlots ≤ 100 := by
  have f1 := valid.slots .f1
  have f2 := valid.slots .f2
  have f3 := valid.slots .f3
  have f4 := valid.slots .f4
  have f5 := valid.slots .f5
  simp only [maxSlots] at f1 f2 f3 f4 f5
  simp only [totalSlots, PerRoutine.toList, Routine.all, List.map_cons, List.map_nil, sum_cons, sum_nil]
  omega

end Config

theorem Program.isNaN_coverage {p : Program} {c : Config} (valid : c.Valid)
    (lengths : p.lengths = c.slotsPerRoutine) : p.coverage.isNaN = false := by
  -- a program has at most a hundred slots, and so its counts are among these numbers
  have figures : ∀ n : Fin 101, (Float.ofNat n).isNaN = false ∧
      (n.val ≠ 0 → Decimal.isProper (Float.ofNat n).toModel.unpack = true) := by
    decide +kernel
  have counted := p.length_filledSlots_le
  have bound := Config.totalSlots_le valid
  rw [← Program.slotCount_eq lengths] at bound
  unfold Program.coverage
  split
  · exact (figures 100).1
  · rename_i some
    have quotient := Decimal.isNaN_div (figures ⟨p.filledSlots.length, by omega⟩).1
      ((figures ⟨p.slotCount, by omega⟩).2 some)
    exact Decimal.isNaN_mul quotient ((figures 100).2 (by decide))

theorem Config.isNaN_minCoverage {c : Config} (valid : c.Valid) : c.minCoverage.isNaN = false := by
  apply Bool.eq_false_iff.mpr
  intro none
  exact Decimal.not_le_of_isNaN none valid.coverage.2

/-! ## Measurements of an attempt -/

namespace Attempt

variable {a : Attempt}

theorem at?_solution (records : a.trace.Records a.program) (s : Slot) :
    (a.solution.at? s).isSome = true ↔ s ∈ a.trace.executed.keys := by
  rw [solution, Program.at?_pruned, ← ArrivalMap.contains_iff]
  split
  · rename_i executed
    obtain ⟨i, filled⟩ := records.executed.all s (ArrivalMap.contains_iff.mp executed)
    simp [filled, executed]
  · rename_i idle
    simp [idle]

theorem at?_solution_of_executed {s : Slot} (executed : s ∈ a.trace.executed.keys) :
    a.solution.at? s = a.program.at? s := by
  rw [solution, Program.at?_pruned, if_pos (ArrivalMap.contains_iff.mpr executed)]

theorem length_filledSlots (records : a.trace.Records a.program) :
    a.solution.filledSlots.length = a.trace.executed.size := by
  have same : a.solution.filledSlots.Perm a.trace.executed.keys := by
    have once : a.solution.filledSlots.Nodup := a.solution.nodup_slots.filter _
    refine (List.perm_ext_iff_of_nodup once records.executed.once).mpr fun s => ?_
    rw [← at?_solution records, Option.isSome_iff_exists, Program.filledSlots, Program.mem_slotsWhere]
    simp
  rw [same.length_eq, ArrivalMap.keys, List.length_map]
  rfl

theorem coverage_solution (records : a.trace.Records a.program) {c : Config}
    (lengths : a.program.lengths = c.slotsPerRoutine) :
    a.solution.coverage = a.trace.coverage c.totalSlots := by
  have total : a.solution.slotCount = c.totalSlots :=
    Program.slotCount_eq ((Program.lengths_pruned _ _).trans lengths)
  rw [Program.coverage, Trace.coverage, total, length_filledSlots records]

theorem size_le_slotsWhere {m : ArrivalMap Slot Unit} {P : Slot → Instruction → Prop}
    {test : Slot → Instruction → Bool}
    (lists : m.Lists fun s => s ∈ a.trace.executed.keys ∧ ∃ i, a.program.at? s = some i ∧ P s i)
    (passes : ∀ s i, P s i → test s i = true) : m.size ≤ (a.solution.slotsWhere test).length := by
  have within : m.keys ⊆ a.solution.slotsWhere test := by
    intro s mem
    obtain ⟨executed, i, filled, holds⟩ := lists.all s mem
    exact Program.mem_slotsWhere.mpr
      ⟨i, (at?_solution_of_executed executed).trans filled, passes s i holds⟩
  have counted := lists.once.length_le_of_subset within
  rwa [ArrivalMap.keys, List.length_map] at counted

theorem mask_puzzle (grounded : a.trace.Grounded) (c : Config) :
    (a.puzzle c).grid.mask = a.trace.world.mask ∧ (a.puzzle c).grid.width = a.trace.world.width := by
  have starred := Grid.sameColors_withStars a.trace.unpainted a.trace.starPositions
  exact ⟨starred.mask_eq.trans (Grid.mask_congr grounded.width grounded.height grounded.placed),
    starred.width.trans grounded.width⟩

end Attempt

/-! ## Success -/

/-- What a configuration asks of a puzzle and its solution, `t` being the winning run. -/
structure Puzzle.Meets (q : Puzzle) (c : Config) (p : Program) (t : Trace) : Prop where
  executed : ∀ s, (p.at? s).isSome = true ↔ t.executed.contains s = true
  coverage : c.minCoverage ≤ p.coverage
  tiles : c.minTiles ≤ q.grid.tileCount
  box : c.minBoundingBox ≤ max q.grid.boundingBox.1 q.grid.boundingBox.2
  dense : q.grid.denseCount Grid.denseThreshold ≤ c.maxDenseTiles
  conditionals : c.minConditionals ≤ p.conditionalSlots.length
  selfCalls : c.minSelfCalls ≤ p.selfCallSlots.length
  steps : q.steps ≤ c.maxSteps
  starred : q.stars ≠ []
  stars : ∀ pos, pos ∈ q.stars ↔ pos ∈ t.turnPositions ∨ pos = t.final.position

theorem Attempt.mem_stars_iff {a : Attempt} (charted : a.trace.Charted) (walked : a.trace.Walked)
    (c : Config) (pos : Position) :
    pos ∈ (a.puzzle c).stars ↔ pos ∈ a.trace.turnPositions ∨ pos = a.trace.final.position := by
  have listed : pos ∈ a.trace.starPositions ↔
      pos ∈ a.trace.turnPositions ∨ pos = a.trace.final.position := by
    rw [Trace.starPositions, List.mem_append, List.mem_singleton, Array.mem_toList_iff]
  rw [mem_stars charted.starless, listed]
  constructor
  · exact fun starred => starred.2
  · intro starred
    refine ⟨walked pos ?_, starred⟩
    rcases starred with turned | rfl
    · exact charted.traced.turns pos turned
    · exact charted.traced.final

theorem Attempt.meets {rules : SearchRules} (valid : rules.config.Valid) {a : Attempt}
    (made : a.MadeBy rules σ) (passed : a.verdict.isPassed = true) :
    (a.puzzle rules.config).Meets rules.config a.solution a.trace := by
  obtain ⟨playable, source, after, ran⟩ := made
  obtain ⟨between, executed, -, judged⟩ := simulate_eq_ok.mp ran
  obtain ⟨records, steps⟩ := records_of_execute executed
  have charted := charted_of_execute valid rfl executed
  have walked := walked_of_execute executed
  obtain ⟨mask, width⟩ := a.mask_puzzle charted.grounded rules.config
  have assessed := ((a.trace.evaluate_isPassed_iff a.program rules.config rules.window between).mp
    (by rw [judged]; exact passed)).1
  have checked := Trace.eq_none_of_assess assessed
  simp only [Trace.checks, List.forall_mem_cons] at checked
  obtain ⟨-, -, coverage, tiles, box, -, dense, -, selfCalls, -, -, conditionals, -⟩ := checked
  rw [Trace.belowCount_eq_none] at tiles box selfCalls conditionals
  rw [Trace.aboveCount_eq_none] at dense
  rw [Trace.below_eq_none, ← coverage_solution records playable.lengths] at coverage
  have lengths : a.solution.lengths = rules.config.slotsPerRoutine :=
    (Program.lengths_pruned _ _).trans playable.lengths
  exact {
    executed := fun s => (at?_solution records s).trans ArrivalMap.contains_iff.symm
    coverage := Decimal.le_of_not_lt (Program.isNaN_coverage valid lengths)
      (Config.isNaN_minCoverage valid) coverage
    tiles := by rwa [Grid.tileCount_congr mask]
    box := by rwa [Grid.boundingBox_congr mask width]
    dense := by rwa [Grid.denseCount_congr mask width]
    conditionals := Nat.le_trans conditionals (size_le_slotsWhere records.conditional fun _ _ => id)
    selfCalls := Nat.le_trans selfCalls
      (size_le_slotsWhere records.selfCalls fun s i calls => by simpa using calls)
    steps := Int.ofNat_le.mpr steps
    starred := (a.visits_stars charted rules.config).1
    stars := a.mem_stars_iff charted walked rules.config }

/-- A search that succeeds delivers a puzzle and a solution that meet its configuration. -/
theorem Search.success_sound (rules : SearchRules) (valid : rules.config.Valid) (s : Search σ τ)
    (launched : s.Launched rules) (r : SearchResult) (found : s.result = some r)
    (success : r.outcome = .success) :
    ∃ a : Attempt, a.MadeBy rules σ ∧ r.WonBy rules (some a) ∧
      (a.puzzle rules.config).Meets rules.config a.solution a.trace := by
  obtain ⟨winner, won, made⟩ := launched.sound.result r found
  obtain ⟨a, rfl⟩ := Option.isSome_iff_exists.mp (won.success.mp success)
  obtain ⟨made, passed⟩ := made a rfl
  exact ⟨a, made, won, a.meets valid made passed⟩

def walkSearch (least : Float) : Search Tape Stopwatch where
  rules := { config := {
    slotsPerRoutine := ⟨2, 0, 0, 0, 0⟩
    maxSteps := 1
    gridSize := 2
    minCoverage := least
    conditionalPercent := 0
    minTiles := 0
    minBoundingBox := 0
    minTurns := 0
    minRetraceRatio := 0 } }
  source := ⟨#[0.1], 0, false⟩
  clock := ⟨0⟩

def walkPasses (least : Float) : Bool :=
  let s := walkSearch least
  (simulate (Program.draw s.rules.config s.source).1 s.rules.config { window := s.rules.window }
    (Program.draw s.rules.config s.source).2).1.toOption.any fun a => a.verdict.isPassed

theorem exists_walk (least : Float) (passes : walkPasses least = true) :
    ∃ r a, ((walkSearch least).start none none).step.result = some r ∧
      r.WonBy (walkSearch least).rules (some a) ∧ r.elapsed = 0 - 0 := by
  obtain ⟨a, after, ran, passed⟩ := exists_ok_of_any passes
  obtain ⟨r, found, won, elapsed⟩ :=
    Search.step_start (s := walkSearch least) (Nat.succ_ne_zero 99) rfl ran passed
  exact ⟨r, a, found, won, elapsed⟩

theorem success_sound_walk :
    ∃ r a, ((walkSearch 50).start none none).step.result = some r ∧ r.outcome = .success ∧
      r.WonBy (walkSearch 50).rules (some a) ∧ 50 ≤ a.solution.coverage ∧
      (a.puzzle (walkSearch 50).rules.config).stars ≠ [] := by
  obtain ⟨r, a, found, won, -⟩ := exists_walk 50 (by decide +kernel)
  have success := won.success.mpr rfl
  obtain ⟨b, -, won, meets⟩ := Search.success_sound (walkSearch 50).rules (by decide) _
    (.step (.start rfl none none)) r found success
  exact ⟨r, b, found, success, won, meets.coverage, meets.starred⟩

end GridRobot
