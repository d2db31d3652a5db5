import GridRobot.Proofs.Run.Necessity
import GridRobot.Random

/-!
Verifying the solution of a puzzle. `verify_of_simulate` says what verification finds: the run that
made the puzzle, and a count of unneeded paints that is taken on the solution. Since a re-run of the
solution meets empty slots where the program held instructions, the counts can differ.
-/

namespace GridRobot

variable {σ τ : Type} [RandomSource σ] [RandomSource τ]

namespace Trace

theorem paintSlots_pruned (t : Trace) (p : Program) :
    t.paintSlots (p.pruned t.executed.contains) = t.paintSlots p := by
  apply List.filter_congr
  intro slot executed
  rw [Program.at?_pruned, if_pos (ArrivalMap.contains_iff.mpr executed)]

end Trace

/-! ## Re-runs of a pruned program -/

/-- With the paint of `slot` suppressed the program executes no slot outside `keep` and places no
tile. -/
def StaysWithin (σ : Type) [RandomSource σ] (keep : Slot → Bool) (p : Program) (c : Config)
    (window : Nat) (world : Grid) (start : Pose) (slot : Slot) : Prop :=
  ∀ (source after : σ) (t : Trace),
    runFrom? ⟨p, c, fun s => s == slot, window⟩ world start source = (some t, after) →
      (∀ s, t.executed.contains s = true → keep s = true) ∧ t.unpainted = world

theorem runFrom?_eq_none {rules : Rules} {world : Grid} {start : Pose} {source after : σ}
    (ran : runFrom? rules world start source = (none, after)) :
    world.tile? start.position = none := by
  unfold runFrom? Trace.begin? at ran
  cases there : world.tile? start.position with
  | none => rfl
  | some tile =>
    rw [there] at ran
    cases ran

section Pruned

variable {p : Program} {c : Config} {window : Nat} {world g : Grid} {start : Pose}
  {keep : Slot → Bool}

theorem passesWithout_pruned {slot : Slot}
    (within : StaysWithin σ keep p c window world start slot) (same : g.SameColors world)
    (window' : Nat) (source : σ) (other : τ) :
    (passesWithout (p.pruned keep) c window' g start slot other).1 =
      (passesWithout p c window world start slot source).1 := by
  rw [passesWithout_apply, passesWithout_apply]
  dsimp only
  cases ran : runFrom? ⟨p, c, fun s => s == slot, window⟩ world start source with
  | mk trace? after =>
    cases trace? with
    | some t =>
      obtain ⟨kept, still⟩ := within source after t ran
      obtain ⟨u, matched, -, -, replayed⟩ := runFrom?_replays ran kept (still.symm ▸ same) window'
      have again : runFrom? ⟨p.pruned keep, c, fun s => s == slot, window'⟩ g start other =
          (some u, other) := congrFun (replayed τ) other
      rw [again]
      exact congrArg Verdict.passes (matched.assess_eq c)
    | none =>
      have void : g.tile? start.position = none := by
        have placed := same.isSome_tile? start.position
        rwa [runFrom?_eq_none ran, Option.isSome_none, Option.isSome_eq_false_iff,
          Option.isNone_iff_eq_none] at placed
      simp only [runFrom?, Trace.begin?, void]
      rfl

theorem countPassing_pruned {slots : List Slot}
    (within : ∀ slot ∈ slots, StaysWithin σ keep p c window world start slot)
    (same : g.SameColors world) (window' : Nat) (source : σ) (other : τ) :
    (countPassing (p.pruned keep) c window' g start slots other).1 =
      (countPassing p c window world start slots source).1 := by
  induction slots generalizing source other with
  | nil => rfl
  | cons slot rest ih =>
    have first := passesWithout_pruned (within slot List.mem_cons_self) same window' source other
    have later := ih fun slot mem => within slot (List.mem_cons_of_mem _ mem)
    rcases made : passesWithout p c window world start slot source with ⟨b | _ | _, after⟩ <;>
      rcases again : passesWithout (p.pruned keep) c window' g start slot other with
        ⟨passes, last⟩ <;> rw [made, again] at first <;> cases first
    · rw [countPassing_of_error made, countPassing_of_error again]
    · rw [countPassing_of_needed made, countPassing_of_needed again, later]
    · rw [countPassing_of_unneeded made, countPassing_of_unneeded again, later]

end Pruned

/-! ## Verification -/

/-- Verification sees the run that made the puzzle. Its verdict is that of the count of paints that
the solution does not need, and where no re-run of the program leaves the solution it passes. -/
theorem verify_of_simulate {p : Program} {c : Config} {s : Setting} {source after : σ} {a : Attempt}
    (simulated : simulate p c s source = (.ok a, after)) (passed : a.verdict.isPassed = true)
    (other : τ) :
    ∃ b last, verify (a.puzzle c) a.solution c other = (.ok b, last) ∧
      b.trace.executed = a.trace.executed ∧ a.trace.Matches b.trace ∧
      (b.verdict.isPassed = true ↔
        (0 ≤ c.maxUnneededPaints → a.trace.painted.isEmpty = false →
          ∃ n : Nat, (countPassing a.solution c defaultWindow (a.puzzle c).grid a.trace.start
            (a.trace.paintSlots p) other).1 = .ok n ∧ n ≤ c.maxUnneededPaints)) ∧
      ((∀ slot ∈ a.trace.paintSlots p, StaysWithin σ a.trace.executed.contains p c s.window
          a.trace.unpainted a.trace.start slot) → b.verdict.isPassed = true) := by
  obtain ⟨between, ran, rfl, judged⟩ := simulate_eq_ok.mp simulated
  have ran := execute_eq_ok.mp ran
  have colors := Grid.sameColors_withStars a.trace.unpainted a.trace.starPositions
  obtain ⟨u, matched, unpainted, -, replayed⟩ :=
    runFrom?_replays ran (fun _ executed => executed) colors defaultWindow
  have again : execute a.solution c ⟨some (a.puzzle c).grid, some a.trace.start, defaultWindow⟩
      (fun _ => false) other = (.ok u, other) := by
    apply execute_eq_ok.mpr
    rw [← runFrom?_start ran] at replayed
    exact congrFun (replayed τ) other
  have painted : u.painted = a.trace.painted :=
    matched.congr (f := Trace.painted) fun _ _ _ => rfl
  have executed : u.executed = a.trace.executed :=
    matched.congr (f := Trace.executed) fun _ _ _ => rfl
  have start : u.start = a.trace.start :=
    matched.congr (f := Trace.start) fun _ _ _ => rfl
  have slots : u.paintSlots a.solution = a.trace.paintSlots a.program := by
    rw [← a.trace.paintSlots_pruned, Trace.paintSlots, executed]
    rfl
  have assessed := (a.trace.evaluate_isPassed_iff a.program c s.window between).mp
    (by rw [judged]; exact passed)
  have verdict := u.evaluate_isPassed_iff a.solution c defaultWindow other
  -- All that the verdict depends on is the same, but for the program that is re-run.
  rw [matched.assess_eq, painted, unpainted, start, slots] at verdict
  simp only [assessed.1, true_and] at verdict
  refine ⟨⟨a.solution, u, (u.evaluate a.solution c defaultWindow other).1⟩, _,
    simulate_eq_ok.mpr ⟨other, again, rfl, rfl⟩, executed, matched, verdict, fun within => ?_⟩
  apply verdict.mpr
  intro budget paints
  have counted := countPassing_pruned within colors defaultWindow between other
  have few := assessed.2 budget paints
  rw [← counted] at few
  exact few

/-! ## A solution that needs less than its program -/

def oneCell : Config where
  slotsPerRoutine := ⟨2, 0, 0, 0, 0⟩
  maxSteps := 2
  gridSize := 1
  minCoverage := 0
  minTiles := 0
  minBoundingBox := 0
  minTurns := 0
  maxAverageExecutions := 1000
  minRetraceRatio := 0
  maxUnneededPaints := 0

def paintOrLeave : Program :=
  ⟨⟨[some ⟨.paint .red, none⟩, some ⟨.forward, some .blue⟩], [], [], [], []⟩⟩

def blueTape : Tape where
  entries := #[0.9]

theorem simulate_paintOrLeave :
    ∃ a after, simulate paintOrLeave oneCell {} blueTape = (.ok a, after) ∧
      a.verdict.isPassed = true ∧
      (verify (a.puzzle oneCell) a.solution oneCell blueTape).1.toOption.any
        (fun b => b.verdict.isPassed) = false := by
  have evaluated : (simulate paintOrLeave oneCell {} blueTape).1.toOption.any (fun a =>
      a.verdict.isPassed && !(verify (a.puzzle oneCell) a.solution oneCell blueTape).1.toOption.any
        fun b => b.verdict.isPassed) = true := by
    decide +kernel
  obtain ⟨a, after, ran, tested⟩ := exists_ok_of_any evaluated
  rw [Bool.and_eq_true, Bool.not_eq_true'] at tested
  exact ⟨a, after, ran, tested⟩

theorem verify_paintOrLeave :
    ∃ a after b last, simulate paintOrLeave oneCell {} blueTape = (.ok a, after) ∧
      a.verdict.isPassed = true ∧
      verify (a.puzzle oneCell) a.solution oneCell blueTape = (.ok b, last) ∧
      b.trace.executed = a.trace.executed ∧ a.trace.Matches b.trace := by
  obtain ⟨a, after, ran, passed, -⟩ := simulate_paintOrLeave
  obtain ⟨b, last, verified, executed, matched, -⟩ := verify_of_simulate ran passed blueTape
  exact ⟨a, after, b, last, ran, passed, verified, executed, matched⟩

/-- A run passes and its solution does not: with its only paint suppressed the program leaves the
world, but the solution stays. -/
theorem verify_not_idempotent :
    ¬ ∀ (c : Config) (p : Program) (source other : Tape) (a : Attempt) (after : Tape), c.Valid →
      p.lengths = c.slotsPerRoutine → simulate p c {} source = (.ok a, after) →
        a.verdict.isPassed = true →
          ∃ b last, verify (a.puzzle c) a.solution c other = (.ok b, last) ∧
            b.verdict.isPassed = true := by
  intro idempotent
  obtain ⟨a, after, ran, passed, rejected⟩ := simulate_paintOrLeave
  obtain ⟨b, last, verified, accepted⟩ := idempotent oneCell paintOrLeave blueTape blueTape a after
    (by decide) rfl ran passed
  rw [verified] at rejected
  simp [Except.toOption, accepted] at rejected

end GridRobot
