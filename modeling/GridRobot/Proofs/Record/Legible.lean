import Mathlib.Data.List.Nodup
import GridRobot.Command.Solved
import GridRobot.Config.Record
import GridRobot.Proofs.Json.RoundTrip

namespace GridRobot

open Json (Legible readBack?)

/-! ## Parts of records -/

theorem legible_ofOption {α : Type} {f : α → Json} (each : ∀ a, Legible (f a)) (o : Option α) :
    Legible (Json.ofOption f o) := by
  cases o with
  | none => exact .null
  | some a => exact each a

theorem legible_array {α : Type} {f : α → Json} (each : ∀ a, Legible (f a)) (items : List α) :
    Legible (.array (items.map f)) := by
  refine .array fun v among => ?_
  obtain ⟨a, -, rfl⟩ := List.mem_map.mp among
  exact each a

theorem legible_entries {κ α : Type} {name : κ → String} {f : α → Json} (each : ∀ a, Legible (f a))
    {entries : List (κ × α)} (once : ((entries.map (·.1)).map name).Nodup) :
    Legible (.object (entries.map fun (k, a) => (name k, f a))) := by
  refine .object ?_ fun m among => ?_
  · rw [List.map_map] at once ⊢
    exact once
  · obtain ⟨e, -, rfl⟩ := List.mem_map.mp among
    exact each e.2

theorem legible_routines {α : Type} {f : α → Json} (each : ∀ a, Legible (f a)) (v : PerRoutine α) :
    Legible (.object (v.entries.map fun (r, a) => (r.name, f a))) :=
  legible_entries each (show (Routine.all.map Routine.name).Nodup by decide)

/-! ## Puzzles and programs -/

theorem Position.legible_toRecord (p : Position) : Legible p.toRecord := by
  refine .object (show ["x", "y"].Nodup by decide) ?_
  simp only [List.forall_mem_cons]
  exact ⟨.int p.x, .int p.y, nofun⟩

theorem Pose.legible_toRecord (p : Pose) : Legible p.toRecord := by
  refine .object (show ["position", "direction"].Nodup by decide) ?_
  simp only [List.forall_mem_cons]
  exact ⟨p.position.legible_toRecord, .string _, nofun⟩

theorem Color.legible_toRecord (c : Option Color) : Legible (Color.toRecord c) :=
  legible_ofOption (fun _ => .string _) c

theorem Tile.legible_toRecord (t : Tile) : Legible t.toRecord := by
  refine .object (show ["color", "hasStar"].Nodup by decide) ?_
  simp only [List.forall_mem_cons]
  exact ⟨Color.legible_toRecord t.color, .bool t.hasStar, nofun⟩

theorem Grid.legible_toRecord (g : Grid) : Legible g.toRecord :=
  legible_array (legible_array (legible_ofOption Tile.legible_toRecord)) g.toRows

theorem Instruction.legible_toRecord (i : Instruction) : Legible i.toRecord := by
  refine .object (show ["type", "condition"].Nodup by decide) ?_
  simp only [List.forall_mem_cons]
  exact ⟨.string _, Color.legible_toRecord i.condition, nofun⟩

theorem Program.legible_toRecord (p : Program) : Legible p.toRecord :=
  legible_routines (legible_array (legible_ofOption Instruction.legible_toRecord)) p.body

theorem Puzzle.legible_toRecord (q : Puzzle) : Legible q.toRecord := by
  refine .object (show ["grid", "robotStart", "functionLengths", "allowedInstructions", "stepCount",
    "qualityScore", "solutionInstructionCount"].Nodup by decide) ?_
  simp only [List.forall_mem_cons]
  exact ⟨q.grid.legible_toRecord, q.start.legible_toRecord, legible_routines .int q.lengths,
    legible_array (fun _ => .string _) q.allowed, .int _, .int _, .int _, nofun⟩

/-! ## Results -/

theorem Trace.legible_toRecord (t : Trace) : Legible t.toRecord := by
  refine .object (show ["terminal", "stepCount", "pathLength", "path", "turnPositions", "executedSlots",
    "executedConditionals", "selfCalls", "maxStackDepth", "paintRevisits"].Nodup by decide) ?_
  simp only [List.forall_mem_cons]
  exact ⟨.string _, .int _, .int _, legible_array Position.legible_toRecord _,
    legible_array Position.legible_toRecord _, legible_array (fun _ => .string _) _, .int _, .int _,
    .int _, .int _, nofun⟩

theorem Failure.name_injective : Function.Injective Failure.name := fun f g same =>
  List.inj_on_of_nodup_map (show (all.map name).Nodup by decide) f.mem_all g.mem_all same

theorem Tally.legible_toRecord {t : Tally} (once : t.keys.Nodup) : Legible t.toRecord := by
  have named : ((t.entries.map (·.1)).map Failure.name).Nodup :=
    List.Nodup.map Failure.name_injective once
  exact legible_entries (fun n : Nat => .int n) named

def Config.fractions (c : Config) : List Float :=
  [c.colorRatios.red, c.colorRatios.green, c.colorRatios.blue, c.minCoverage, c.conditionalPercent,
    c.weights.forward, c.weights.turn, c.weights.call, c.weights.paint, c.maxAverageExecutions,
    c.minRetraceRatio]

theorem Config.legible_toRecord {c : Config} (read : ∀ x ∈ c.fractions, readBack? x = some x) :
    Legible c.toRecord := by
  simp only [fractions, List.forall_mem_cons] at read
  obtain ⟨red, green, blue, coverage, conditional, forward, turn, call, paint, average, ratio, -⟩ := read
  have colors : Legible c.colorRatios.toRecord := by
    refine .object (show ["red", "green", "blue"].Nodup by decide) ?_
    simp only [List.forall_mem_cons]
    exact ⟨.float red, .float green, .float blue, nofun⟩
  have weights : Legible c.weights.toRecord := by
    refine .object (show ["forward", "turn", "functionCall", "paint"].Nodup by decide) ?_
    simp only [List.forall_mem_cons]
    exact ⟨.float forward, .float turn, .float call, .float paint, nofun⟩
  refine .object (show (memberNames (toRecord {})).Nodup by decide) ?_
  simp only [List.forall_mem_cons]
  exact ⟨legible_routines (fun n : Nat => .int n) c.slotsPerRoutine, .int _, .int _, colors, .float coverage,
    .float conditional, weights, .int _, .int _, .int _, .int _, .float average, .int _, .int _, .int _,
    .float ratio, .bool _, .int _, .int _, .int _, .int _, nofun⟩

theorem SearchResult.legible_diagnostics (r : SearchResult) : Legible (.object r.diagnostics) := by
  unfold diagnostics
  cases r.trace with
  | none =>
    refine .object (List.nodup_singleton _) ?_
    simp only [List.forall_mem_cons]
    exact ⟨.int _, nofun⟩
  | some t =>
    cases t.legible_toRecord with
    | object once each =>
      have new : "restarts" ∉ ["terminal", "stepCount", "pathLength", "path", "turnPositions",
          "executedSlots", "executedConditionals", "selfCalls", "maxStackDepth", "paintRevisits"] := by
        decide
      exact .object (List.nodup_cons.mpr ⟨new, once⟩) (List.forall_mem_cons.mpr ⟨.int _, each⟩)

theorem SearchResult.legible_members {r : SearchResult} (once : r.tally.keys.Nodup)
    (elapsed : readBack? (Decimal.roundPlaces 3 r.elapsed) = some (Decimal.roundPlaces 3 r.elapsed)) :
    ∀ m ∈ r.members, Legible m.2 := by
  simp only [members, List.forall_mem_cons]
  exact ⟨.bool _, .string _, .int _, legible_ofOption (fun _ => .string _) _, Tally.legible_toRecord once,
    legible_ofOption .int _, .float elapsed, legible_ofOption Puzzle.legible_toRecord _,
    legible_ofOption Program.legible_toRecord _, r.legible_diagnostics, nofun⟩

end GridRobot
