import GridRobot.Proofs.Grid.Covers
import GridRobot.Proofs.Run.Growth

namespace GridRobot

theorem Instruction.runsOn_congr (i : Instruction) {tile shown : Option Tile}
    (same : shown.map (·.color) = tile.map (·.color)) : i.runsOn shown = i.runsOn tile := by
  unfold runsOn
  cases i.condition with
  | none => rfl
  | some c =>
    cases tile <;> cases shown <;> simp_all

theorem Instruction.color_of_runsOn {i : Instruction} {tile : Option Tile} {c : Color}
    (runs : i.runsOn tile = true) (condition : i.condition = some c) :
    tile.map (·.color) = some (some c) := by
  rw [runsOn, condition] at runs
  cases tile with
  | none => cases runs
  | some tile => exact congrArg some (eq_of_beq runs)

namespace CallStack

theorem fetch_pruned (p : Program) (keep : Slot → Bool) (s : CallStack) :
    s.fetch (p.pruned keep) = s.fetch p := by
  cases s <;> simp [fetch, fetch.fetchFrom, Program.pruned]

theorem next_congr (p : Program) (s : CallStack) {tile shown : Option Tile}
    (same : shown.map (·.color) = tile.map (·.color)) : s.next p shown = s.next p tile := by
  simp only [next, Instruction.runsOn_congr _ same]

theorem next_pruned (p : Program) (keep : Slot → Bool) (tile : Option Tile) (s : CallStack) :
    s.next (p.pruned keep) tile =
      ((s.next p tile).1, (s.next p tile).2.filter fun found => keep found.1) := by
  unfold next
  rw [fetch_pruned]
  cases s.fetch p with
  | mk t slot? =>
    cases slot? with
    | none => rfl
    | some slot =>
      cases filled : p.at? slot with
      | none => simp [filled]
      | some i =>
        cases runs : i.runsOn tile <;> cases kept : keep slot <;>
          simp [filled, runs, kept, Option.filter]

end CallStack

/-! ## Transplanted runs -/

def Trace.onto (t : Trace) (world unpainted : Grid) (recent : List Slot) : Trace :=
  { t with world, unpainted, recentForwards := recent }

def Run.onto (r : Run) (world unpainted : Grid) (recent : List Slot) : Run :=
  { r with trace := r.trace.onto world unpainted recent }

def Progress.onto (world unpainted : Grid) (recent : List Slot) : Progress → Progress
  | .running r => .running (r.onto world unpainted recent)
  | .ended t => .ended (t.onto world unpainted recent)

def Rules.pruned (rules : Rules) (keep : Slot → Bool) (window : Nat) : Rules :=
  { rules with program := rules.program.pruned keep, window }

section Onto

variable (world unpainted : Grid) (recent : List Slot)

theorem Trace.record_onto (t : Trace) (slot : Slot) (i : Instruction) (departed : List Position) :
    (t.onto world unpainted recent).record slot i departed =
      (t.record slot i departed).onto world unpainted recent := by
  unfold record
  cases i.condition <;> rfl

theorem Trace.moveTo_onto (t : Trace) {target : Position} (turning : Bool)
    (same : world.color? target = t.world.color? target) :
    (t.onto world unpainted recent).moveTo target turning =
      (t.moveTo target turning).onto world unpainted recent := by
  have visited : (world.tile? target).bind (·.color) = (t.world.tile? target).bind (·.color) := by
    have joined (tile : Option Tile) : tile.bind (·.color) = (tile.map (·.color)).join := by
      cases tile <;> rfl
    rw [joined, joined]
    exact congrArg Option.join same
  simp only [moveTo, onto, visited]

theorem Run.unlessBack_onto (r : Run) (c : Config) (t : Trace) (before : List Slot) :
    (r.onto world unpainted before).unlessBack c (t.onto world unpainted recent) =
      (r.unlessBack c t).onto world unpainted recent := by
  unfold unlessBack
  have same : (t.onto world unpainted recent).isBack c = t.isBack c := rfl
  rw [same]
  split <;> rfl

theorem Run.arrive_onto (rules : Rules) (r : Run) {target : Position} (keep : Slot → Bool)
    (window : Nat) (same : world.color? target = r.trace.world.color? target) :
    (r.onto world unpainted recent).arrive (rules.pruned keep window) target =
      (r.arrive rules target).onto world unpainted recent := by
  unfold arrive
  rw [← unlessBack_onto _ _ _ _ _ _ recent, ← Trace.moveTo_onto _ _ _ _ _ same]
  rfl

theorem Run.turn_onto (rules : Rules) (r : Run) (t : Turn) (keep : Slot → Bool) (window : Nat) :
    (r.onto world unpainted recent).turn (rules.pruned keep window) t =
      (r.turn rules t).onto world unpainted recent := by
  unfold turn
  rw [← unlessBack_onto _ _ _ _ _ _ recent]
  rfl

end Onto

theorem Trace.paint_onto {t : Trace} {g final : Grid} (first : Grid) (recent : List Slot)
    (grounded : t.Grounded) (covers : g.Covers t.world final) (c : Color) :
    ∃ g', (t.onto g first recent).paint c = (t.paint c).onto g' first recent ∧
      g'.Covers (t.paint c).world final ∧ (t.paint c).recentForwards = t.recentForwards := by
  obtain ⟨tile, here⟩ := Option.isSome_iff_exists.mp grounded.standing
  obtain ⟨tile', here', same⟩ := Grid.isSome_of_color? (covers.color_of_tile? here)
  have shown : (t.onto g first recent).here = some tile' := here'
  rw [paint_eq here, paint_eq shown, same]
  split
  · exact ⟨g, rfl, covers, rfl⟩
  · exact ⟨_, rfl, covers.put (Grid.contains_of_tile? here) rfl, rfl⟩

theorem Run.paint_onto {r : Run} {g final : Grid} (first : Grid) (recent : List Slot)
    (grounded : r.trace.Grounded) (covers : g.Covers r.trace.world final) (rules : Rules)
    (slot : Slot) (c : Color) (keep : Slot → Bool) (window : Nat) :
    ∃ g', (r.onto g first recent).paint (rules.pruned keep window) slot c =
        (r.paint rules slot c).onto g' first recent ∧
      g'.Covers (r.paint rules slot c).trace.world final ∧
      (r.paint rules slot c).trace.recentForwards = r.trace.recentForwards := by
  unfold Run.paint
  rw [show (rules.pruned keep window).suppressed = rules.suppressed from rfl]
  split
  · exact ⟨g, rfl, covers, rfl⟩
  · obtain ⟨g', painted, covered, recents⟩ := Trace.paint_onto first recent grounded covers c
    refine ⟨g', ?_, covered, recents⟩
    change { r.onto g first recent with trace := (r.trace.onto g first recent).paint c } = _
    rw [painted]
    rfl

/-! ## One instruction -/

theorem Effect.onto {rules : Rules} {r : Run} {slot : Slot} {action : Action}
    {drawn : Option Color} {progress : Progress} {g final : Grid}
    (effect : Effect rules r slot action drawn progress) (grounded : r.trace.Grounded)
    (covers : g.Covers r.trace.world final)
    (later : ∀ q tile, progress.trace.unpainted.tile? q = some tile → final.tile? q = some tile)
    (keep : Slot → Bool) (window : Nat) (first : Grid) (recent : List Slot) :
    ∃ g' recent',
      Effect (rules.pruned keep window) (r.onto g first recent) slot action none
        (progress.onto g' first recent') ∧
      g'.Covers progress.trace.world final ∧
      (window = rules.window → recent = r.trace.recentForwards →
        recent' = progress.trace.recentForwards) := by
  cases effect with
  | boundary outside =>
    refine ⟨g, lastOf window (recent ++ [slot]), ?_, covers, ?_⟩
    · exact .boundary fun inside => outside ((covers.contains_iff _).mp inside)
    · rintro rfl rfl
      rfl
  | move tile there =>
    obtain ⟨turning, terminal, came⟩ :=
      Run.trace_arrive rules (r.departing rules slot) r.trace.ahead
    have shown := covers.color_of_tile? there
    obtain ⟨tile', there', -⟩ := Grid.isSome_of_color? shown
    refine ⟨g, lastOf window (recent ++ [slot]), ?_, by rw [came]; exact covers, ?_⟩
    · have arrived := Run.arrive_onto g first (lastOf window (recent ++ [slot])) rules
        (r.departing rules slot) keep window (shown.trans (Grid.color?_of_tile? there).symm)
      rw [← arrived]
      exact .move tile' there'
    · rintro rfl rfl
      rw [came]
      rfl
  | pave c inside void =>
    obtain ⟨turning, terminal, came⟩ :=
      Run.trace_arrive rules (r.paving rules slot c) r.trace.ahead
    have placed := grounded.tile?_place inside c r.trace.ahead
    rw [if_pos rfl, if_pos rfl] at placed
    have coming : final.tile? r.trace.ahead = some ⟨some c, false⟩ := by
      apply later
      rw [came]
      exact placed.2
    have shown : g.color? r.trace.ahead = some (some c) := by
      rw [covers.color, Grid.color?, void, Grid.color?_of_tile? coming]
      rfl
    obtain ⟨tile', there', -⟩ := Grid.isSome_of_color? shown
    refine ⟨g, lastOf window (recent ++ [slot]), ?_, ?_, ?_⟩
    · have arrived := Run.arrive_onto g first (lastOf window (recent ++ [slot])) rules
        (r.paving rules slot c) keep window
        (shown.trans (Grid.color?_of_tile? placed.1).symm)
      rw [← arrived]
      exact .move tile' there'
    · rw [came]
      exact covers.place inside shown
    · rintro rfl rfl
      rw [came]
      rfl
  | turn t =>
    obtain ⟨terminal, came⟩ := Run.trace_turn rules r t
    refine ⟨g, recent, ?_, by rw [came]; exact covers, fun _ same => by rw [came]; exact same⟩
    rw [← Run.turn_onto g first recent rules r t keep window]
    exact .turn t
  | call callee => exact ⟨g, recent, .call callee, covers, fun _ same => same⟩
  | noop => exact ⟨g, recent, .noop, covers, fun _ same => same⟩
  | other name => exact ⟨g, recent, .other name, covers, fun _ same => same⟩
  | paint c =>
    obtain ⟨g', painted, covered, recents⟩ :=
      Run.paint_onto first recent grounded covers rules slot c keep window
    refine ⟨g', recent, ?_, covered, fun _ same => same.trans recents.symm⟩
    have effect : Effect (rules.pruned keep window) (r.onto g first recent) slot (.paint c) none _ :=
      .paint c
    rwa [painted] at effect

theorem Dispatch.onto {rules : Rules} {r : Run} {slot : Slot} {i : Instruction}
    {drawn : Option Color} {progress : Progress} {g final : Grid}
    (dispatched : Dispatch rules r slot i drawn progress) (grounded : r.trace.Grounded)
    (covers : g.Covers r.trace.world final)
    (later : ∀ q tile, progress.trace.unpainted.tile? q = some tile → final.tile? q = some tile)
    (keep : Slot → Bool) (window : Nat) (first : Grid) (recent : List Slot) :
    ∃ g' recent',
      Dispatch (rules.pruned keep window) (r.onto g first recent) slot i none
        (progress.onto g' first recent') ∧
      g'.Covers progress.trace.world final ∧
      (window = rules.window → recent = r.trace.recentForwards →
        recent' = progress.trace.recentForwards) := by
  have recorded := Trace.record_onto g first recent r.trace slot i r.departed
  cases dispatched with
  | earlyExit enough =>
    refine ⟨g, recent, ?_, by simpa using covers, fun _ same => by simpa using same⟩
    have early : Dispatch (rules.pruned keep window) (r.onto g first recent) slot i none _ :=
      .earlyExit (by
        change ((r.trace.onto g first recent).record slot i r.departed).hasSeenEnough _ = true
        rw [recorded]
        exact enough)
    change Dispatch _ _ _ _ none (.ended
      { (r.trace.onto g first recent).record slot i r.departed with terminal := .earlyExit }) at early
    rw [recorded] at early
    exact early
  | act more effect =>
    obtain ⟨g', recent', replayed, covered, recents⟩ := effect.onto
      (grounded.congr (by simp) (by simp) (by simp)) (by simpa using covers) later keep window
      first recent
    refine ⟨g', recent', .act ?_ ?_, covered, fun same before => recents same (by simpa using before)⟩
    · change ((r.trace.onto g first recent).record slot i r.departed).hasSeenEnough _ = false
      rw [recorded]
      exact more
    · change Effect _ { r with
        trace := (r.trace.onto g first recent).record slot i r.departed } _ _ none _
      rw [recorded]
      exact replayed

end GridRobot
