import GridRobot.Proofs.Run.Log

namespace GridRobot

variable {σ : Type} [RandomSource σ]

namespace ArrivalMap

variable {κ : Type u} {α : Type v} [DecidableEq κ]

theorem contains_iff {m : ArrivalMap κ α} {k : κ} : m.contains k = true ↔ k ∈ m.keys := by
  simp [contains, keys]

theorem contains_alter {m : ArrivalMap κ α} {k l : κ} {f : Option α → α} :
    (m.alter k f).contains l = true ↔ l = k ∨ m.contains l = true := by
  rw [contains_iff, contains_iff, keys_alter]
  split
  · rename_i mem
    constructor
    · exact .inr
    · rintro (rfl | h)
      · exact mem
      · exact h
  · rw [List.mem_append, List.mem_singleton, or_comm]

end ArrivalMap

namespace Trace

theorem paint_eq {t : Trace} {tile : Tile} (here : t.here = some tile) (c : Color) :
    t.paint c = if tile.color = some c then t else
      { t with
        world := t.world.put t.final.position (some { tile with color := some c })
        visited := t.visited.push c
        painted := t.painted.insert t.final.position c } := by
  simp only [paint, here]

@[simp]
theorem final_paint (t : Trace) (c : Color) : (t.paint c).final = t.final := by
  unfold paint
  dsimp only
  split
  · split <;> rfl
  · rfl

theorem tile?_paint {t : Trace} {tile : Tile} (here : t.here = some tile) (c : Color) (q : Position) :
    (t.paint c).world.tile? q =
      if q = t.final.position then some { tile with color := some c } else t.world.tile? q := by
  rw [paint_eq here]
  split
  · rename_i same
    split
    · rename_i there
      rw [there, ← same]
      exact here
    · rfl
  · exact Grid.tile?_put _ _ _ _ (Grid.contains_of_tile? here)

structure Grounded (t : Trace) : Prop where
  standing : t.here.isSome = true
  width : t.unpainted.width = t.world.width
  height : t.unpainted.height = t.world.height
  placed : ∀ q, (t.unpainted.tile? q).isSome = (t.world.tile? q).isSome

structure Precedes (t u : Trace) : Prop where
  start : u.start = t.start
  width : u.unpainted.width = t.unpainted.width
  height : u.unpainted.height = t.unpainted.height
  tiles : ∀ q tile, t.unpainted.tile? q = some tile → u.unpainted.tile? q = some tile
  executed : ∀ s, t.executed.contains s = true → u.executed.contains s = true

namespace Precedes

theorem congr {t u : Trace} (start : u.start = t.start) (unpainted : u.unpainted = t.unpainted)
    (executed : u.executed = t.executed) : t.Precedes u := by
  refine ⟨start, ?_, ?_, ?_, ?_⟩
  · rw [unpainted]
  · rw [unpainted]
  · rw [unpainted]
    exact fun _ _ there => there
  · rw [executed]
    exact fun _ done => done

theorem trans {t u v : Trace} (first : t.Precedes u) (second : u.Precedes v) : t.Precedes v where
  start := second.start.trans first.start
  width := second.width.trans first.width
  height := second.height.trans first.height
  tiles q tile there := second.tiles q tile (first.tiles q tile there)
  executed s done := second.executed s (first.executed s done)

end Precedes

theorem Grounded.contains_iff {t : Trace} (grounded : t.Grounded) (q : Position) :
    t.unpainted.Contains q ↔ t.world.Contains q := by
  simp [Grid.Contains, grounded.width, grounded.height]

end Trace

namespace Run

theorem trace_unlessBack (r : Run) (c : Config) (t : Trace) :
    ∃ terminal, (r.unlessBack c t).trace = { t with terminal } := by
  unfold unlessBack
  split
  · exact ⟨.loop, rfl⟩
  · exact ⟨t.terminal, rfl⟩

theorem trace_arrive (rules : Rules) (r : Run) (target : Position) :
    ∃ turning terminal,
      (r.arrive rules target).trace = { r.trace.moveTo target turning with terminal } :=
  ⟨_, trace_unlessBack _ _ _⟩

theorem trace_turn (rules : Rules) (r : Run) (t : Turn) :
    ∃ terminal, (r.turn rules t).trace =
      { r.trace with final := { r.trace.final with heading := r.trace.final.heading.turned t },
                     terminal } :=
  trace_unlessBack _ _ _

end Run

namespace Trace.Grounded

variable {t : Trace}

theorem congr {u : Trace} (grounded : t.Grounded) (world : u.world = t.world)
    (unpainted : u.unpainted = t.unpainted) (position : u.final.position = t.final.position) :
    u.Grounded := by
  obtain ⟨standing, width, height, placed⟩ := grounded
  constructor
  · rwa [here, world, position]
  · rw [unpainted, world, width]
  · rw [unpainted, world, height]
  · rwa [unpainted, world]

theorem moveTo (grounded : t.Grounded) {target : Position} {tile : Tile}
    (onto : t.world.tile? target = some tile) (turning : Bool) :
    (t.moveTo target turning).Grounded where
  standing := by simp [here, Trace.moveTo, onto]
  width := grounded.width
  height := grounded.height
  placed := grounded.placed

theorem tile?_place (grounded : t.Grounded) {target : Position}
    (inside : t.world.Contains target) (c : Color) (q : Position) :
    (t.place target c).world.tile? q =
        (if q = target then some ⟨some c, false⟩ else t.world.tile? q) ∧
      (t.place target c).unpainted.tile? q =
        (if q = target then some ⟨some c, false⟩ else t.unpainted.tile? q) :=
  ⟨Grid.tile?_put _ _ _ _ inside,
    Grid.tile?_put _ _ _ _ ((grounded.contains_iff target).mpr inside)⟩

theorem place (grounded : t.Grounded) {target : Position} (inside : t.world.Contains target)
    (c : Color) : (t.place target c).Grounded where
  standing := by
    have standing := grounded.standing
    rw [here, (grounded.tile?_place inside c _).1]
    split
    · rfl
    · exact standing
  width := grounded.width
  height := grounded.height
  placed q := by
    rw [(grounded.tile?_place inside c q).1, (grounded.tile?_place inside c q).2]
    split
    · rfl
    · exact grounded.placed q

theorem paint (grounded : t.Grounded) (c : Color) : (t.paint c).Grounded := by
  obtain ⟨tile, here⟩ := Option.isSome_iff_exists.mp grounded.standing
  rw [paint_eq here]
  split
  · exact grounded
  have put := Grid.tile?_put t.world t.final.position
  exact {
    standing := by rw [Trace.here, put _ _ (Grid.contains_of_tile? here)]; simp
    width := grounded.width
    height := grounded.height
    placed := by
      intro q
      rw [put _ _ (Grid.contains_of_tile? here), grounded.placed]
      split
      · rename_i same
        simp [same, here]
      · rfl }

end Trace.Grounded

theorem Effect.grounded {rules : Rules} {r : Run} {slot : Slot} {action : Action}
    {drawn : Option Color} {progress : Progress}
    (effect : Effect rules r slot action drawn progress) (grounded : r.trace.Grounded) :
    progress.trace.Grounded := by
  have departed : (r.departing rules slot).trace.Grounded := grounded.congr rfl rfl rfl
  cases effect with
  | boundary => exact grounded.congr rfl rfl rfl
  | move tile onto =>
    obtain ⟨turning, terminal, same⟩ := Run.trace_arrive rules (r.departing rules slot) r.trace.ahead
    rw [same]
    exact (departed.moveTo onto turning).congr rfl rfl rfl
  | pave c inside void =>
    obtain ⟨turning, terminal, same⟩ :=
      Run.trace_arrive rules (r.paving rules slot c) r.trace.ahead
    rw [same]
    have onto := (departed.tile?_place inside c r.trace.ahead).1
    rw [if_pos rfl] at onto
    exact ((departed.place inside c).moveTo onto turning).congr rfl rfl rfl
  | turn t =>
    obtain ⟨terminal, same⟩ := Run.trace_turn rules r t
    rw [same]
    exact grounded.congr rfl rfl rfl
  | call | noop | other => exact grounded.congr rfl rfl rfl
  | paint c =>
    change (r.paint rules slot c).trace.Grounded
    unfold Run.paint
    split
    · exact grounded
    · exact grounded.paint c

theorem Dispatch.grounded {rules : Rules} {r : Run} {slot : Slot} {i : Instruction}
    {drawn : Option Color} {progress : Progress}
    (dispatched : Dispatch rules r slot i drawn progress) (grounded : r.trace.Grounded) :
    progress.trace.Grounded := by
  have recorded : (r.trace.record slot i r.departed).Grounded :=
    grounded.congr (by simp) (by simp) (by simp)
  cases dispatched with
  | earlyExit => exact recorded.congr rfl rfl rfl
  | act _ effect => exact effect.grounded recorded

theorem Logged.grounded {rules : Rules} {n : Nat} {origin : CallStack} {skipped : Nat} {r : Run}
    {source after : σ} {log : List Event} {t : Trace}
    (logged : Logged rules n origin skipped r source log t after) (grounded : r.trace.Grounded) :
    t.Grounded :=
  logged.preserves Dispatch.grounded grounded

theorem Effect.precedes {rules : Rules} {r : Run} {slot : Slot} {action : Action}
    {drawn : Option Color} {progress : Progress}
    (effect : Effect rules r slot action drawn progress) (grounded : r.trace.Grounded) :
    r.trace.Precedes progress.trace := by
  cases effect with
  | boundary => exact .congr rfl rfl rfl
  | move tile onto =>
    obtain ⟨turning, terminal, same⟩ := Run.trace_arrive rules (r.departing rules slot) r.trace.ahead
    rw [same]
    exact .congr rfl rfl rfl
  | pave c inside void =>
    obtain ⟨turning, terminal, same⟩ :=
      Run.trace_arrive rules (r.paving rules slot c) r.trace.ahead
    rw [same]
    refine ⟨rfl, rfl, rfl, fun q tile there => ?_, fun _ done => done⟩
    have other : q ≠ r.trace.ahead := by
      rintro rfl
      have placed := grounded.placed r.trace.ahead
      rw [there, void] at placed
      cases placed
    have put := (grounded.tile?_place inside c q).2
    rw [if_neg other] at put
    exact put.trans there
  | turn t =>
    obtain ⟨terminal, same⟩ := Run.trace_turn rules r t
    rw [same]
    exact .congr rfl rfl rfl
  | call | noop | other => exact .congr rfl rfl rfl
  | paint c =>
    obtain ⟨world, visited, painted, same, -⟩ := Run.paint_frame rules r slot c
    rw [same]
    exact .congr rfl rfl rfl

theorem Dispatch.precedes {rules : Rules} {r : Run} {slot : Slot} {i : Instruction}
    {drawn : Option Color} {progress : Progress}
    (dispatched : Dispatch rules r slot i drawn progress) (grounded : r.trace.Grounded) :
    (r.trace.record slot i r.departed).Precedes progress.trace := by
  cases dispatched with
  | earlyExit => exact .congr rfl rfl rfl
  | act _ effect =>
    exact effect.precedes (grounded.congr (by simp) (by simp) (by simp))

theorem Trace.precedes_record (t : Trace) (slot : Slot) (i : Instruction)
    (departed : List Position) : t.Precedes (t.record slot i departed) := by
  refine ⟨by simp, by simp, by simp, fun q tile there => by simpa using there, fun s executed => ?_⟩
  rw [executed_record, ArrivalMap.contains_alter]
  exact .inr executed

theorem Dispatch.contains_executed {rules : Rules} {r : Run} {slot : Slot} {i : Instruction}
    {drawn : Option Color} {progress : Progress}
    (dispatched : Dispatch rules r slot i drawn progress) (grounded : r.trace.Grounded) :
    progress.trace.executed.contains slot = true := by
  apply (dispatched.precedes grounded).executed
  rw [Trace.executed_record, ArrivalMap.contains_alter]
  exact .inl rfl

theorem Logged.precedes {rules : Rules} {n : Nat} {origin : CallStack} {skipped : Nat} {r : Run}
    {source after : σ} {log : List Event} {t : Trace}
    (logged : Logged rules n origin skipped r source log t after) (grounded : r.trace.Grounded) :
    r.trace.Precedes t := by
  have both : t.Grounded ∧ r.trace.Precedes t :=
    logged.preserves (P := fun u => u.Grounded ∧ r.trace.Precedes u)
      (fun dispatched known => ⟨dispatched.grounded known.1,
        known.2.trans ((Trace.precedes_record _ _ _ _).trans (dispatched.precedes known.1))⟩)
      ⟨grounded, .congr rfl rfl rfl⟩
  exact both.2

end GridRobot
