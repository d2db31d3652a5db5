import GridRobot.Proofs.Grid.Motion
import GridRobot.Proofs.Run.Course
import GridRobot.Proofs.Run.Necessity
import GridRobot.Proofs.Run.Record

namespace GridRobot

namespace ArrivalMap

variable {κ : Type u} {ι : Type w} {α : Type v}

def mapKeys (f : κ → ι) (m : ArrivalMap κ α) : ArrivalMap ι α :=
  ⟨m.entries.map fun e => (f e.1, e.2)⟩

theorem isEmpty_mapKeys (f : κ → ι) (m : ArrivalMap κ α) : (m.mapKeys f).isEmpty = m.isEmpty := by
  simp [isEmpty, mapKeys]

variable [DecidableEq κ] [DecidableEq ι] {f : κ → ι}

theorem get?_mapKeys (inj : ∀ k l, f k = f l ↔ k = l) (m : ArrivalMap κ α) (k : κ) :
    (m.mapKeys f).get? (f k) = m.get? k := by
  simp [get?, mapKeys, List.find?_map, Function.comp_def, inj]

theorem contains_mapKeys (inj : ∀ k l, f k = f l ↔ k = l) (m : ArrivalMap κ α) (k : κ) :
    (m.mapKeys f).contains (f k) = m.contains k := by
  simp [contains, mapKeys, List.any_map, Function.comp_def, inj]

theorem insert_mapKeys (inj : ∀ k l, f k = f l ↔ k = l) (m : ArrivalMap κ α) (k : κ) (a : α) :
    (m.mapKeys f).insert (f k) a = (m.insert k a).mapKeys f := by
  obtain ⟨entries⟩ := m
  simp only [insert, alter, mapKeys, mk.injEq]
  induction entries with
  | nil => rfl
  | cons e rest ih =>
    simp only [List.map_cons, alter.go, inj, ih]
    split <;> rfl

end ArrivalMap

variable {σ : Type} [RandomSource σ]

namespace Motion

variable (m : Motion)

def pose (p : Pose) : Pose :=
  ⟨m.position p.position, m.heading p.heading⟩

def trace (t : Trace) : Trace :=
  { t with
    world := m.grid t.world
    unpainted := m.grid t.unpainted
    start := m.pose t.start
    final := m.pose t.final
    path := t.path.map m.position
    turnPositions := t.turnPositions.map m.position
    painted := t.painted.mapKeys m.position }

def run (r : Run) : Run :=
  { r with
    trace := m.trace r.trace
    entry := r.entry.map m.heading
    departed := r.departed.map m.position }

def progress : Progress → Progress
  | .running r => .running (m.run r)
  | .ended t => .ended (m.trace t)

theorem toList_path_trace (t : Trace) : (m.trace t).path.toList = t.path.toList.map m.position :=
  Array.toList_map

theorem pose_inj {p q : Pose} : m.pose p = m.pose q ↔ p = q := by
  obtain ⟨position, heading⟩ := p
  obtain ⟨position', heading'⟩ := q
  simp [pose, position_inj, heading_inj]

theorem contains_departed (departed : List Position) (p : Position) :
    (departed.map m.position).contains (m.position p) = departed.contains p := by
  rw [Bool.eq_iff_iff]
  simp [m.position_inj]

section Painted

variable (painted : ArrivalMap Position Color) (p : Position)

theorem get?_painted : (painted.mapKeys m.position).get? (m.position p) = painted.get? p :=
  ArrivalMap.get?_mapKeys (fun _ _ => m.position_inj) painted p

theorem contains_painted :
    (painted.mapKeys m.position).contains (m.position p) = painted.contains p :=
  ArrivalMap.contains_mapKeys (fun _ _ => m.position_inj) painted p

theorem insert_painted (c : Color) :
    (painted.mapKeys m.position).insert (m.position p) c =
      (painted.insert p c).mapKeys m.position :=
  ArrivalMap.insert_mapKeys (fun _ _ => m.position_inj) painted p c

end Painted

/-! ## One instruction -/

theorem record_trace (t : Trace) (slot : Slot) (i : Instruction) (departed : List Position) :
    (m.trace t).record slot i (departed.map m.position) = m.trace (t.record slot i departed) := by
  unfold Trace.record
  cases i.condition with
  | none => rfl
  | some c => simp only [trace, pose, contains_departed, get?_painted]

theorem ahead_trace (t : Trace) : (m.trace t).ahead = m.position t.ahead :=
  (m.position_step _ _).symm

theorem isBack_trace (t : Trace) (c : Config) : (m.trace t).isBack c = t.isBack c := by
  have same : ((m.trace t).final == (m.trace t).start) = (t.final == t.start) := by
    rw [Bool.eq_iff_iff]
    simp [trace, m.pose_inj]
  simp only [Trace.isBack, same]
  rfl

variable {m}

theorem Fits.here_trace {t : Trace} (fits : m.Fits t.world) : (m.trace t).here = t.here :=
  fits.tile? t.final.position

theorem Fits.trace_moveTo {t : Trace} (fits : m.Fits t.world) (p : Position) (turning : Bool) :
    (m.trace t).moveTo (m.position p) turning = m.trace (t.moveTo p turning) := by
  have tile : (m.trace t).world.tile? (m.position p) = t.world.tile? p := fits.tile? p
  simp only [Trace.moveTo, tile]
  cases turning <;> simp [trace, pose]

theorem Fits.trace_paint {t : Trace} (fits : m.Fits t.world) (c : Color) :
    (m.trace t).paint c = m.trace (t.paint c) := by
  cases here : t.here with
  | none =>
    have there : (m.trace t).here = none := fits.here_trace.trans here
    simp only [Trace.paint, here, there]
  | some tile =>
    rw [Trace.paint_eq here, Trace.paint_eq (fits.here_trace.trans here)]
    split
    · rfl
    · have put := fits.put (Grid.contains_of_tile? here) (some { tile with color := some c })
      simp only [trace, pose, put, insert_painted]

theorem departing_run (rules : Rules) (r : Run) (slot : Slot) :
    (m.run r).departing rules slot = m.run (r.departing rules slot) := by
  simp only [Run.departing, run, trace, pose, contains_painted, contains_departed]
  split <;> rfl

theorem unlessBack_run (r : Run) (c : Config) (t : Trace) :
    (m.run r).unlessBack c (m.trace t) = m.progress (r.unlessBack c t) := by
  simp only [Run.unlessBack, isBack_trace]
  split <;> rfl

theorem Fits.run_arrive {r : Run} (fits : m.Fits r.trace.world) (rules : Rules) (p : Position) :
    (m.run r).arrive rules (m.position p) = m.progress (r.arrive rules p) := by
  have turning : (m.run r).entry.any (fun entry => entry.isQuarterTurn (m.run r).trace.final.heading) =
      r.entry.any fun entry => entry.isQuarterTurn r.trace.final.heading := by
    simp [run, trace, pose, Option.any_map, isQuarterTurn_heading]
  unfold Run.arrive
  dsimp only
  rw [turning]
  change Run.unlessBack _ _ ((m.trace r.trace).moveTo _ _) = _
  rw [fits.trace_moveTo, ← unlessBack_run]
  rfl

theorem turn_run (rules : Rules) (r : Run) (t : Turn) :
    (m.run r).turn rules t = m.progress (r.turn rules t) := by
  unfold Run.turn
  rw [← unlessBack_run]
  congr 1
  simp [run, trace, pose, heading_turned]

theorem Fits.run_paint {r : Run} (fits : m.Fits r.trace.world) (rules : Rules) (slot : Slot)
    (c : Color) : (m.run r).paint rules slot c = m.run (r.paint rules slot c) := by
  unfold Run.paint
  split
  · rfl
  · change { m.run r with trace := (m.trace r.trace).paint c } = _
    rw [fits.trace_paint]
    rfl

theorem Fits.trace_place {t : Trace} (fits : m.Fits t.world) (grounded : t.Grounded) {p : Position}
    (inside : t.world.Contains p) (c : Color) :
    (m.trace t).place (m.position p) c = m.trace (t.place p c) := by
  have world := fits.put inside (some ⟨some c, false⟩)
  have unpainted := (fits.congr grounded.width grounded.height).put
    ((grounded.contains_iff p).mpr inside) (some ⟨some c, false⟩)
  simp only [Trace.place, trace, world, unpainted]

theorem Fits.run_paving {r : Run} (fits : m.Fits r.trace.world) (grounded : r.trace.Grounded)
    (inside : r.trace.world.Contains r.trace.ahead) (rules : Rules) (slot : Slot) (c : Color) :
    (m.run r).paving rules slot c = m.run (r.paving rules slot c) := by
  have departed : (r.departing rules slot).trace.Grounded := grounded.congr rfl rfl rfl
  have placed := Fits.trace_place (t := (r.departing rules slot).trace) fits departed inside c
  have ahead : (m.run r).trace.ahead = m.position r.trace.ahead := m.ahead_trace r.trace
  rw [Run.paving, departing_run, ahead]
  simp only [run, placed]

end Motion

variable {m : Motion}

theorem Effect.moved {rules : Rules} {r : Run} {slot : Slot} {action : Action}
    {drawn : Option Color} {progress : Progress}
    (effect : Effect rules r slot action drawn progress) (fits : m.Fits r.trace.world)
    (grounded : r.trace.Grounded)
    (edge : ∀ t, progress = .ended t → t.terminal = .boundary → m.Fills r.trace.world) :
    Effect rules (m.run r) slot action drawn (m.progress progress) := by
  have ahead : (m.run r).trace.ahead = m.position r.trace.ahead := m.ahead_trace r.trace
  have world : (m.run r).trace.world = m.grid r.trace.world := rfl
  cases effect with
  | boundary outside =>
    have still : ¬ (m.run r).trace.world.Contains (m.run r).trace.ahead := by
      rw [ahead, world, m.contains_grid, edge _ rfl rfl]
      exact outside
    have moved : Effect rules (m.run r) slot .forward none _ := .boundary still
    rw [Motion.departing_run] at moved
    exact moved
  | move tile onto =>
    have there : (m.run r).trace.world.tile? (m.run r).trace.ahead = some tile := by
      rw [ahead, world, fits.tile?]
      exact onto
    have moved : Effect rules (m.run r) slot .forward none _ := .move tile there
    rw [Motion.departing_run, ahead,
      Motion.Fits.run_arrive (r := r.departing rules slot) fits] at moved
    exact moved
  | pave c inside void =>
    have within : (m.run r).trace.world.Contains (m.run r).trace.ahead := by
      rw [ahead, world, m.contains_grid]
      exact fits _ inside
    have bare : (m.run r).trace.world.tile? (m.run r).trace.ahead = none := by
      rw [ahead, world, fits.tile?]
      exact void
    have moved : Effect rules (m.run r) slot .forward (some c) _ := .pave c within bare
    rw [fits.run_paving grounded inside, ahead,
      Motion.Fits.run_arrive (r := r.paving rules slot c) fits] at moved
    exact moved
  | turn t =>
    rw [← Motion.turn_run]
    exact .turn t
  | call callee => exact .call callee
  | paint c =>
    have moved : Effect rules (m.run r) slot (.paint c) none _ := .paint c
    rw [fits.run_paint] at moved
    exact moved
  | noop => exact .noop
  | other name => exact .other name

theorem Dispatch.moved {rules : Rules} {r : Run} {slot : Slot} {i : Instruction}
    {drawn : Option Color} {progress : Progress}
    (dispatched : Dispatch rules r slot i drawn progress) (fits : m.Fits r.trace.world)
    (grounded : r.trace.Grounded)
    (edge : ∀ t, progress = .ended t → t.terminal = .boundary → m.Fills r.trace.world) :
    Dispatch rules (m.run r) slot i drawn (m.progress progress) := by
  have recorded : (m.run r).trace.record slot i (m.run r).departed =
      m.trace (r.trace.record slot i r.departed) :=
    m.record_trace r.trace slot i r.departed
  have world : (r.trace.record slot i r.departed).world = r.trace.world := Trace.world_record _ _ _ _
  cases dispatched with
  | earlyExit enough =>
    have moved : Dispatch rules (m.run r) slot i none _ :=
      .earlyExit (by rw [recorded]; exact enough)
    rw [recorded] at moved
    exact moved
  | act more effect =>
    refine .act (by rw [recorded]; exact more) ?_
    rw [recorded]
    exact effect.moved (by rw [world]; exact fits) (grounded.congr (by simp) (by simp) (by simp))
      (by rw [world]; exact edge)

theorem Dispatch.size {rules : Rules} {r : Run} {slot : Slot} {i : Instruction}
    {drawn : Option Color} {progress : Progress}
    (dispatched : Dispatch rules r slot i drawn progress) (grounded : r.trace.Grounded) :
    progress.trace.world.width = r.trace.world.width ∧
      progress.trace.world.height = r.trace.world.height := by
  have after := dispatched.grounded grounded
  have precedes := (Trace.precedes_record _ _ _ _).trans (dispatched.precedes grounded)
  exact ⟨after.width.symm.trans (precedes.width.trans grounded.width),
    after.height.symm.trans (precedes.height.trans grounded.height)⟩

/-! ## Whole runs -/

theorem Logged.moved {rules : Rules} {n : Nat} {origin : CallStack} {skipped : Nat} {r : Run}
    {source after : σ} {log : List Event} {t : Trace}
    (logged : Logged rules n origin skipped r source log t after) (fits : m.Fits r.trace.world)
    (grounded : r.trace.Grounded) (edge : t.terminal = .boundary → m.Fills r.trace.world) :
    ∃ log', Logged rules n origin skipped (m.run r) source log' (m.trace t) after := by
  induction logged with
  | exhausted => exact ⟨_, .exhausted⟩
  | spent past => exact ⟨_, .spent past⟩
  | passed left fetched _ ih =>
    obtain ⟨log', rest⟩ := ih fits grounded edge
    rw [← fits.here_trace] at fetched
    exact ⟨_, .passed left fetched rest⟩
  | ended left fetched dispatched draws =>
    have moved := dispatched.moved fits grounded (by rintro t ⟨⟩; exact edge)
    rw [← fits.here_trace] at fetched
    exact ⟨_, .ended left fetched moved draws⟩
  | executed left fetched dispatched draws _ ih =>
    have size := dispatched.size grounded
    obtain ⟨log', rest⟩ := ih (fits.congr size.1 size.2) (dispatched.grounded grounded)
      fun outside => (edge outside).congr size.1 size.2
    have moved := dispatched.moved fits grounded (by rintro t ⟨⟩)
    rw [← fits.here_trace] at fetched
    exact ⟨_, .executed left fetched moved draws rest⟩

theorem Motion.Fits.begin? {world : Grid} (fits : m.Fits world) (start : Pose) :
    Trace.begin? (m.grid world) (m.pose start) = (Trace.begin? world start).map m.trace := by
  have tile : (m.grid world).tile? (m.pose start).position = world.tile? start.position :=
    fits.tile? start.position
  simp only [Trace.begin?, tile, Option.map_map]
  cases world.tile? start.position with
  | none => rfl
  | some tile => simp [trace, pose]; rfl

theorem runFrom?_moved {rules : Rules} {world : Grid} {start : Pose} {source after : σ} {t : Trace}
    (ran : runFrom? rules world start source = (some t, after)) (fits : m.Fits world)
    (edge : t.terminal = .boundary → m.Fills world) :
    runFrom? rules (m.grid world) (m.pose start) source = (some (m.trace t), after) := by
  obtain ⟨begun, log, begins, logged⟩ := runFrom?_eq_some.mp ran
  have grounded := Trace.grounded_begin begins
  have moved := fits.begin? start
  rw [begins] at moved
  obtain ⟨tile, here, rfl⟩ := Trace.begin?_eq_some begins
  obtain ⟨log', logged⟩ := logged.moved fits grounded edge
  exact runFrom?_eq_some.mpr ⟨_, log', moved, logged⟩

theorem runFrom?_of_fills {world : Grid} (fills : m.Fills world) (rules : Rules) (start : Pose)
    (source : σ) :
    runFrom? rules (m.grid world) (m.pose start) source =
      ((runFrom? rules world start source).1.map m.trace,
        (runFrom? rules world start source).2) := by
  cases begins : Trace.begin? world start with
  | none =>
    have moved := fills.fits.begin? start
    rw [begins] at moved
    simp only [runFrom?, begins, moved]
    rfl
  | some begun =>
    obtain ⟨t, after, ran⟩ := exists_runFrom? rules begins source
    rw [ran, runFrom?_moved ran fills.fits fun _ => fills]
    rfl

/-! ## Verdicts -/

theorem Motion.retraceLength_map {path : List Position}
    (walk : path.IsChain fun p q => ∃ h, q = p.step h) (h : Heading) :
    retraceLength (m.heading h) (path.map m.position) = retraceLength h path := by
  induction walk generalizing h with
  | nil => rfl
  | singleton => rfl
  | cons_cons step _ ih =>
    obtain ⟨k, rfl⟩ := step
    simp only [List.map_cons, retraceLength, m.position_step, Position.headingTo_step,
      m.turnDistance_heading] at ih ⊢
    rw [ih]

theorem Motion.Fits.assess {t : Trace} (fits : m.Fits t.world)
    (walk : t.path.toList.IsChain fun p q => ∃ h, q = p.step h) (c : Config) :
    (m.trace t).assess c = t.assess c := by
  have tiles : (m.trace t).world.tileCount = t.world.tileCount := fits.tileCount
  have box : max (m.trace t).world.boundingBox.1 (m.trace t).world.boundingBox.2 =
      max t.world.boundingBox.1 t.world.boundingBox.2 := fits.boundingBox
  have dense : (m.trace t).world.denseCount Grid.denseThreshold =
      t.world.denseCount Grid.denseThreshold := fits.denseCount _
  have retrace : retraceLength (m.trace t).start.heading (m.trace t).path.toList =
      retraceLength t.start.heading t.path.toList := by
    rw [m.toList_path_trace]
    exact retraceLength_map walk t.start.heading
  have turns : (m.trace t).turnPositions.size = t.turnPositions.size := Array.size_map
  have length : (m.trace t).pathLength = t.pathLength := by
    simp [Trace.pathLength, trace]
  have painted : (m.trace t).painted.isEmpty = t.painted.isEmpty :=
    ArrivalMap.isEmpty_mapKeys _ _
  simp only [Trace.assess, Trace.checks, tiles, box, dense, retrace, turns, length, painted]
  rfl

section Examined

variable (p : Program) (c : Config) (window : Nat) {world : Grid} (start : Pose)

theorem passesWithout_moved (fills : m.Fills world)
    (standing : (world.tile? start.position).isSome = true) (slot : Slot) (source : σ) :
    passesWithout p c window (m.grid world) (m.pose start) slot source =
      passesWithout p c window world start slot source := by
  obtain ⟨begun, begins⟩ := Trace.exists_begin? standing
  obtain ⟨t, after, ran⟩ := exists_runFrom? ⟨p, c, fun s => s == slot, window⟩ begins source
  obtain ⟨entry, course⟩ := course_of_runFrom? ran
  obtain ⟨-, width, height⟩ := size_of_runFrom? ran
  have assessed := (fills.fits.congr width height).assess course.walk c
  rw [passesWithout_apply, passesWithout_apply, runFrom?_of_fills fills, ran]
  simp only [Option.map_some, Option.elim_some, assessed]

theorem countUnneeded_moved (fills : m.Fills world)
    (standing : (world.tile? start.position).isSome = true) (found : Nat) (slots : List Slot)
    (source : σ) :
    countUnneeded p c window (m.grid world) (m.pose start) found slots source =
      countUnneeded p c window world start found slots source := by
  induction slots generalizing found source with
  | nil => rfl
  | cons slot rest ih =>
    have first := passesWithout_moved p c window start fills standing slot source
    rcases made : passesWithout p c window world start slot source with ⟨b | _ | _, after⟩
    · rw [countUnneeded_of_error (first.trans made), countUnneeded_of_error made]
    · rw [countUnneeded_of_needed (first.trans made), countUnneeded_of_needed made, ih]
    · rw [countUnneeded_of_unneeded (first.trans made), countUnneeded_of_unneeded made, ih]

end Examined

theorem evaluate_moved {t : Trace} (fills : m.Fills t.unpainted) (grounded : t.Grounded)
    (standing : (t.unpainted.tile? t.start.position).isSome = true)
    (walk : t.path.toList.IsChain fun p q => ∃ h, q = p.step h) (p : Program) (c : Config)
    (window : Nat) (source : σ) :
    (m.trace t).evaluate p c window source = t.evaluate p c window source := by
  have fits := fills.fits.congr grounded.width.symm grounded.height.symm
  have painted : (m.trace t).painted.isEmpty = t.painted.isEmpty :=
    ArrivalMap.isEmpty_mapKeys _ _
  have count := countUnneeded_moved p c window t.start fills standing 0 (t.paintSlots p) source
  unfold Trace.evaluate
  rw [fits.assess walk, painted]
  cases t.assess c with
  | passed =>
    dsimp only
    split
    · rw [bind_apply, bind_apply, ← count]
      rfl
    · rfl
  | failed | broken => rfl

theorem simulate_moved {p : Program} {c : Config} {world : Grid} {start : Pose} {window : Nat}
    {source after : σ} {a : Attempt}
    (simulated : simulate p c ⟨some world, some start, window⟩ source = (.ok a, after))
    (fills : m.Fills world) :
    simulate p c ⟨some (m.grid world), some (m.pose start), window⟩ source =
      (.ok { a with trace := m.trace a.trace }, after) := by
  obtain ⟨between, executed, rfl, judged⟩ := simulate_eq_ok.mp simulated
  have ran := execute_eq_ok.mp executed
  obtain ⟨grounded, width, height⟩ := size_of_runFrom? ran
  obtain ⟨entry, course⟩ := course_of_runFrom? ran
  have moved := runFrom?_moved ran fills.fits fun _ => fills
  have unpainted : m.Fills a.trace.unpainted :=
    fills.congr (grounded.width.trans width) (grounded.height.trans height)
  -- the same draws leave the source for the re-runs as it was left in the first world
  refine simulate_eq_ok.mpr ⟨between, execute_eq_ok.mpr moved, rfl, ?_⟩
  rw [evaluate_moved unpainted grounded (standing_start_of_execute executed) course.walk]
  exact judged

/-- A run and the verdict on it do not depend on how the world is turned. -/
theorem simulate_clockwise (p : Program) (c : Config) {world : Grid} {start : Pose}
    (standing : (world.tile? start.position).isSome = true) (window : Nat) (source : σ) :
    ∃ a after,
      simulate p c ⟨some world, some start, window⟩ source = (.ok a, after) ∧
      let m := Motion.clockwise world.width world.height
      simulate p c ⟨some (m.grid world), some (m.pose start), window⟩ source =
        (.ok { a with trace := m.trace a.trace }, after) := by
  obtain ⟨begun, begins⟩ := Trace.exists_begin? standing
  obtain ⟨t, between, ran⟩ := exists_runFrom? ⟨p, c, fun _ => false, window⟩ begins source
  have executed : execute p c ⟨some world, some start, window⟩ (fun _ => false) source =
      (.ok t, between) := execute_eq_ok.mpr ran
  obtain ⟨verdict, after, judged⟩ : ∃ verdict after,
    t.evaluate p c window between = (verdict, after) := ⟨_, _, rfl⟩
  have simulated := simulate_eq_ok (a := ⟨p, t, verdict⟩).mpr ⟨between, executed, rfl, judged⟩
  exact ⟨_, _, simulated, simulate_moved simulated (Motion.fills_clockwise world)⟩

def oneBend : Config where
  slotsPerRoutine := ⟨3, 0, 0, 0, 0⟩
  maxSteps := 5
  minCoverage := 0
  minTiles := 0
  minBoundingBox := 0
  minTurns := 1
  maxAverageExecutions := 1000
  minRetraceRatio := 0
  minPathLength := 2
  maxUnneededPaints := 0

def twoRows : Grid :=
  ⟨3, 2, #v[#v[some ⟨some .red, false⟩, none, none], #v[none, none, some ⟨none, true⟩]]⟩

def paintMoveTurn : Program :=
  ⟨⟨[some ⟨.paint .green, none⟩, some ⟨.forward, some .green⟩, some ⟨.turn .right, none⟩],
    [], [], [], []⟩⟩

theorem simulate_clockwise_paintMoveTurn :
    ∃ (a : Attempt) (after : Tape),
      simulate paintMoveTurn oneBend ⟨some twoRows, some ⟨⟨0, 0⟩, .right⟩, 1⟩
        (⟨#[0.5], 0, false⟩ : Tape) = (.ok a, after) ∧
      a.verdict.isPassed = true ∧ a.trace.painted.isEmpty = false ∧
      a.trace.path.toList = [⟨0, 0⟩, ⟨1, 0⟩, ⟨1, 1⟩] ∧
      let m := Motion.clockwise 3 2
      (m.trace a.trace).path.toList = [⟨1, 0⟩, ⟨1, 1⟩, ⟨0, 1⟩] ∧
      simulate paintMoveTurn oneBend ⟨some (m.grid twoRows), some ⟨⟨1, 0⟩, .down⟩, 1⟩
        (⟨#[0.5], 0, false⟩ : Tape) = (.ok { a with trace := m.trace a.trace }, after) := by
  have evaluated : (simulate paintMoveTurn oneBend ⟨some twoRows, some ⟨⟨0, 0⟩, .right⟩, 1⟩
      (⟨#[0.5], 0, false⟩ : Tape)).1.toOption.any (fun a =>
        a.verdict.isPassed && !a.trace.painted.isEmpty &&
          decide (a.trace.path.toList = [⟨0, 0⟩, ⟨1, 0⟩, ⟨1, 1⟩])) = true := by
    decide +kernel
  obtain ⟨a, after, ran, tested⟩ := exists_ok_of_any evaluated
  rw [Bool.and_eq_true, Bool.and_eq_true, Bool.not_eq_true', decide_eq_true_eq] at tested
  obtain ⟨⟨passed, painted⟩, path⟩ := tested
  obtain ⟨b, later, first, second⟩ := simulate_clockwise paintMoveTurn oneBend
    (by decide : (twoRows.tile? (⟨⟨0, 0⟩, .right⟩ : Pose).position).isSome = true) 1
    (⟨#[0.5], 0, false⟩ : Tape)
  rw [ran, Prod.mk.injEq, Except.ok.injEq] at first
  obtain ⟨rfl, rfl⟩ := first
  refine ⟨a, after, ran, passed, painted, path, ?_, second⟩
  rw [show ((Motion.clockwise 3 2).trace a.trace).path.toList =
    a.trace.path.toList.map (Motion.clockwise 3 2).position from Array.toList_map, path]
  rfl

end GridRobot
