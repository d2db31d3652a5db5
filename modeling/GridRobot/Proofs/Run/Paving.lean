import GridRobot.Proofs.Grid.Measure
import GridRobot.Proofs.Grid.Tiles
import GridRobot.Proofs.Run.Record

/-!
How a run makes its world. The void cells on its path become tiles in the order in which the robot
comes to them (`Trace.Paved`), and a tile shows the colour of its last paint or else its first
(`Trace.Tinted`). Together they say what the world of a run is made of, `Trace.GrownFrom`.
-/

namespace GridRobot

variable {σ : Type} [RandomSource σ]

def Color.drawSeveral (ratios : ColorRatios) : Nat → StateM σ (List Color)
  | 0 => return []
  | n + 1 => do
    let c ← drawWeighted ratios
    return c :: (← drawSeveral ratios n)

theorem Color.drawSeveral_succ {ratios : ColorRatios} {n : Nat} {source between after : σ} {c : Color}
    {cs : List Color} (first : drawWeighted ratios source = (c, between))
    (rest : drawSeveral ratios n between = (cs, after)) :
    drawSeveral ratios (n + 1) source = (c :: cs, after) := by
  rw [drawSeveral, bind_apply, first, bind_apply, rest]
  rfl

/-! ## The path and the new tiles -/

/-- What an instruction adds to the path and to the unpainted world, by the colour drawn for it. -/
inductive Trace.Advances (t u : Trace) : Option Color → Prop
  | stay (path : u.path = t.path) (unpainted : u.unpainted = t.unpainted) : Advances t u none
  | tread (q : Position) (path : u.path = t.path.push q) (unpainted : u.unpainted = t.unpainted)
      (there : (t.unpainted.tile? q).isSome = true) : Advances t u none
  | pave (q : Position) (c : Color) (path : u.path = t.path.push q)
      (unpainted : u.unpainted = t.unpainted.put q (some ⟨some c, false⟩))
      (inside : t.unpainted.Contains q) (void : t.unpainted.tile? q = none) : Advances t u (some c)

theorem Effect.advances {rules : Rules} {r : Run} {slot : Slot} {action : Action}
    {drawn : Option Color} {progress : Progress}
    (effect : Effect rules r slot action drawn progress) (grounded : r.trace.Grounded) :
    r.trace.Advances progress.trace drawn := by
  cases effect with
  | boundary | call | noop | other => exact .stay rfl rfl
  | move tile onto =>
    obtain ⟨turning, terminal, came⟩ :=
      Run.trace_arrive rules (r.departing rules slot) r.trace.ahead
    rw [came]
    refine .tread r.trace.ahead rfl rfl ?_
    rw [grounded.placed, onto]
    rfl
  | pave c inside void =>
    obtain ⟨turning, terminal, came⟩ :=
      Run.trace_arrive rules (r.paving rules slot c) r.trace.ahead
    rw [came]
    refine .pave r.trace.ahead c rfl rfl ((grounded.contains_iff _).mpr inside) ?_
    rw [← Option.isNone_iff_eq_none, ← Option.not_isSome, grounded.placed, void]
    rfl
  | turn t =>
    obtain ⟨terminal, same⟩ := Run.trace_turn rules r t
    rw [same]
    exact .stay rfl rfl
  | paint c =>
    obtain ⟨world, visited, painted, same, -⟩ := Run.paint_frame rules r slot c
    rw [same]
    exact .stay rfl rfl

theorem Dispatch.advances {rules : Rules} {r : Run} {slot : Slot} {i : Instruction}
    {drawn : Option Color} {progress : Progress}
    (dispatched : Dispatch rules r slot i drawn progress) (grounded : r.trace.Grounded) :
    r.trace.Advances progress.trace drawn := by
  have recorded : (r.trace.record slot i r.departed).Grounded :=
    grounded.congr (by simp) (by simp) (by simp)
  cases dispatched with
  | earlyExit => exact .stay (Trace.path_record _ _ _ _) (Trace.unpainted_record _ _ _ _)
  | act _ effect =>
    have advances := effect.advances recorded
    cases advances with
    | stay path unpainted => exact .stay (by simpa using path) (by simpa using unpainted)
    | tread q path unpainted there =>
      exact .tread q (by simpa using path) (by simpa using unpainted) (by simpa using there)
    | pave q c path unpainted inside void =>
      exact .pave q c (by simpa using path) (by simpa using unpainted) (by simpa using inside)
        (by simpa using void)

/-- What a run adds to the path and to the unpainted world. The void cells on the stretch `walk` have
got the colours that were drawn, in order. -/
structure Trace.Paved (t u : Trace) (ratios : ColorRatios) (source after : σ) (walk : List Position)
    (placed : List (Position × Color)) : Prop where
  path : u.path.toList = t.path.toList ++ walk
  unpainted : u.unpainted = t.unpainted.pave placed
  cells : placed.map (·.1) = t.unpainted.cellsToPave walk
  inside : ∀ q ∈ placed.map (·.1), t.unpainted.Contains q
  drawn : Color.drawSeveral ratios placed.length source = (placed.map (·.2), after)

theorem Trace.Paved.refl (t : Trace) (ratios : ColorRatios) (source : σ) :
    t.Paved t ratios source source [] [] :=
  ⟨(List.append_nil _).symm, rfl, rfl, by rintro q ⟨⟩, rfl⟩

theorem Trace.Advances.paved {rules : Rules} {t u v : Trace} {drawn : Option Color}
    {source between after : σ} {walk : List Position} {placed : List (Position × Color)}
    (advances : t.Advances u drawn) (draws : Draws rules source drawn between)
    (paved : u.Paved v rules.config.colorRatios between after walk placed) :
    ∃ walk' placed', t.Paved v rules.config.colorRatios source after walk' placed' := by
  obtain ⟨longer, grown, cells, inside, several⟩ := paved
  cases advances with
  | stay path unpainted =>
    cases draws
    rw [path] at longer
    rw [unpainted] at grown cells inside
    exact ⟨walk, placed, longer, grown, cells, inside, several⟩
  | tread q path unpainted there =>
    cases draws
    rw [path, Array.toList_push, List.append_assoc] at longer
    rw [unpainted] at grown cells inside
    refine ⟨q :: walk, placed, longer, grown, ?_, inside, several⟩
    rw [cells, ← List.singleton_append, Grid.cellsToPave_append]
    simpa using there
  | pave q c path unpainted within void =>
    rw [path, Array.toList_push, List.append_assoc] at longer
    rw [unpainted] at grown cells inside
    refine ⟨q :: walk, (q, c) :: placed, longer, grown, ?_, ?_, Color.drawSeveral_succ draws several⟩
    · rw [Grid.cellsToPave_cons void within, List.map_cons, cells]
    · rw [List.map_cons, List.forall_mem_cons]
      exact ⟨within, inside⟩

theorem Logged.paved {rules : Rules} {n : Nat} {origin : CallStack} {skipped : Nat} {r : Run}
    {source after : σ} {log : List Event} {t : Trace}
    (logged : Logged rules n origin skipped r source log t after) (grounded : r.trace.Grounded) :
    ∃ walk placed, r.trace.Paved t rules.config.colorRatios source after walk placed := by
  induction logged with
  | exhausted => exact ⟨[], [], .refl _ _ _⟩
  | spent => exact ⟨[], [], .refl _ _ _⟩
  | passed _ _ _ ih => exact ih grounded
  | ended _ _ dispatched draws =>
    exact (dispatched.advances grounded).paved draws (.refl _ _ _)
  | executed _ _ dispatched draws _ ih =>
    obtain ⟨walk, placed, paved⟩ := ih (dispatched.grounded grounded)
    exact (dispatched.advances grounded).paved draws paved

/-! ## Colours -/

namespace Trace

/-- Tiles have the colour that they were painted in last, and painted positions are on the path. -/
structure Tinted (t : Trace) : Prop where
  shown : ∀ q, t.world.tile? q = (t.unpainted.tile? q).map fun tile =>
    { tile with color := (t.painted.get? q).or tile.color }
  onPath : ∀ q c, t.painted.get? q = some c → q ∈ t.path

theorem tinted_begin {world : Grid} {start : Pose} {t : Trace} (begun : begin? world start = some t) :
    t.Tinted := by
  obtain ⟨tile, here, rfl⟩ := begin?_eq_some begun
  refine ⟨fun q => ?_, by rintro q c ⟨⟩⟩
  exact Option.map_id'.symm

namespace Tinted

variable {t u : Trace}

theorem congr (tinted : t.Tinted) (world : u.world = t.world) (unpainted : u.unpainted = t.unpainted)
    (painted : u.painted = t.painted) (path : ∀ q ∈ t.path, q ∈ u.path) : u.Tinted := by
  obtain ⟨shown, onPath⟩ := tinted
  constructor
  · rwa [world, unpainted, painted]
  · rw [painted]
    exact fun q c there => path q (onPath q c there)

theorem place (tinted : t.Tinted) (grounded : t.Grounded) (walked : t.Walked) {q : Position}
    (inside : t.world.Contains q) (void : t.world.tile? q = none) (c : Color) :
    (t.place q c).Tinted := by
  obtain ⟨shown, onPath⟩ := tinted
  refine ⟨fun p => ?_, onPath⟩
  have placed := grounded.tile?_place inside c p
  rw [placed.1, placed.2]
  split
  · rename_i here
    -- what is painted is on the path, and there the tiles are placed already
    have bare : t.painted.get? q = none := by
      cases painted : t.painted.get? q with
      | none => rfl
      | some d =>
        have tile := walked q (onPath q d painted)
        rw [grounded.placed, void] at tile
        cases tile
    change _ = some (Tile.mk ((t.painted.get? p).or (some c)) false)
    rw [here, bare]
    rfl
  · exact shown p

theorem paint (tinted : t.Tinted) (grounded : t.Grounded) (traced : t.Traced) (c : Color) :
    (t.paint c).Tinted := by
  obtain ⟨shown, onPath⟩ := tinted
  obtain ⟨tile, here⟩ := Option.isSome_iff_exists.mp grounded.standing
  rw [paint_eq here]
  split
  · exact ⟨shown, onPath⟩
  have painted (q : Position) : (t.painted.insert t.final.position c).get? q =
      if q = t.final.position then some c else t.painted.get? q :=
    ArrivalMap.get?_alter _ _ _ _
  constructor
  · intro q
    dsimp only
    rw [Grid.tile?_put _ _ _ _ (Grid.contains_of_tile? here), painted]
    split
    · rename_i there
      obtain ⟨old, found, came⟩ := Option.map_eq_some_iff.mp ((shown _).symm.trans here)
      rw [there, found, ← came]
      rfl
    · exact shown q
  · intro q d there
    dsimp only at there
    rw [painted] at there
    split at there
    · rename_i same
      rw [same]
      exact traced.final
    · exact onPath q d there

end Tinted

end Trace

theorem Effect.tinted {rules : Rules} {r : Run} {slot : Slot} {action : Action}
    {drawn : Option Color} {progress : Progress}
    (effect : Effect rules r slot action drawn progress) (grounded : r.trace.Grounded)
    (traced : r.trace.Traced) (walked : r.trace.Walked) (tinted : r.trace.Tinted) :
    progress.trace.Tinted := by
  have push {t : Trace} (q : Position) : ∀ p ∈ t.path, p ∈ t.path.push q :=
    fun p mem => Array.mem_push.mpr (.inl mem)
  cases effect with
  | boundary | call | noop | other => exact tinted.congr rfl rfl rfl fun _ mem => mem
  | move tile onto =>
    obtain ⟨turning, terminal, came⟩ :=
      Run.trace_arrive rules (r.departing rules slot) r.trace.ahead
    rw [came]
    exact tinted.congr rfl rfl rfl (push _)
  | pave c inside void =>
    obtain ⟨turning, terminal, came⟩ :=
      Run.trace_arrive rules (r.paving rules slot c) r.trace.ahead
    rw [came]
    exact (tinted.place grounded walked inside void c).congr rfl rfl rfl (push _)
  | turn t =>
    obtain ⟨terminal, same⟩ := Run.trace_turn rules r t
    rw [same]
    exact tinted.congr rfl rfl rfl fun _ mem => mem
  | paint c =>
    change (r.paint rules slot c).trace.Tinted
    unfold Run.paint
    split
    · exact tinted
    · exact tinted.paint grounded traced c

theorem Dispatch.tinted {rules : Rules} {r : Run} {slot : Slot} {i : Instruction}
    {drawn : Option Color} {progress : Progress}
    (dispatched : Dispatch rules r slot i drawn progress) (grounded : r.trace.Grounded)
    (traced : r.trace.Traced) (walked : r.trace.Walked) (tinted : r.trace.Tinted) :
    progress.trace.Tinted := by
  have recorded : (r.trace.record slot i r.departed).Tinted :=
    tinted.congr (by simp) (by simp) (Trace.painted_record _ _ _ _) (by simp)
  cases dispatched with
  | earlyExit => exact recorded.congr rfl rfl rfl fun _ mem => mem
  | act _ effect =>
    refine effect.tinted (grounded.congr (by simp) (by simp) (by simp))
      (traced.congr (by simp) (by simp) (by simp)) ?_ recorded
    simpa [Trace.Walked] using walked

theorem tinted_of_execute {p : Program} {c : Config} {s : Setting} {suppressed : Slot → Bool}
    {source after : σ} {t : Trace} (ran : execute p c s suppressed source = (.ok t, after)) :
    t.Tinted := by
  have both : t.Walked ∧ t.Tinted := by
    refine execute_preserves (P := fun t => t.Walked ∧ t.Tinted) ran ?_ ?_
    · exact fun begins => ⟨Trace.walked_begin begins, Trace.tinted_begin begins⟩
    · intro r stack slot i drawn progress _ _ dispatched grounded traced known
      exact ⟨dispatched.walked grounded traced known.1,
        dispatched.tinted grounded traced known.1 known.2⟩
  exact both.2

/-! ## Runs -/

namespace Trace

def originalColor? (t : Trace) (q : Position) : Option (Option Color) :=
  t.unpainted.color? q

def originalGrid (t : Trace) : Grid :=
  t.world.recolored t.originalColor?

theorem Tinted.originalGrid_eq {t : Trace} (tinted : t.Tinted) (grounded : t.Grounded) :
    t.originalGrid = t.unpainted := by
  refine Grid.ext_tile? grounded.width.symm grounded.height.symm fun q => ?_
  rw [originalGrid, Grid.tile?_recolored, tinted.shown, originalColor?, Grid.color?]
  cases t.unpainted.tile? q <;> rfl

/-- How a run has made its world out of `first`; `placed` are the new tiles and the colours drawn for
them, in the order in which they were placed. -/
structure GrownFrom (t : Trace) (first : Grid) (placed : List (Position × Color)) : Prop where
  width : t.world.width = first.width
  height : t.world.height = first.height
  tiles : ∀ q, (t.world.tile? q).isSome = true ↔ (first.tile? q).isSome = true ∨ q ∈ t.path
  stars : ∀ q, (t.world.tile? q).any (·.hasStar) = (first.tile? q).any (·.hasStar)
  known : ∀ q, (t.originalColor? q).isSome = (t.world.tile? q).isSome
  colors : ∀ q, t.world.color? q = ((t.painted.get? q).map some).or (t.originalColor? q)
  painted : ∀ q c, t.painted.get? q = some c → q ∈ t.path
  cells : placed.map (·.1) = first.cellsToPave t.path.toList
  kept : ∀ q tile, first.tile? q = some tile → t.originalGrid.tile? q = some tile
  drawn : ∀ q c, (q, c) ∈ placed → t.originalGrid.tile? q = some ⟨some c, false⟩
  void : ∀ q, first.tile? q = none → q ∉ t.path → t.originalGrid.tile? q = none

end Trace

namespace Trace.Paved

variable {begun t : Trace} {ratios : ColorRatios} {source after : σ} {walk : List Position}
  {placed : List (Position × Color)}

theorem nodup (paved : begun.Paved t ratios source after walk placed) :
    (placed.map (·.1)).Nodup := by
  rw [paved.cells]
  exact Grid.nodup_eraseDups _

theorem mem_iff (paved : begun.Paved t ratios source after walk placed) (walked : begun.Walked)
    (q : Position) : q ∈ placed.map (·.1) ↔ q ∈ t.path ∧ begun.unpainted.tile? q = none := by
  rw [paved.cells, Grid.mem_cellsToPave, ← Array.mem_toList_iff, paved.path, List.mem_append]
  constructor
  · exact fun known => ⟨.inr known.1, known.2⟩
  · rintro ⟨before | new, void⟩
    · have there := walked q (Array.mem_toList_iff.mp before)
      rw [void] at there
      cases there
    · exact ⟨new, void⟩

theorem tile?_of_mem (paved : begun.Paved t ratios source after walk placed) {q : Position} {c : Color}
    (mem : (q, c) ∈ placed) : t.unpainted.tile? q = some ⟨some c, false⟩ := by
  rw [paved.unpainted]
  exact Grid.tile?_pave_of_mem paved.inside paved.nodup mem

theorem tile?_of_apart (paved : begun.Paved t ratios source after walk placed) (walked : begun.Walked)
    {q : Position} (apart : q ∉ t.path) : t.unpainted.tile? q = begun.unpainted.tile? q := by
  rw [paved.unpainted, Grid.tile?_pave_of_not_mem paved.inside]
  exact fun mem => apart ((paved.mem_iff walked q).mp mem).1

theorem grownFrom (paved : begun.Paved t ratios source after walk placed) (walked : begun.Walked)
    (precedes : begun.Precedes t) (grounded : t.Grounded) (onTiles : t.Walked) (tinted : t.Tinted) :
    t.GrownFrom begun.unpainted placed := by
  have original := tinted.originalGrid_eq grounded
  constructor
  case width => exact grounded.width.symm.trans precedes.width
  case height => exact grounded.height.symm.trans precedes.height
  case tiles =>
    intro q
    rw [← grounded.placed]
    constructor
    · intro there
      by_cases mem : q ∈ t.path
      · exact .inr mem
      · rw [paved.tile?_of_apart walked mem] at there
        exact .inl there
    · rintro (there | mem)
      · obtain ⟨tile, there⟩ := Option.isSome_iff_exists.mp there
        rw [precedes.tiles q tile there]
        rfl
      · exact onTiles q mem
  case stars =>
    intro q
    have unpainted : (t.world.tile? q).any (·.hasStar) = (t.unpainted.tile? q).any (·.hasStar) := by
      rw [tinted.shown]
      cases t.unpainted.tile? q <;> rfl
    rw [unpainted]
    cases before : begun.unpainted.tile? q with
    | some tile => rw [precedes.tiles q tile before]
    | none =>
      by_cases mem : q ∈ t.path
      · have new := (paved.mem_iff walked q).mpr ⟨mem, before⟩
        obtain ⟨⟨q, color⟩, listed, rfl⟩ := List.mem_map.mp new
        rw [paved.tile?_of_mem listed]
        rfl
      · rw [paved.tile?_of_apart walked mem, before]
  case known =>
    intro q
    rw [originalColor?, Grid.color?, Option.isSome_map, grounded.placed]
  case colors =>
    intro q
    rw [Grid.color?, tinted.shown, originalColor?, Grid.color?]
    cases painted : t.painted.get? q with
    | none => cases t.unpainted.tile? q <;> rfl
    | some color =>
      have placed := onTiles q (tinted.onPath q color painted)
      obtain ⟨tile, there⟩ := Option.isSome_iff_exists.mp placed
      rw [there]
      rfl
  case painted => exact tinted.onPath
  case cells =>
    rw [paved.cells, paved.path, Grid.cellsToPave_append]
    exact fun q mem => walked q (Array.mem_toList_iff.mp mem)
  case kept =>
    rw [original]
    exact precedes.tiles
  case drawn =>
    rw [original]
    exact fun q color => paved.tile?_of_mem
  case void =>
    rw [original]
    intro q before apart
    rw [paved.tile?_of_apart walked apart, before]

end Trace.Paved

theorem Setting.eq_centre_of_freshWorld {c : Config} {color : Color} {q : Position}
    (there : ((freshWorld c color).tile? q).isSome = true) : q = centre c := by
  by_cases inside : (Grid.empty c.gridSize c.gridSize).Contains (centre c)
  · rw [freshWorld, Grid.tile?_put _ _ _ _ inside, Grid.tile?_empty] at there
    by_contra other
    simp [other] at there
  · have same : freshWorld c color = Grid.empty c.gridSize c.gridSize := by
      simp [freshWorld, Grid.put, inside]
    rw [same, Grid.tile?_empty] at there
    cases there

/-- A run adds the tiles on its path to its world, in the colours that it draws, and changes colours
only where it paints. A fresh world comes to consist of the path. -/
theorem grown_of_execute {p : Program} {c : Config} {s : Setting} {suppressed : Slot → Bool}
    {source after : σ} {t : Trace} (ran : execute p c s suppressed source = (.ok t, after)) :
    ∃ placed, t.GrownFrom (s.prepare c source).1.1 placed ∧
      Color.drawSeveral c.colorRatios placed.length (s.prepare c source).2 =
        (placed.map (·.2), after) ∧
      (s.grid = none → (∀ q, (t.world.tile? q).isSome = true ↔ q ∈ t.path) ∧
        t.world.tileCount = t.path.toList.eraseDups.length) := by
  obtain ⟨begun, log, begins, logged⟩ := runFrom?_eq_some.mp (execute_eq_ok.mp ran)
  have grounded := Trace.grounded_begin begins
  have walked := Trace.walked_begin begins
  obtain ⟨walk, placed, paved⟩ := logged.paved grounded
  have grown := paved.grownFrom walked (logged.precedes grounded) (logged.grounded grounded)
    (walked_of_execute ran) (tinted_of_execute ran)
  obtain ⟨tile, here, rfl⟩ := Trace.begin?_eq_some begins
  refine ⟨placed, grown, paved.drawn, fun fresh => ?_⟩
  have start : (s.prepare c source).1.2.position ∈ t.path := by
    rw [← Array.mem_toList_iff, paved.path]
    exact List.mem_cons_self
  have onPath (q : Position) (there : ((s.prepare c source).1.1.tile? q).isSome = true) :
      q ∈ t.path := by
    obtain ⟨color, heading, between, prepared⟩ := Setting.prepare_fresh fresh c source
    rw [prepared] at start here there
    have standing := Setting.eq_centre_of_freshWorld (Option.isSome_iff_exists.mpr ⟨tile, here⟩)
    rw [Setting.eq_centre_of_freshWorld there, ← standing]
    exact start
  have tiles (q : Position) : (t.world.tile? q).isSome = true ↔ q ∈ t.path :=
    (grown.tiles q).trans ⟨fun known => known.elim (onPath q) id, .inr⟩
  exact ⟨tiles, Grid.tileCount_of_tiles fun q => (tiles q).trans Array.mem_toList_iff.symm⟩

theorem grown_gap :
    ∃ t after, execute moveAndPaint Preset.easy.config gap (fun _ => false) (⟨#[0.5], 0, false⟩ : Tape) =
        (.ok t, after) ∧
      ∃ first placed, gap.grid = some first ∧ t.GrownFrom first placed ∧
        placed.map (·.1) = [⟨1, 0⟩] := by
  have evaluated : (execute moveAndPaint Preset.easy.config gap (fun _ => false)
      (⟨#[0.5], 0, false⟩ : Tape)).1.toOption.any (fun t =>
        decide (t.path.toList = [⟨0, 0⟩, ⟨1, 0⟩, ⟨2, 0⟩])) = true := by
    decide +kernel
  obtain ⟨t, after, ran, tested⟩ := exists_ok_of_any evaluated
  obtain ⟨placed, grown, -⟩ := grown_of_execute ran
  refine ⟨t, after, ran, _, placed, rfl, grown, ?_⟩
  rw [grown.cells, of_decide_eq_true tested]
  decide

end GridRobot
