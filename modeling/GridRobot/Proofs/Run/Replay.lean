import GridRobot.Config.Basic
import GridRobot.Proofs.Run.Transplant
import GridRobot.Random

/-!
Replaying a run on the world that it left behind, unpainted. `execute_replays` says that the program,
and the program without slots that were never executed, runs there as it ran before, and that
nothing is drawn.
-/

namespace GridRobot

variable {σ : Type} [RandomSource σ]

theorem Run.next_onto {r : Run} {g final : Grid} (grounded : r.trace.Grounded)
    (covers : g.Covers r.trace.world final) (p : Program) (keep : Slot → Bool) :
    r.stack.next (p.pruned keep) (g.tile? r.trace.final.position) =
      ((r.stack.next p r.trace.here).1,
        (r.stack.next p r.trace.here).2.filter fun found => keep found.1) := by
  obtain ⟨tile, here⟩ := Option.isSome_iff_exists.mp grounded.standing
  have shown := covers.color_of_tile? here
  rw [← CallStack.next_pruned]
  apply CallStack.next_congr
  rw [here]
  exact shown

theorem Logged.onto {rules : Rules} {n : Nat} {origin : CallStack} {skipped : Nat} {r : Run}
    {source after : σ} {log : List Event} {t : Trace} {g : Grid} {keep : Slot → Bool}
    (logged : Logged rules n origin skipped r source log t after) (grounded : r.trace.Grounded)
    (kept : ∀ slot, t.executed.contains slot = true → keep slot = true)
    (covers : g.Covers r.trace.world t.unpainted) (window : Nat) (first : Grid) (recent : List Slot) :
    ∃ log' g' recent',
      (∀ (τ : Type) [RandomSource τ] (s : τ), Logged (rules.pruned keep window) n origin skipped
        (r.onto g first recent) s log' (t.onto g' first recent') s) ∧
      g'.Covers t.world t.unpainted ∧
      (window = rules.window → recent = r.trace.recentForwards → recent' = t.recentForwards) := by
  -- along the log; the grid goes on covering what the rest of the run will place
  induction logged generalizing g recent with
  | exhausted => exact ⟨[], g, recent, fun _ _ _ => .exhausted, covers, fun _ same => same⟩
  | spent past => exact ⟨[], g, recent, fun _ _ _ => .spent past, covers, fun _ same => same⟩
  | passed left fetched _ ih =>
    obtain ⟨log', g', recent', replayed, covered, recents⟩ := ih grounded kept covers recent
    refine ⟨log', g', recent', fun τ _ s => .passed left ?_ (replayed τ s), covered, recents⟩
    exact (Run.next_onto grounded covers _ keep).trans (by rw [fetched]; rfl)
  | @ended n origin stack skipped r source after slot i drawn t left fetched dispatched draws =>
    have grounded' : ({ r with stack } : Run).trace.Grounded := grounded
    obtain ⟨g', recent', replayed, covered, recents⟩ :=
      dispatched.onto grounded' covers (fun _ _ there => there) keep window first recent
    have keeps := kept slot (dispatched.contains_executed grounded')
    have found := Run.next_onto grounded covers rules.program keep
    rw [fetched] at found
    simp only [Option.filter, keeps, if_true] at found
    exact ⟨_, g', recent', fun τ _ s => .ended left found replayed rfl, covered, recents⟩
  | @executed n origin stack skipped r next source between after slot i drawn log t left fetched
      dispatched draws rest ih =>
    have grounded' : ({ r with stack } : Run).trace.Grounded := grounded
    -- What this instruction places and executes is still there at the end.
    have reached := rest.precedes (dispatched.grounded grounded')
    obtain ⟨g₁, recent₁, replayed, covered, recents⟩ :=
      dispatched.onto grounded' covers reached.tiles keep window first recent
    obtain ⟨log', g', recent', replayed', covered', recents'⟩ :=
      ih (dispatched.grounded grounded') kept covered recent₁
    have keeps := kept slot (reached.executed slot (dispatched.contains_executed grounded'))
    have found := Run.next_onto grounded covers rules.program keep
    rw [fetched] at found
    simp only [Option.filter, keeps, if_true] at found
    exact ⟨_, g', recent', fun τ _ s => .executed left found replayed rfl (replayed' τ s), covered',
      fun same before => recents' same (recents same before)⟩

/-! ## Runs from a prepared world -/

theorem Trace.exists_begin? {world : Grid} {start : Pose}
    (standing : (world.tile? start.position).isSome = true) :
    ∃ begun, begin? world start = some begun := by
  obtain ⟨tile, there⟩ := Option.isSome_iff_exists.mp standing
  exact ⟨_, by rw [begin?, there]; rfl⟩

theorem Trace.begin?_eq_some {world : Grid} {start : Pose} {t : Trace}
    (begun : begin? world start = some t) :
    ∃ tile, world.tile? start.position = some tile ∧
      t = { world, unpainted := world, start, final := start, path := #[start.position],
            visited := tile.color.toList.toArray } := by
  obtain ⟨tile, here, rfl⟩ := Option.map_eq_some_iff.mp begun
  exact ⟨tile, here, rfl⟩

theorem Trace.grounded_begin {world : Grid} {start : Pose} {t : Trace}
    (begun : begin? world start = some t) : t.Grounded := by
  obtain ⟨tile, here, rfl⟩ := begin?_eq_some begun
  exact ⟨by simp [here], rfl, rfl, fun _ => rfl⟩

theorem runFrom?_eq_some {rules : Rules} {world : Grid} {start : Pose} {source after : σ}
    {t : Trace} :
    runFrom? rules world start source = (some t, after) ↔
      ∃ begun log, Trace.begin? world start = some begun ∧
        Logged rules (rules.config.maxSteps * Run.fetchesPerStep) .root 0 { trace := begun } source
          log t after := by
  unfold runFrom?
  cases Trace.begin? world start with
  | none =>
    constructor
    · intro run
      cases run
    · rintro ⟨_, _, impossible, _⟩
      cases impossible
  | some begun =>
    dsimp only
    rw [map_apply, Prod.mk.injEq, Option.some.injEq]
    constructor
    · rintro ⟨ended, left⟩
      obtain ⟨log, logged⟩ := Run.finish_iff.mp (Prod.ext ended left)
      exact ⟨begun, log, rfl, logged⟩
    · rintro ⟨_, log, ⟨⟩, logged⟩
      rw [logged.finish_eq]
      exact ⟨rfl, rfl⟩

/-- The traces differ in their grids and in the memory for forwards at most, and the grids in stars. -/
structure Trace.Matches (t u : Trace) : Prop where
  observed : u = t.onto u.world u.unpainted u.recentForwards
  colors : u.world.SameColors t.world

theorem Trace.Matches.congr {t u : Trace} (matched : t.Matches u) {f : Trace → α}
    (blind : ∀ world unpainted recent, f (t.onto world unpainted recent) = f t) : f u = f t := by
  rw [matched.observed]
  exact blind _ _ _

theorem runFrom?_replays_logged {rules : Rules} {world g : Grid} {start : Pose} {source after : σ}
    {t : Trace} {keep : Slot → Bool} (ran : runFrom? rules world start source = (some t, after))
    (kept : ∀ slot, t.executed.contains slot = true → keep slot = true)
    (same : g.SameColors t.unpainted) (window : Nat) :
    ∃ begun log u, Trace.begin? g start = some begun ∧ t.Matches u ∧ u.unpainted = g ∧
      (window = rules.window → u.recentForwards = t.recentForwards) ∧
      ∀ (τ : Type) [RandomSource τ] (s : τ), Logged (rules.pruned keep window)
        (rules.config.maxSteps * Run.fetchesPerStep) .root 0 { trace := begun } s log u s := by
  obtain ⟨first, log, begun, logged⟩ := runFrom?_eq_some.mp ran
  have grounded := Trace.grounded_begin begun
  have grown := logged.precedes grounded
  obtain ⟨tile, here, rfl⟩ := Trace.begin?_eq_some begun
  have covers : g.Covers world t.unpainted :=
    same.covers grown.width.symm grown.height.symm grown.tiles
  obtain ⟨log', g', recent', replayed, covered, recents⟩ :=
    logged.onto grounded kept covers window g []
  obtain ⟨tile', here', color⟩ := Grid.isSome_of_color? (covers.color_of_tile? here)
  refine ⟨_, log', t.onto g' g recent', ?_,
    ⟨rfl, covered.sameColors (logged.grounded grounded).placed⟩, rfl,
    fun sameWindow => recents sameWindow rfl, replayed⟩
  simp [Trace.begin?, here', color, Trace.onto]

theorem runFrom?_replays {rules : Rules} {world g : Grid} {start : Pose} {source after : σ}
    {t : Trace} {keep : Slot → Bool} (ran : runFrom? rules world start source = (some t, after))
    (kept : ∀ slot, t.executed.contains slot = true → keep slot = true)
    (same : g.SameColors t.unpainted) (window : Nat) :
    ∃ u, t.Matches u ∧ u.unpainted = g ∧
      (window = rules.window → u.recentForwards = t.recentForwards) ∧
      ∀ (τ : Type) [RandomSource τ],
        (runFrom? (rules.pruned keep window) g start : StateM τ _) = pure (some u) := by
  obtain ⟨begun, log, u, begins, matched, unpainted, recents, replayed⟩ :=
    runFrom?_replays_logged ran kept same window
  refine ⟨u, matched, unpainted, recents, fun τ _ => ?_⟩
  funext s
  exact runFrom?_eq_some.mpr ⟨begun, log, begins, replayed τ s⟩

/-! ## Runs in a setting -/

namespace Setting

def StartsOnTile (s : Setting) (c : Config) : Prop :=
  match s.grid, s.start with
  | none, none => True
  | none, some start => start.position = centre c
  | some g, none => (g.tile? (centre c)).isSome = true
  | some g, some start => (g.tile? start.position).isSome = true

def freshWorld (c : Config) (color : Color) : Grid :=
  (Grid.empty c.gridSize c.gridSize).put (centre c) (some ⟨some color, false⟩)

theorem contains_centre {c : Config} (sized : 1 ≤ c.gridSize) :
    (Grid.empty c.gridSize c.gridSize).Contains (centre c) := by
  simp only [Grid.Contains, Grid.empty, centre]
  omega

theorem tile?_freshWorld {c : Config} (sized : 1 ≤ c.gridSize) (color : Color) (q : Position) :
    (freshWorld c color).tile? q = if q = centre c then some ⟨some color, false⟩ else none := by
  rw [freshWorld, Grid.tile?_put _ _ _ _ (contains_centre sized), Grid.tile?_empty]

theorem prepare_fresh {s : Setting} (fresh : s.grid = none) (c : Config) (source : σ) :
    ∃ color heading after,
      s.prepare c source = ((freshWorld c color, s.start.getD ⟨centre c, heading⟩), after) := by
  obtain ⟨grid, start, window⟩ := s
  cases fresh
  exact ⟨_, _, _, rfl⟩

theorem begin?_prepare {s : Setting} {c : Config} (valid : c.Valid) (onTile : s.StartsOnTile c)
    (source : σ) :
    ∃ begun, Trace.begin? (s.prepare c source).1.1 (s.prepare c source).1.2 = some begun := by
  apply Trace.exists_begin?
  obtain ⟨grid, start, window⟩ := s
  cases grid with
  | none =>
    obtain ⟨color, heading, after, prepared⟩ :=
      prepare_fresh (s := ⟨none, start, window⟩) rfl c source
    have central : (start.getD ⟨centre c, heading⟩).position = centre c := by
      cases start with
      | none => rfl
      | some start => exact onTile
    rw [prepared]
    simp [central, tile?_freshWorld valid.grid.1]
  | some g =>
    cases start with
    | none => exact onTile
    | some start => exact onTile

end Setting

theorem execute_eq_ok {p : Program} {c : Config} {s : Setting} {suppressed : Slot → Bool}
    {source after : σ} {t : Trace} :
    execute p c s suppressed source = (.ok t, after) ↔
      runFrom? ⟨p, c, suppressed, s.window⟩ (s.prepare c source).1.1 (s.prepare c source).1.2
        (s.prepare c source).2 = (some t, after) := by
  unfold execute
  simp only [bind_apply]
  cases runFrom? ⟨p, c, suppressed, s.window⟩ (s.prepare c source).1.1 (s.prepare c source).1.2
    (s.prepare c source).2 with
  | mk trace? s =>
    cases trace? with
    | none =>
      constructor <;> intro run <;> cases run
    | some t =>
      constructor <;> intro run <;> cases run <;> rfl

theorem exists_runFrom? (rules : Rules) {world : Grid} {start : Pose} {begun : Trace}
    (begins : Trace.begin? world start = some begun) (source : σ) :
    ∃ t after, runFrom? rules world start source = (some t, after) := by
  obtain ⟨log, t, after, logged⟩ := Run.exists_logged rules
    (rules.config.maxSteps * Run.fetchesPerStep) .root 0 { trace := begun } source
  exact ⟨t, after, runFrom?_eq_some.mpr ⟨begun, log, begins, logged⟩⟩

theorem runFrom?_start {rules : Rules} {world : Grid} {start : Pose} {source after : σ} {t : Trace}
    (ran : runFrom? rules world start source = (some t, after)) : t.start = start := by
  obtain ⟨first, log, begun, logged⟩ := runFrom?_eq_some.mp ran
  have kept := (logged.precedes (Trace.grounded_begin begun)).start
  obtain ⟨tile, here, rfl⟩ := Trace.begin?_eq_some begun
  exact kept

/-- A program runs on the unpainted world of its run as it ran before, whatever becomes of the slots
that it did not execute and of the stars, and no source is read. -/
theorem execute_replays (c : Config) (valid : c.Valid) (p : Program) (s : Setting)
    (onTile : s.StartsOnTile c) (source : σ) :
    ∃ t after, execute p c s (fun _ => false) source = (.ok t, after) ∧
      ∀ keep : Slot → Bool, (∀ slot, t.executed.contains slot = true → keep slot = true) →
        ∀ g : Grid, g.SameColors t.unpainted →
          ∃ u, t.Matches u ∧ u.recentForwards = t.recentForwards ∧
            ∀ (τ : Type) [RandomSource τ],
              (execute (p.pruned keep) c ⟨some g, some t.start, s.window⟩ : StateM τ _) =
                pure (.ok u) := by
  obtain ⟨begun, begins⟩ := Setting.begin?_prepare valid onTile source
  obtain ⟨t, after, ran⟩ :=
    exists_runFrom? ⟨p, c, fun _ => false, s.window⟩ begins (s.prepare c source).2
  refine ⟨t, after, execute_eq_ok.mpr ran, fun keep kept g same => ?_⟩
  obtain ⟨u, matched, -, recents, replayed⟩ := runFrom?_replays ran kept same s.window
  refine ⟨u, matched, recents rfl, fun τ _ => ?_⟩
  funext other
  apply execute_eq_ok.mpr
  rw [runFrom?_start ran]
  exact congrFun (replayed τ) other

def gap : Setting where
  grid := some ⟨3, 1, #v[#v[some ⟨some .red, true⟩, none, some ⟨none, false⟩]]⟩
  start := some ⟨⟨0, 0⟩, .right⟩

def moveAndPaint : Program :=
  ⟨⟨[some ⟨.forward, none⟩, some ⟨.paint .green, none⟩, none], [], [], [], []⟩⟩

theorem execute_replays_gap :
    ∃ t after, execute moveAndPaint Preset.easy.config gap (fun _ => false) (⟨#[0.5], 0, false⟩ : Tape) =
        (.ok t, after) ∧
      ∃ u, t.Matches u ∧
        ∀ (τ : Type) [RandomSource τ],
          (execute (moveAndPaint.pruned t.executed.contains) Preset.easy.config
            ⟨some t.unpainted, some t.start, gap.window⟩ : StateM τ _) = pure (.ok u) := by
  obtain ⟨t, after, ran, replays⟩ := execute_replays Preset.easy.config Preset.easy.valid moveAndPaint
    gap (by simp only [Setting.StartsOnTile, gap]; decide) (⟨#[0.5], 0, false⟩ : Tape)
  obtain ⟨u, matched, -, replayed⟩ :=
    replays t.executed.contains (fun _ executed => executed) t.unpainted ⟨rfl, rfl, fun _ => rfl⟩
  exact ⟨t, after, ran, u, matched, replayed⟩

end GridRobot
