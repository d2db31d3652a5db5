import GridRobot.Proofs.Grid.Measure
import GridRobot.Proofs.Grid.Tiles

namespace GridRobot

structure Motion where
  position : Position → Position
  back : Position → Position
  heading : Heading → Heading
  width : Nat
  height : Nat
  back_position : ∀ p, back (position p) = p
  position_back : ∀ p, position (back p) = p
  position_step : ∀ p h, position (p.step h) = (position p).step (heading h)
  heading_turned : ∀ h t, heading (h.turned t) = (heading h).turned t
  distance_position : ∀ p q, Grid.distance (position p) (position q) = Grid.distance p q

namespace Motion

def clockwise (width height : Nat) : Motion where
  position p := ⟨height - 1 - p.y, p.x⟩
  back p := ⟨p.y, height - 1 - p.x⟩
  heading h := h.turned .right
  width := height
  height := width
  back_position p := by
    have same : (height : Int) - 1 - (height - 1 - p.y) = p.y := by omega
    rw [same]
  position_back p := by
    have same : (height : Int) - 1 - (height - 1 - p.x) = p.x := by omega
    rw [same]
  position_step p h := by
    cases h <;> simp only [Position.step, Heading.turned, Position.mk.injEq, and_true] <;>
      omega
  heading_turned h t := by
    cases h <;> cases t <;> rfl
  distance_position p q := by
    simp only [Grid.distance]
    omega

variable (m : Motion)

theorem position_inj {p q : Position} : m.position p = m.position q ↔ p = q := by
  refine ⟨fun same => ?_, congrArg m.position⟩
  rw [← m.back_position p, same, m.back_position]

/-! ## Facings -/

theorem heading_cases :
    m.heading = id ∨ m.heading = (·.turned .right) ∨ m.heading = Heading.opposite ∨
      m.heading = (·.turned .left) := by
  have right : m.heading .right = (m.heading .up).turned .right := m.heading_turned .up .right
  have left : m.heading .left = (m.heading .up).turned .left := m.heading_turned .up .left
  have down : m.heading .down = (m.heading .left).turned .left := m.heading_turned .left .left
  rw [left] at down
  cases up : m.heading .up <;> rw [up] at right left down
  case up => exact .inl (funext fun h => by cases h <;> assumption)
  case right => exact .inr (.inl (funext fun h => by cases h <;> assumption))
  case down => exact .inr (.inr (.inl (funext fun h => by cases h <;> assumption)))
  case left => exact .inr (.inr (.inr (funext fun h => by cases h <;> assumption)))

theorem heading_inj {h k : Heading} : m.heading h = m.heading k ↔ h = k := by
  rcases m.heading_cases with turns | turns | turns | turns <;> rw [turns] <;>
    cases h <;> cases k <;> decide

theorem turnDistance_heading (h k : Heading) :
    (m.heading h).turnDistance (m.heading k) = h.turnDistance k := by
  rcases m.heading_cases with turns | turns | turns | turns <;> rw [turns] <;>
    cases h <;> cases k <;> rfl

theorem isQuarterTurn_heading (entry exit : Heading) :
    (m.heading entry).isQuarterTurn (m.heading exit) = entry.isQuarterTurn exit := by
  rcases m.heading_cases with turns | turns | turns | turns <;> rw [turns] <;>
    cases entry <;> cases exit <;> rfl

theorem perm_headings : (Heading.all.map m.heading).Perm Heading.all := by
  rcases m.heading_cases with turns | turns | turns | turns <;> rw [turns] <;> decide

/-! ## Grids -/

def grid (g : Grid) : Grid :=
  .ofTiles m.width m.height fun q => g.tile? (m.back q)

def Holds (p : Position) : Prop :=
  0 ≤ p.x ∧ p.x < m.width ∧ 0 ≤ p.y ∧ p.y < m.height

@[simp]
theorem width_grid (g : Grid) : (m.grid g).width = m.width :=
  rfl

@[simp]
theorem height_grid (g : Grid) : (m.grid g).height = m.height :=
  rfl

theorem contains_grid {g : Grid} {p : Position} : (m.grid g).Contains p ↔ m.Holds p := by
  rw [Grid.Contains, width_grid, height_grid, Holds]

theorem tile?_grid_of_holds (g : Grid) {p : Position} (inside : m.Holds p) :
    (m.grid g).tile? p = g.tile? (m.back p) := by
  have inside := (m.contains_grid (g := g)).mpr inside
  rw [grid] at inside ⊢
  rw [Grid.tile?_ofTiles, if_pos inside]

def Fits (g : Grid) : Prop :=
  ∀ q, g.Contains q → m.Holds (m.position q)

def Fills (g : Grid) : Prop :=
  ∀ q, m.Holds (m.position q) ↔ g.Contains q

variable {m} {g h : Grid}

theorem Fills.fits (fills : m.Fills g) : m.Fits g :=
  fun q => (fills q).mpr

theorem Fits.congr (fits : m.Fits g) (width : h.width = g.width) (height : h.height = g.height) :
    m.Fits h := by
  intro q inside
  apply fits q
  rwa [Grid.Contains, width, height] at inside

theorem Fills.congr (fills : m.Fills g) (width : h.width = g.width) (height : h.height = g.height) :
    m.Fills h := by
  intro q
  rw [Grid.Contains.eq_def h, width, height]
  exact fills q

theorem fills_clockwise (g : Grid) : (clockwise g.width g.height).Fills g := by
  intro q
  simp only [Holds, Grid.Contains, clockwise]
  omega

theorem Fits.tile?_back (fits : m.Fits g) (q : Position) :
    (m.grid g).tile? q = g.tile? (m.back q) := by
  by_cases inside : m.Holds q
  · exact m.tile?_grid_of_holds g inside
  · have outside : ¬ (m.grid g).Contains q := fun within => inside (m.contains_grid.mp within)
    have void : ¬ g.Contains (m.back q) := fun within => by
      have held := fits _ within
      rw [m.position_back] at held
      exact inside held
    rw [Grid.tile?_eq_none_of_not_contains outside, Grid.tile?_eq_none_of_not_contains void]

theorem Fits.tile? (fits : m.Fits g) (q : Position) :
    (m.grid g).tile? (m.position q) = g.tile? q := by
  rw [fits.tile?_back, m.back_position]

theorem Fits.put (fits : m.Fits g) {q : Position} (inside : g.Contains q) (tile : Option Tile) :
    m.grid (g.put q tile) = (m.grid g).put (m.position q) tile := by
  refine Grid.ext_tile? (by simp) (by simp) fun p => ?_
  have put : m.Fits (g.put q tile) := fits.congr (g.width_put q tile) (g.height_put q tile)
  have within : (m.grid g).Contains (m.position q) := m.contains_grid.mpr (fits q inside)
  have same : m.back p = q ↔ p = m.position q := by
    rw [← m.position_inj, m.position_back]
  rw [put.tile?_back, Grid.tile?_put _ _ _ _ inside, Grid.tile?_put _ _ _ _ within,
    fits.tile?_back]
  simp only [same]

/-! ## Measurements -/

theorem Fits.perm_cells (fits : m.Fits g) :
    ((g.positions.filter fun q => (g.tile? q).isSome).map m.position).Perm
      ((m.grid g).positions.filter fun q => ((m.grid g).tile? q).isSome) := by
  have once : ((g.positions.filter fun q => (g.tile? q).isSome).map m.position).Nodup :=
    (g.nodup_positions.filter _).map fun p q same => m.position_inj.mp same
  rw [List.perm_ext_iff_of_nodup once ((m.grid g).nodup_positions.filter _)]
  intro q
  simp only [List.mem_map, List.mem_filter, Grid.mem_positions]
  constructor
  · rintro ⟨p, ⟨inside, placed⟩, rfl⟩
    rw [fits.tile?]
    exact ⟨m.contains_grid.mpr (fits p inside), placed⟩
  · rintro ⟨-, placed⟩
    rw [fits.tile?_back] at placed
    obtain ⟨tile, there⟩ := Option.isSome_iff_exists.mp placed
    exact ⟨m.back q, ⟨Grid.contains_of_tile? there, placed⟩, m.position_back q⟩

theorem Fits.tileCount (fits : m.Fits g) : (m.grid g).tileCount = g.tileCount := by
  rw [Grid.tileCount_eq, Grid.tileCount_eq, List.countP_eq_length_filter,
    List.countP_eq_length_filter, ← fits.perm_cells.length_eq, List.length_map]

theorem Fits.neighbours (fits : m.Fits g) (q : Position) :
    (m.grid g).neighbours (m.position q) = g.neighbours q := by
  rw [Grid.neighbours, ← m.perm_headings.countP_eq, List.countP_map, Grid.neighbours]
  refine List.countP_congr fun h _ => ?_
  rw [Function.comp_apply, ← m.position_step, fits.tile?]

theorem Fits.denseCount (fits : m.Fits g) (least : Int) :
    (m.grid g).denseCount least = g.denseCount least := by
  have cells (g : Grid) : g.denseCount least =
      (g.positions.filter fun q => (g.tile? q).isSome).countP fun q =>
        decide (least ≤ g.neighbours q) := by
    rw [Grid.denseCount_eq, List.countP_filter]
    simp only [Bool.and_comm]
  rw [cells, cells, ← fits.perm_cells.countP_eq, List.countP_map]
  simp only [Function.comp_def, fits.neighbours]

theorem Fits.spread (fits : m.Fits g) {n : Nat}
    (spread : Grid.Spread (fun q => (g.tile? q).isSome = true) n) :
    Grid.Spread (fun q => ((m.grid g).tile? q).isSome = true) n where
  within p q left right := by
    rw [fits.tile?_back] at left right
    rw [← m.position_back p, ← m.position_back q, m.distance_position]
    exact spread.within _ _ left right
  reached some := by
    obtain ⟨p, q, left, right, far⟩ := spread.reached some
    refine ⟨m.position p, m.position q, ?_, ?_, ?_⟩
    · rwa [fits.tile?]
    · rwa [fits.tile?]
    · rwa [m.distance_position]

theorem Fits.boundingBox (fits : m.Fits g) :
    max (m.grid g).boundingBox.1 (m.grid g).boundingBox.2 =
      max g.boundingBox.1 g.boundingBox.2 :=
  (m.grid g).spread_boundingBox.unique (fits.spread g.spread_boundingBox)

end Motion

end GridRobot
