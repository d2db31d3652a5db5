import GridRobot.Grid
import GridRobot.Proofs.Grid.Covers
import GridRobot.Puzzle

namespace GridRobot

namespace Grid

/-! ## The mask -/

theorem mask_eq (g : Grid) :
    g.mask = (List.range g.height).map fun y =>
      (List.range g.width).map fun x => (g.tile? ⟨(x : Nat), (y : Nat)⟩).isSome := by
  apply List.ext_getElem
  · simp [mask, toRows]
  intro y row _
  have high : y < g.height := by simpa [mask, toRows] using row
  apply List.ext_getElem
  · simp [mask, toRows]
  intro x cell _
  have wide : x < g.width := by simpa [mask, toRows] using cell
  have inside : g.Contains ⟨(x : Nat), (y : Nat)⟩ := by
    simp only [Contains]
    omega
  simp [mask, toRows, tile?, inside]

theorem SameColors.isSome_tile? {g h : Grid} (same : g.SameColors h) (q : Position) :
    (g.tile? q).isSome = (h.tile? q).isSome := by
  have shown := congrArg Option.isSome (same.color q)
  simpa [color?] using shown

theorem mask_congr {g h : Grid} (width : g.width = h.width) (height : g.height = h.height)
    (placed : ∀ q, (g.tile? q).isSome = (h.tile? q).isSome) : g.mask = h.mask := by
  rw [mask_eq, mask_eq, width, height]
  simp only [placed]

theorem SameColors.mask_eq {g h : Grid} (same : g.SameColors h) : g.mask = h.mask :=
  mask_congr same.width same.height same.isSome_tile?

theorem tileCount_congr {g h : Grid} (mask : g.mask = h.mask) : g.tileCount = h.tileCount := by
  rw [tileCount, tileCount, mask]

theorem boundingBox_congr {g h : Grid} (mask : g.mask = h.mask) (width : g.width = h.width) :
    g.boundingBox = h.boundingBox := by
  rw [boundingBox, boundingBox, mask, width]

theorem denseCount_congr {g h : Grid} (mask : g.mask = h.mask) (width : g.width = h.width)
    (least : Int) : g.denseCount least = h.denseCount least := by
  rw [denseCount, denseCount, mask, width]

/-! ## Stars -/

theorem tile?_modify (g : Grid) (p q : Position) (f : Tile → Tile) :
    (g.modify p f).tile? q = if q = p then (g.tile? q).map f else g.tile? q := by
  unfold modify
  cases there : g.tile? p with
  | none =>
    change g.tile? q = _
    split
    · rename_i here
      rw [here, there]
      rfl
    · rfl
  | some t =>
    change (g.put p (some (f t))).tile? q = _
    rw [tile?_put _ _ _ _ (contains_of_tile? there)]
    split
    · rename_i here
      rw [here, there]
      rfl
    · rfl

theorem width_modify (g : Grid) (p : Position) (f : Tile → Tile) : (g.modify p f).width = g.width := by
  unfold modify
  split <;> rfl

theorem height_modify (g : Grid) (p : Position) (f : Tile → Tile) :
    (g.modify p f).height = g.height := by
  unfold modify
  split <;> rfl

theorem map_tile?_modify (g : Grid) (p q : Position) {f : Tile → Tile} (view : Tile → α)
    (keeps : ∀ t, view (f t) = view t) :
    ((g.modify p f).tile? q).map view = (g.tile? q).map view := by
  rw [tile?_modify]
  split
  · cases g.tile? q with
    | none => rfl
    | some t => exact congrArg some (keeps t)
  · rfl

theorem SameColors.modify {g h : Grid} (same : g.SameColors h) (p : Position) {f : Tile → Tile}
    (keeps : ∀ t, (f t).color = t.color) : (g.modify p f).SameColors h where
  width := (g.width_modify p f).trans same.width
  height := (g.height_modify p f).trans same.height
  color q := (g.map_tile?_modify p q (·.color) keeps).trans (same.color q)

theorem sameColors_withStars (g : Grid) (ps : List Position) : (g.withStars ps).SameColors g := by
  have starred {h : Grid} (same : h.SameColors g) : (h.withStars ps).SameColors g := by
    induction ps generalizing h with
    | nil => exact same
    | cons p ps ih => exact ih (same.modify p fun _ => rfl)
  exact starred ⟨rfl, rfl, fun _ => rfl⟩

theorem tile?_withStars (g : Grid) (ps : List Position) (q : Position) :
    (g.withStars ps).tile? q =
      (g.tile? q).map fun t => { t with hasStar := t.hasStar || ps.contains q } := by
  induction ps generalizing g with
  | nil =>
    change g.tile? q = _
    cases g.tile? q <;> simp
  | cons p ps ih =>
    change ((g.modify p _).withStars ps).tile? q = _
    rw [ih, tile?_modify]
    split
    · rename_i here
      cases g.tile? q <;> simp [here]
    · rename_i other
      cases g.tile? q <;> simp [other]

theorem mem_positions {g : Grid} {q : Position} : q ∈ g.positions ↔ g.Contains q := by
  obtain ⟨x, y⟩ := q
  simp only [positions, Contains, List.mem_flatMap, List.mem_range, List.mem_map,
    Position.mk.injEq]
  constructor
  · rintro ⟨b, high, a, wide, rfl, rfl⟩
    omega
  · intro inside
    exact ⟨y.toNat, by omega, x.toNat, by omega, by omega, by omega⟩

theorem mem_stars {g : Grid} {q : Position} :
    q ∈ g.stars ↔ ∃ tile, g.tile? q = some tile ∧ tile.hasStar = true := by
  rw [stars, List.mem_filter, mem_positions, Option.any_eq_true]
  constructor
  · exact fun starred => starred.2
  · rintro ⟨tile, there, star⟩
    exact ⟨contains_of_tile? there, tile, there, star⟩

end Grid

end GridRobot
