import GridRobot.Grid

namespace GridRobot

namespace Grid

def color? (g : Grid) (p : Position) : Option (Option Color) :=
  (g.tile? p).map (·.color)

structure SameColors (g h : Grid) : Prop where
  width : g.width = h.width
  height : g.height = h.height
  color : ∀ q, g.color? q = h.color? q

structure Covers (g world final : Grid) : Prop where
  width : g.width = world.width
  height : g.height = world.height
  color : ∀ q, g.color? q = (world.color? q).or (final.color? q)

theorem color?_of_tile? {g : Grid} {p : Position} {t : Tile} (there : g.tile? p = some t) :
    g.color? p = some t.color := by
  simp [color?, there]

theorem color?_put (g : Grid) (p q : Position) (t : Tile) (inside : g.Contains p) :
    (g.put p (some t)).color? q = if q = p then some t.color else g.color? q := by
  rw [color?, tile?_put g p q (some t) inside]
  split <;> rfl

theorem isSome_of_color? {g : Grid} {p : Position} {c : Option Color} (shown : g.color? p = some c) :
    ∃ tile, g.tile? p = some tile ∧ tile.color = c := by
  simpa [color?] using shown

namespace Covers

variable {g world final : Grid}

theorem contains_iff (covers : g.Covers world final) (q : Position) :
    g.Contains q ↔ world.Contains q := by
  simp [Contains, covers.width, covers.height]

theorem color_of_tile? (covers : g.Covers world final) {q : Position} {tile : Tile}
    (there : world.tile? q = some tile) : g.color? q = some tile.color := by
  rw [covers.color, color?_of_tile? there]
  rfl

theorem put (covers : g.Covers world final) {q : Position} (inside : world.Contains q)
    {tile shown : Tile} (same : shown.color = tile.color) :
    (g.put q (some shown)).Covers (world.put q (some tile)) final where
  width := covers.width
  height := covers.height
  color p := by
    rw [color?_put _ _ _ _ ((covers.contains_iff q).mpr inside), color?_put _ _ _ _ inside, same]
    split
    · rfl
    · exact covers.color p

theorem place (covers : g.Covers world final) {q : Position} (inside : world.Contains q)
    {tile : Tile} (shown : g.color? q = some tile.color) :
    g.Covers (world.put q (some tile)) final where
  width := covers.width
  height := covers.height
  color p := by
    rw [color?_put _ _ _ _ inside]
    split
    · rename_i here
      rw [here, shown]
      rfl
    · exact covers.color p

end Covers

theorem SameColors.covers {g world final : Grid} (same : g.SameColors final)
    (width : world.width = final.width) (height : world.height = final.height)
    (grown : ∀ q tile, world.tile? q = some tile → final.tile? q = some tile) :
    g.Covers world final where
  width := same.width.trans width.symm
  height := same.height.trans height.symm
  color q := by
    rw [same.color]
    unfold color?
    cases there : world.tile? q with
    | none => rfl
    | some tile =>
      rw [grown q tile there]
      rfl

theorem Covers.sameColors {g world final : Grid} (covers : g.Covers world final)
    (placed : ∀ q, (final.tile? q).isSome = (world.tile? q).isSome) : g.SameColors world where
  width := covers.width
  height := covers.height
  color q := by
    rw [covers.color]
    have placed := placed q
    unfold color?
    cases there : world.tile? q with
    | some tile => rfl
    | none =>
      rw [there] at placed
      rw [Option.isNone_iff_eq_none.mp (Option.isSome_eq_false_iff.mp placed)]
      rfl

end Grid

end GridRobot
