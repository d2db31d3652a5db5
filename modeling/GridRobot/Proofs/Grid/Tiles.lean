import GridRobot.Grid

namespace GridRobot.Grid

theorem ext_tile? {g h : Grid} (width : g.width = h.width) (height : g.height = h.height)
    (tiles : ∀ q, g.tile? q = h.tile? q) : g = h := by
  obtain ⟨w, ht, rows⟩ := g
  obtain ⟨w', ht', rows'⟩ := h
  cases width
  cases height
  congr 1
  ext y high x wide : 2
  have inside (rows : Vector (Vector (Option Tile) w) ht) :
      (⟨w, ht, rows⟩ : Grid).Contains ⟨(x : Nat), (y : Nat)⟩ := by
    simp only [Contains]
    omega
  have same := tiles ⟨(x : Nat), (y : Nat)⟩
  rwa [tile?_of_contains (inside rows) wide high, tile?_of_contains (inside rows') wide high] at same

def ofTiles (width height : Nat) (f : Position → Option Tile) : Grid :=
  ⟨width, height, .ofFn fun y => .ofFn fun x => f ⟨(x : Nat), (y : Nat)⟩⟩

theorem tile?_ofTiles (width height : Nat) (f : Position → Option Tile) (q : Position) :
    (ofTiles width height f).tile? q =
      if (ofTiles width height f).Contains q then f q else none := by
  obtain ⟨x, y⟩ := q
  unfold tile?
  by_cases inside : (ofTiles width height f).Contains ⟨x, y⟩
  · obtain ⟨left, right, top, bottom⟩ := id inside
    obtain ⟨x, rfl⟩ := Int.eq_ofNat_of_zero_le left
    obtain ⟨y, rfl⟩ := Int.eq_ofNat_of_zero_le top
    rw [dif_pos inside, if_pos inside]
    simp [ofTiles]
  · rw [dif_neg inside, if_neg inside]

def recolored (g : Grid) (colors : Position → Option (Option Color)) : Grid :=
  ofTiles g.width g.height fun q =>
    (g.tile? q).map fun tile => { tile with color := (colors q).getD tile.color }

theorem tile?_recolored (g : Grid) (colors : Position → Option (Option Color)) (q : Position) :
    (g.recolored colors).tile? q =
      (g.tile? q).map fun tile => { tile with color := (colors q).getD tile.color } := by
  rw [recolored, tile?_ofTiles]
  split
  · rfl
  · rename_i outside
    have outside : ¬ g.Contains q := outside
    rw [tile?_eq_none_of_not_contains outside]
    rfl

/-! ## New tiles -/

def pave (g : Grid) (placed : List (Position × Color)) : Grid :=
  placed.foldl (fun g e => g.put e.1 (some ⟨some e.2, false⟩)) g

def cellsToPave (g : Grid) (path : List Position) : List Position :=
  (path.filter fun q => (g.tile? q).isNone).eraseDups

theorem mem_cellsToPave {g : Grid} {path : List Position} {q : Position} :
    q ∈ g.cellsToPave path ↔ q ∈ path ∧ g.tile? q = none := by
  simp [cellsToPave]

theorem cellsToPave_append {g : Grid} {path : List Position} (rest : List Position)
    (tiles : ∀ q ∈ path, (g.tile? q).isSome = true) :
    g.cellsToPave (path ++ rest) = g.cellsToPave rest := by
  have skipped : path.filter (fun q => (g.tile? q).isNone) = [] := by
    simpa [List.filter_eq_nil_iff, Option.isSome_iff_ne_none] using tiles
  rw [cellsToPave, cellsToPave, List.filter_append, skipped, List.nil_append]

theorem cellsToPave_cons {g : Grid} {q : Position} (void : g.tile? q = none) (inside : g.Contains q)
    (path : List Position) (tile : Tile) :
    g.cellsToPave (q :: path) = q :: (g.put q (some tile)).cellsToPave path := by
  rw [cellsToPave, List.filter_cons_of_pos (by simp [void]), List.eraseDups_cons, List.filter_filter,
    cellsToPave]
  congr 3
  funext p
  rw [tile?_put _ _ _ _ inside]
  by_cases here : p = q <;> simp [here]

theorem pave_cons (g : Grid) (e : Position × Color) (placed : List (Position × Color)) :
    g.pave (e :: placed) = (g.put e.1 (some ⟨some e.2, false⟩)).pave placed :=
  rfl

theorem tile?_pave_of_not_mem {g : Grid} {placed : List (Position × Color)} {q : Position}
    (inside : ∀ p ∈ placed.map (·.1), g.Contains p) (other : q ∉ placed.map (·.1)) :
    (g.pave placed).tile? q = g.tile? q := by
  induction placed generalizing g with
  | nil => rfl
  | cons e placed ih =>
    rw [List.map_cons, List.forall_mem_cons] at inside
    rw [List.map_cons, List.mem_cons, not_or] at other
    have rest := ih (g := g.put e.1 (some ⟨some e.2, false⟩)) inside.2 other.2
    rw [pave_cons, rest, tile?_put _ _ _ _ inside.1, if_neg other.1]

theorem tile?_pave_of_mem {g : Grid} {placed : List (Position × Color)} {q : Position} {c : Color}
    (inside : ∀ p ∈ placed.map (·.1), g.Contains p) (once : (placed.map (·.1)).Nodup)
    (mem : (q, c) ∈ placed) : (g.pave placed).tile? q = some ⟨some c, false⟩ := by
  induction placed generalizing g with
  | nil => cases mem
  | cons e placed ih =>
    rw [List.map_cons, List.forall_mem_cons] at inside
    rw [List.map_cons, List.nodup_cons] at once
    rcases List.mem_cons.mp mem with rfl | mem
    · have kept := tile?_pave_of_not_mem (g := g.put q (some ⟨some c, false⟩)) inside.2 once.1
      rw [pave_cons, kept, tile?_put _ _ _ _ inside.1, if_pos rfl]
    · exact ih (g := g.put e.1 _) inside.2 once.2 mem

end GridRobot.Grid
