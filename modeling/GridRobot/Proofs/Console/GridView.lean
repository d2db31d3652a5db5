import GridRobot.Console.GridView
import GridRobot.Proofs.Grid.Box

namespace GridRobot

/-! ## Styled characters -/

abbrev Ink := List (Char × List String)

namespace StyledText

def stylesAt (spans : List Span) (n : Nat) : List String :=
  (spans.filter fun s => s.start ≤ n && n < s.stop).map (·.style)

def inked (t : StyledText) : Ink :=
  t.text.toList.zipIdx.map fun x => (x.1, stylesAt t.spans x.2)

def inkOf (piece : String × String) : Ink :=
  piece.1.toList.map fun c => (c, if piece.2.isEmpty then [] else [piece.2])

theorem start_le_of_mem_spansOf {start : Nat} {pieces : List (String × String)} {s : Span}
    (mem : s ∈ spansOf start pieces) : start ≤ s.start := by
  induction pieces generalizing start with
  | nil => cases mem
  | cons piece rest ih =>
    rw [spansOf] at mem
    split at mem
    · exact Nat.le_trans (Nat.le_add_right _ _) (ih mem)
    · rcases List.mem_cons.mp mem with rfl | mem
      · exact Nat.le_refl _
      · exact Nat.le_trans (Nat.le_add_right _ _) (ih mem)

theorem stylesAt_before {start n : Nat} (pieces : List (String × String)) (before : n < start) :
    stylesAt (spansOf start pieces) n = [] := by
  rw [stylesAt, List.map_eq_nil_iff, List.filter_eq_nil_iff]
  intro s mem covers
  have later := start_le_of_mem_spansOf mem
  simp only [Bool.and_eq_true, decide_eq_true_eq] at covers
  omega

theorem stylesAt_cons {start n : Nat} (text style : String) (rest : List (String × String)) :
    stylesAt (spansOf start ((text, style) :: rest)) n =
      if start ≤ n ∧ n < start + text.length then if style.isEmpty then [] else [style]
      else stylesAt (spansOf (start + text.length) rest) n := by
  have length (none : text.isEmpty = true) : text.length = 0 := by
    rw [String.isEmpty_iff.mp none, String.length_empty]
  rw [spansOf]
  by_cases inside : start ≤ n ∧ n < start + text.length
  · have later := stylesAt_before rest inside.2
    rw [if_pos inside]
    cases plain : style.isEmpty with
    | true => exact later
    | false =>
      have shown : ¬ text.isEmpty = true := fun none => by
        have := length none
        omega
      rw [if_neg (by simpa using shown), stylesAt, List.filter_cons_of_pos (by simpa using inside),
        List.map_cons, ← stylesAt, later]
      rfl
  · rw [if_neg inside]
    split
    · rfl
    · rw [stylesAt, List.filter_cons_of_neg (by simpa using inside), ← stylesAt]

theorem inked_spansOf (start : Nat) (pieces : List (String × String)) :
    ((pieces.flatMap (·.1.toList)).zipIdx start).map
        (fun x => (x.1, stylesAt (spansOf start pieces) x.2)) = pieces.flatMap inkOf := by
  induction pieces generalizing start with
  | nil => rfl
  | cons piece rest ih =>
    obtain ⟨text, style⟩ := piece
    have length : text.toList.length = text.length := String.length_toList
    rw [List.flatMap_cons, List.zipIdx_append, List.map_append, List.flatMap_cons, length]
    congr 1
    -- Only the span of the first piece reaches its characters, and it reaches no others.
    · have ink := congrArg (List.map fun c => (c, if style.isEmpty then [] else [style]))
        (List.zipIdx_map_fst start text.toList)
      rw [List.map_map] at ink
      refine Eq.trans (List.map_congr_left fun x mem => ?_) ink
      have first := List.le_snd_of_mem_zipIdx mem
      have last := List.snd_lt_add_of_mem_zipIdx mem
      rw [stylesAt_cons, if_pos ⟨first, length ▸ last⟩]
      rfl
    · rw [← ih]
      refine List.map_congr_left fun x mem => ?_
      have later := List.le_snd_of_mem_zipIdx mem
      rw [stylesAt_cons, if_neg (by omega)]

theorem inked_ofPieces (pieces : List (String × String)) :
    (ofPieces pieces).inked = pieces.flatMap inkOf := by
  rw [inked, ofPieces, String.toList_join, List.flatMap_map]
  exact inked_spansOf 0 pieces

theorem map_fst_inkOf (piece : String × String) : (inkOf piece).map (·.1) = piece.1.toList := by
  rw [inkOf, List.map_map]
  exact List.map_id _

/-- The text is made up of so many lines of so many cells, each line closed by a line end. -/
structure Tabulates (t : StyledText) (width height : Nat) (cells : List (List Ink)) : Prop where
  text : t.inked = cells.flatMap fun line => line.flatten ++ [('\n', [])]
  height : cells.length = height
  width : ∀ line ∈ cells, line.length = width

end StyledText

open StyledText

/-! ## Cells -/

theorem Mark.glyphs_inj {m n : Mark} : m.glyphs.toList = n.glyphs.toList ↔ m = n := by
  refine ⟨fun same => ?_, fun same => same ▸ rfl⟩
  rcases m with (_ | _ | _ | _) | _ | _ <;> rcases n with (_ | _ | _ | _) | _ | _ <;>
    first
    | rfl
    | simp [glyphs, robotGlyph] at same

namespace Puzzle

structure Depicts (q : Puzzle) (p : Position) (cell : Ink) : Prop where
  robot : cell.map (·.1) = (Mark.robot q.start.heading).glyphs.toList ↔ p = q.start.position
  star : cell.map (·.1) = Mark.star.glyphs.toList ↔
    p ≠ q.start.position ∧ ∃ tile, q.grid.tile? p = some tile ∧ tile.hasStar = true
  bare : cell.map (·.1) = Mark.bare.glyphs.toList ↔
    p ≠ q.start.position ∧ ∀ tile, q.grid.tile? p = some tile → tile.hasStar = false
  style : ∀ c ∈ cell,
    c.2 = ((q.grid.tile? p).map fun tile => "bold white " ++ Color.cellStyle tile.color).toList

variable {q : Puzzle}

def markAt (q : Puzzle) (p : Position) : Mark :=
  if p = q.start.position then .robot q.start.heading
  else if (q.grid.tile? p).any (·.hasStar) then .star
  else .bare

theorem piece_drawnCell {tile : Tile} (stands : q.grid.tile? q.start.position = some tile)
    (p : Position) :
    (q.drawnCell p).piece = ((q.markAt p).glyphs,
      ((q.grid.tile? p).map fun tile => "bold white " ++ Color.cellStyle tile.color).getD "") := by
  rw [drawnCell, markAt]
  cases there : q.grid.tile? p with
  | none =>
    have away : p ≠ q.start.position := by
      rintro rfl
      rw [stands] at there
      cases there
    rw [if_neg away]
    rfl
  | some t => rfl

theorem markAt_cases (p : Position) :
    (q.markAt p = .robot q.start.heading ↔ p = q.start.position) ∧
      (q.markAt p = .star ↔
        p ≠ q.start.position ∧ ∃ tile, q.grid.tile? p = some tile ∧ tile.hasStar = true) ∧
      (q.markAt p = .bare ↔
        p ≠ q.start.position ∧ ∀ tile, q.grid.tile? p = some tile → tile.hasStar = false) := by
  by_cases here : p = q.start.position
  · simp [markAt, here]
  · cases there : q.grid.tile? p with
    | none => simp [markAt, here, there]
    | some tile => cases starred : tile.hasStar <;> simp [markAt, here, there, starred]

theorem depicts_drawnCell {tile : Tile} (stands : q.grid.tile? q.start.position = some tile)
    (p : Position) : q.Depicts p (inkOf (q.drawnCell p).piece) := by
  obtain ⟨robot, star, bare⟩ := q.markAt_cases p
  rw [piece_drawnCell stands]
  refine ⟨?_, ?_, ?_, fun c mem => ?_⟩
  · rw [map_fst_inkOf, Mark.glyphs_inj, robot]
  · rw [map_fst_inkOf, Mark.glyphs_inj, star]
  · rw [map_fst_inkOf, Mark.glyphs_inj, bare]
  · obtain ⟨c, -, rfl⟩ := List.mem_map.mp mem
    cases q.grid.tile? p with
    | none => rfl
    | some t => simp

/-! ## Cropping -/

theorem mem_tiledRows {y : Nat} : y ∈ q.tiledRows ↔ q.grid.HasRow y := by
  simp only [tiledRows, List.mem_filter, List.mem_range, List.any_eq_true]
  constructor
  · rintro ⟨-, x, -, placed⟩
    exact ⟨x, placed⟩
  · rintro ⟨x, placed⟩
    obtain ⟨a, b, rfl, same, wide, high⟩ := Grid.exists_of_placed placed
    obtain rfl := Int.ofNat.inj same
    exact ⟨high, a, wide, placed⟩

theorem mem_tiledColumns {x : Nat} : x ∈ q.tiledColumns ↔ q.grid.HasColumn x := by
  simp only [tiledColumns, List.mem_filter, List.mem_range, List.any_eq_true]
  constructor
  · rintro ⟨-, y, -, placed⟩
    exact ⟨y, placed⟩
  · rintro ⟨y, placed⟩
    obtain ⟨a, b, same, rfl, wide, high⟩ := Grid.exists_of_placed placed
    obtain rfl := Int.ofNat.inj same
    exact ⟨wide, b, high, placed⟩

section Ascending

variable {xs : List Nat} {a : Nat}

theorem head?_of_ascending (ascending : xs.Pairwise (· < ·)) (mem : a ∈ xs)
    (least : ∀ k ∈ xs, a ≤ k) : xs.head? = some a := by
  obtain ⟨x, rest, rfl⟩ := List.exists_cons_of_ne_nil (List.ne_nil_of_mem mem)
  rcases List.mem_cons.mp mem with rfl | later
  · rfl
  · have below := (List.pairwise_cons.mp ascending).1 a later
    exact absurd (least x List.mem_cons_self) (Nat.not_le.mpr below)

theorem getLast?_of_ascending (ascending : xs.Pairwise (· < ·)) (mem : a ∈ xs)
    (greatest : ∀ k ∈ xs, k ≤ a) : xs.getLast? = some a := by
  obtain ⟨before, x, rfl⟩ := (List.eq_nil_or_concat' xs).resolve_left (List.ne_nil_of_mem mem)
  rcases List.mem_append.mp mem with earlier | here
  · have above := (List.pairwise_append.mp ascending).2.2 a earlier x List.mem_cons_self
    exact absurd (greatest x (by simp)) (Nat.not_le.mpr above)
  · rw [List.getLast?_concat, List.mem_singleton.mp here]

theorem extentOf_of_interval (ascending : xs.Pairwise (· < ·)) {P : Int → Prop}
    (listed : ∀ k : Nat, k ∈ xs ↔ P k) {n : Nat} (interval : Interval P a n) :
    xs ≠ [] ∧ extentOf xs = List.range' a n := by
  have within (k : Nat) (mem : k ∈ xs) : a ≤ k ∧ k < a + n := by
    have := interval.within k ((listed k).mp mem)
    omega
  have lowest : a ∈ xs := (listed a).mpr interval.starts
  have positive : 0 < n := by
    have := within a lowest
    omega
  have highest : a + n - 1 ∈ xs := by
    rw [listed, show ((a + n - 1 : Nat) : Int) = a + n - 1 by omega]
    exact interval.ends
  have first := head?_of_ascending ascending lowest fun k mem => (within k mem).1
  have last := getLast?_of_ascending ascending highest fun k mem => Nat.le_sub_one_of_lt (within k mem).2
  have length : a + n - 1 + 1 - a = n := by omega
  refine ⟨List.ne_nil_of_mem lowest, ?_⟩
  rw [extentOf, first, last]
  simp only [List.range_eq_range', List.drop_range', Nat.mul_one, Nat.zero_add, length]

end Ascending

theorem drawnRange_cropped {a b width height : Nat} (columns : Interval q.grid.HasColumn a width)
    (rows : Interval q.grid.HasRow b height) :
    q.drawnRange true = (List.range' b height, List.range' a width) := by
  have rightwards : q.tiledColumns.Pairwise (· < ·) := List.pairwise_lt_range.filter _
  have downwards : q.tiledRows.Pairwise (· < ·) := List.pairwise_lt_range.filter _
  obtain ⟨someColumn, across⟩ := extentOf_of_interval rightwards (fun _ => mem_tiledColumns) columns
  obtain ⟨someRow, down⟩ := extentOf_of_interval downwards (fun _ => mem_tiledRows) rows
  have cropped : (true && !q.tiledRows.isEmpty && !q.tiledColumns.isEmpty) = true := by
    simp [someColumn, someRow]
  rw [drawnRange, if_pos cropped, down, across]

theorem drawnCells_cropped {a b width height : Nat} (columns : Interval q.grid.HasColumn a width)
    (rows : Interval q.grid.HasRow b height) :
    q.drawnCells true = (List.range height).map fun (j : Nat) =>
      (List.range width).map fun (i : Nat) => q.drawnCell ⟨a + i, b + j⟩ := by
  rw [drawnCells, drawnRange_cropped columns rows]
  simp [List.range'_eq_map_range, Function.comp_def]

theorem inked_gridText (crop : Bool) :
    (q.gridText crop).inked = ((q.drawnCells crop).map (·.map fun cell => inkOf cell.piece)).flatMap
      fun line => line.flatten ++ [('\n', [])] := by
  rw [gridText, inked_ofPieces, List.flatMap_assoc, List.flatMap_map]
  refine congrArg (List.flatMap · _) (funext fun line => ?_)
  rw [List.flatMap_append, List.flatMap_map]
  rfl

/-- The cropped drawing of a puzzle whose start is on a tile is as large as the bounding box, which is
the smallest rectangle around the tiles. Each cell shows the position at its offset from the corner of
the box, and every tile has its place in one of them. -/
theorem gridText_exact {q : Puzzle} {tile : Tile}
    (stands : q.grid.tile? q.start.position = some tile) :
    ∃ (left top : Int) (cells : List (List Ink)),
      q.grid.Bounds ⟨left, top, q.grid.boundingBox.1, q.grid.boundingBox.2⟩ ∧
      (q.gridText true).Tabulates q.grid.boundingBox.1 q.grid.boundingBox.2 cells ∧
      (∀ (i j : Nat) row cell, cells[j]? = some row → row[i]? = some cell →
        q.Depicts ⟨left + i, top + j⟩ cell) ∧
      ∀ p, (q.grid.tile? p).isSome = true →
        ∃! place : Nat × Nat, p = ⟨left + place.1, top + place.2⟩ ∧
          place.1 < q.grid.boundingBox.1 ∧ place.2 < q.grid.boundingBox.2 := by
  have placed : (q.grid.tile? q.start.position).isSome = true := by
    rw [stands]
    rfl
  obtain ⟨left, columns⟩ := Grid.exists_columns placed
  obtain ⟨top, rows⟩ := Grid.exists_rows placed
  obtain ⟨_, firstColumn⟩ := columns.starts
  obtain ⟨_, firstRow⟩ := rows.starts
  obtain ⟨a, -, rfl, -⟩ := Grid.exists_of_placed firstColumn
  obtain ⟨-, b, -, rfl, -⟩ := Grid.exists_of_placed firstRow
  have bounds := Grid.bounds_of_intervals columns rows
  have text := q.inked_gridText true
  rw [drawnCells_cropped columns rows] at text
  refine ⟨a, b, _, bounds, ⟨text, ?_, ?_⟩, ?_, fun p placed => ?_⟩
  · simp
  · simp +contextual
  · intro i j row cell atRow atCell
    obtain ⟨_, rfl⟩ := List.getElem?_eq_some_iff.mp atRow
    obtain ⟨_, rfl⟩ := List.getElem?_eq_some_iff.mp atCell
    simp only [List.getElem_map, List.getElem_range]
    exact depicts_drawnCell stands _
  · have inside := bounds.holds p placed
    obtain ⟨x, y⟩ := p
    simp only [Box.Holds] at inside
    refine ⟨((x - a).toNat, (y - b).toNat), ?_, ?_⟩
    · simp only [Position.mk.injEq]
      omega
    · rintro ⟨i, j⟩ ⟨same, -, -⟩
      simp only [Position.mk.injEq] at same
      simp only [Prod.mk.injEq]
      omega

def gap : Puzzle where
  grid := ⟨5, 3, #v[.replicate 5 none,
    #v[none, some ⟨some .red, true⟩, none, some ⟨some .green, true⟩, none], .replicate 5 none]⟩
  start := ⟨⟨1, 1⟩, .left⟩
  lengths := ⟨0, 0, 0, 0, 0⟩

theorem gridText_gap :
    gap.grid.tile? gap.start.position = some ⟨some .red, true⟩ ∧
      ∃ (left top : Int) (cells : List (List Ink)), gap.grid.Bounds ⟨left, top, 3, 1⟩ ∧
        (gap.gridText true).Tabulates 3 1 cells ∧
        (∃! place : Nat × Nat, (⟨3, 1⟩ : Position) = ⟨left + place.1, top + place.2⟩ ∧
          place.1 < 3 ∧ place.2 < 1) ∧
        (gap.gridText true).text = "◀   ★ \n" := by
  have stands : gap.grid.tile? gap.start.position = some ⟨some .red, true⟩ := by decide
  obtain ⟨left, top, cells, bounds, table, -, placed⟩ := gridText_exact stands
  have size : gap.grid.boundingBox = (3, 1) := by decide
  rw [size] at bounds table placed
  exact ⟨stands, left, top, cells, bounds, table, placed ⟨3, 1⟩ (by decide), by decide +kernel⟩

end Puzzle

end GridRobot
