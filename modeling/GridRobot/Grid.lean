import GridRobot.Collections
import GridRobot.Pose

namespace GridRobot

inductive Color where
  | red
  | green
  | blue
  deriving DecidableEq

namespace Color

def all : List Color := [.red, .green, .blue]

def name : Color → String
  | .red => "red"
  | .green => "green"
  | .blue => "blue"

def ofName? (s : String) : Option Color :=
  all.find? fun c => c.name == s

@[simp]
theorem mem_all (c : Color) : c ∈ all := by
  cases c <;> simp [all]

@[simp]
theorem ofName?_name (c : Color) : ofName? c.name = some c := by
  cases c <;> decide

theorem name_of_ofName? {s : String} {c : Color} (h : ofName? s = some c) : c.name = s := by
  simpa using List.find?_some h

def others (c : Option Color) : List Color :=
  all.filter fun d => some d != c

/-- The most frequent colour; a tie goes to the earlier one, and red stands for no colour at all. -/
def mostCommon (cs : List Color) : Color :=
  (all.foldl (fun best c => if best.2 < cs.count c then (c, cs.count c) else best)
    (.red, 0)).1

end Color

/-! ## Grids -/

structure Tile where
  color : Option Color
  hasStar : Bool := false
  deriving DecidableEq

structure Grid where
  width : Nat
  height : Nat
  rows : Vector (Vector (Option Tile) width) height
  deriving DecidableEq

namespace Grid

def empty (width height : Nat) : Grid :=
  ⟨width, height, .replicate height (.replicate width none)⟩

def ofRows? (rows : List (List (Option Tile))) : Option Grid :=
  let width := (rows.head?.getD []).length
  let aligned := rows.filterMap fun row =>
    if h : row.length = width then some (⟨row.toArray, by simp [h]⟩ : Vector (Option Tile) width)
    else none
  if aligned.length = rows.length then some ⟨width, aligned.length, ⟨aligned.toArray, by simp⟩⟩
  else none

def toRows (g : Grid) : List (List (Option Tile)) :=
  g.rows.toList.map (·.toList)

def Contains (g : Grid) (p : Position) : Prop :=
  0 ≤ p.x ∧ p.x < g.width ∧ 0 ≤ p.y ∧ p.y < g.height

instance (g : Grid) (p : Position) : Decidable (g.Contains p) :=
  inferInstanceAs (Decidable (_ ∧ _ ∧ _ ∧ _))

def tile? (g : Grid) (p : Position) : Option Tile :=
  if h : g.Contains p then
    have hx : p.x.toNat < g.width := by unfold Contains at h; omega
    have hy : p.y.toNat < g.height := by unfold Contains at h; omega
    g.rows[p.y.toNat][p.x.toNat]
  else none

def put (g : Grid) (p : Position) (t : Option Tile) : Grid :=
  { g with
    rows :=
      if h : g.Contains p then
        have hx : p.x.toNat < g.width := by unfold Contains at h; omega
        have hy : p.y.toNat < g.height := by unfold Contains at h; omega
        g.rows.set p.y.toNat (g.rows[p.y.toNat].set p.x.toNat t)
      else g.rows }

def modify (g : Grid) (p : Position) (f : Tile → Tile) : Grid :=
  match g.tile? p with
  | some t => g.put p (some (f t))
  | none => g

def positions (g : Grid) : List Position :=
  (List.range g.height).flatMap fun y => (List.range g.width).map fun x => ⟨(x : Nat), (y : Nat)⟩

def stars (g : Grid) : List Position :=
  g.positions.filter fun p => (g.tile? p).any (·.hasStar)

@[simp]
theorem width_put (g : Grid) (p : Position) (t : Option Tile) : (g.put p t).width = g.width :=
  rfl

@[simp]
theorem height_put (g : Grid) (p : Position) (t : Option Tile) : (g.put p t).height = g.height :=
  rfl

theorem tile?_eq_none_of_not_contains {g : Grid} {p : Position} (h : ¬ g.Contains p) :
    g.tile? p = none := by
  simp [tile?, h]

theorem contains_of_tile? {g : Grid} {p : Position} {t : Tile} (h : g.tile? p = some t) :
    g.Contains p := by
  by_cases hp : g.Contains p
  · exact hp
  · simp [tile?, hp] at h

@[simp]
theorem tile?_empty (width height : Nat) (p : Position) : (empty width height).tile? p = none := by
  unfold tile?
  split
  · simp [empty]
  · rfl

theorem tile?_of_contains {g : Grid} {p : Position} (h : g.Contains p)
    (hx : p.x.toNat < g.width) (hy : p.y.toNat < g.height) :
    g.tile? p = g.rows[p.y.toNat][p.x.toNat] := by
  simp [tile?, h]

theorem tile?_put (g : Grid) (p q : Position) (t : Option Tile) (h : g.Contains p) :
    (g.put p t).tile? q = if q = p then t else g.tile? q := by
  by_cases hq : g.Contains q
  · have hq' : (g.put p t).Contains q := hq
    have hx : q.x.toNat < g.width := by unfold Contains at hq; omega
    have hy : q.y.toNat < g.height := by unfold Contains at hq; omega
    rw [tile?_of_contains hq' hx hy, tile?_of_contains hq hx hy]
    simp only [put, h, dite_true]
    obtain ⟨px, py⟩ := p
    obtain ⟨qx, qy⟩ := q
    unfold Contains at h hq
    simp only at h hq
    by_cases sameRow : py.toNat = qy.toNat
    · have sameY : qy = py := by omega
      by_cases sameColumn : px.toNat = qx.toNat
      · have sameX : qx = px := by omega
        simp [sameY, sameX]
      · have otherX : qx ≠ px := by omega
        simp [sameRow, sameColumn, otherX]
    · have otherY : qy ≠ py := by omega
      simp [sameRow, otherY]
  · have other : q ≠ p := by rintro rfl; exact hq h
    have hq' : ¬ (g.put p t).Contains q := hq
    simp [tile?_eq_none_of_not_contains hq', tile?_eq_none_of_not_contains hq, other]

/-! ## Extents and neighbours -/

def mask (g : Grid) : List (List Bool) :=
  g.toRows.map fun row => row.map Option.isSome

def tileCount (g : Grid) : Nat :=
  sum (g.mask.map (·.count true))

def span (marks : List Bool) : Nat :=
  ((marks.dropWhile not).reverse.dropWhile not).length

def columnMarks (width : Nat) (rows : List (List Bool)) : List Bool :=
  rows.foldr (List.zipWith or) (List.replicate width false)

def boundingBox (g : Grid) : Nat × Nat :=
  (span (columnMarks g.width g.mask), span (g.mask.map (·.any id)))

def shiftIn (pad : α) (xs : List α) : List α :=
  (pad :: xs).dropLast

def shiftOut (pad : α) (xs : List α) : List α :=
  xs.drop 1 ++ if xs.isEmpty then [] else [pad]

def neighbourCounts (width : Nat) (rows : List (List Bool)) : List (List Nat) :=
  let blank := List.replicate width false
  let fromAbove := shiftIn blank rows
  let fromBelow := shiftOut blank rows
  let fromLeft := rows.map (shiftIn false)
  let fromRight := rows.map (shiftOut false)
  let counts := fun (rows : List (List Bool)) => rows.map (·.map Bool.toNat)
  let add := List.zipWith (List.zipWith (· + ·))
  add (add (counts fromAbove) (counts fromBelow)) (add (counts fromLeft) (counts fromRight))

def denseCount (g : Grid) (least : Int) : Nat :=
  sum (List.zipWith (fun row counts =>
      (List.zipWith (fun placed (n : Nat) => placed && decide (least ≤ n)) row counts).count true)
    g.mask (neighbourCounts g.width g.mask))

def denseThreshold : Int := 3

end Grid

end GridRobot
