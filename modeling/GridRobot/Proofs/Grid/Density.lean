import Mathlib.Data.Set.Card
import GridRobot.Proofs.Grid.Measure

namespace GridRobot.Grid

/-! ## The padded mask -/

def padded (width : Nat) (rows : List (List Bool)) : List (List Bool) :=
  let blank := List.replicate (width + 2) false
  [blank] ++ rows.map (fun row => [false] ++ row ++ [false]) ++ [blank]

-- Each of these leaves out two entries, so that a slice of the padded mask is as large as the mask.

def leading (xs : List α) : List α :=
  xs.dropLast.dropLast

def middle (xs : List α) : List α :=
  (xs.drop 1).dropLast

def trailing (xs : List α) : List α :=
  xs.drop 2

def slice (rows : List (List Bool) → List (List Bool)) (columns : List Bool → List Bool)
    (mask : List (List Bool)) : List (List Nat) :=
  (rows mask).map fun row => (columns row).map Bool.toNat

def slicedCounts (width : Nat) (rows : List (List Bool)) : List (List Nat) :=
  let add := List.zipWith (List.zipWith (· + ·))
  let mask := padded width rows
  add (add (slice leading middle mask) (slice trailing middle mask))
    (add (slice middle leading mask) (slice middle trailing mask))

theorem shiftOut_eq (pad : α) (xs : List α) : shiftOut pad xs = (xs ++ [pad]).drop 1 := by
  cases xs <;> simp [shiftOut]

theorem map_shiftIn (f : α → β) (pad : α) (xs : List α) :
    (shiftIn pad xs).map f = shiftIn (f pad) (xs.map f) := by
  rw [shiftIn, List.map_dropLast, List.map_cons, shiftIn]

theorem map_shiftOut (f : α → β) (pad : α) (xs : List α) :
    (shiftOut pad xs).map f = shiftOut (f pad) (xs.map f) := by
  simp [shiftOut_eq]

theorem leading_margin (a b : α) (xs : List α) : leading ([a] ++ xs ++ [b]) = shiftIn a xs := by
  rw [leading, List.dropLast_concat, shiftIn, List.singleton_append]

theorem middle_margin (a b : α) (xs : List α) : middle ([a] ++ xs ++ [b]) = xs := by
  simp [middle]

theorem trailing_margin (a b : α) (xs : List α) : trailing ([a] ++ xs ++ [b]) = shiftOut b xs := by
  simp [trailing, shiftOut_eq]

theorem middle_blank (width : Nat) :
    middle (List.replicate (width + 2) false) = List.replicate width false := by
  simp [middle]

theorem neighbourCounts_eq_sliced (width : Nat) (rows : List (List Bool)) :
    neighbourCounts width rows = slicedCounts width rows := by
  have inner : (rows.map fun row => [false] ++ row ++ [false]).map
      (fun row => (middle row).map Bool.toNat) = rows.map (·.map Bool.toNat) := by
    simp only [List.map_map, Function.comp_def, middle_margin]
  simp only [neighbourCounts, slicedCounts, slice, padded, leading_margin, middle_margin, trailing_margin,
    map_shiftIn, map_shiftOut, inner, middle_blank, List.map_map, Function.comp_def]

/-! ## Counting -/

variable (g : Grid)

theorem encard_positions (test : Position → Bool) (inside : ∀ q, test q = true → g.Contains q) :
    {q | test q = true}.encard = g.positions.countP test := by
  have same : {q | test q = true} = ↑(g.positions.filter test).toFinset := by
    ext q
    simp only [Set.mem_ofPred_eq, List.coe_toFinset, List.mem_filter, mem_positions]
    exact ⟨fun passes => ⟨inside q passes, passes⟩, fun passes => passes.2⟩
  rw [same, Set.encard_coe_eq_coe_finsetCard,
    List.toFinset_card_of_nodup (g.nodup_positions.filter test), List.countP_eq_length_filter]

theorem encard_dense (least : Int) :
    {q | (g.tile? q).isSome = true ∧ least ≤ g.neighbours q}.encard = g.denseCount least := by
  rw [denseCount_eq, ← encard_positions]
  · simp only [Bool.and_eq_true, decide_eq_true_eq]
  · intro q passes
    obtain ⟨tile, there⟩ := Option.isSome_iff_exists.mp (Bool.and_eq_true_iff.mp passes).1
    exact contains_of_tile? there

theorem denseCount_le_of_le {least more : Int} (stricter : least ≤ more) :
    g.denseCount more ≤ g.denseCount least := by
  rw [denseCount_eq, denseCount_eq]
  refine List.countP_mono_left fun q _ passes => ?_
  simp only [Bool.and_eq_true, decide_eq_true_eq] at passes ⊢
  exact ⟨passes.1, Int.le_trans stricter passes.2⟩

theorem denseCount_of_le_zero {least : Int} (low : least ≤ 0) : g.denseCount least = g.tileCount := by
  rw [denseCount_eq, tileCount_eq]
  refine List.countP_congr fun q _ => ?_
  have met : least ≤ g.neighbours q := Int.le_trans low (Int.natCast_nonneg _)
  simp [met]

/-- What the slices of the padded mask count are the tiles that have at least so many tiles among the
four positions one step away. Asking for more never finds more, and asking for none finds every tile. -/
theorem denseCount_exact (g : Grid) :
    neighbourCounts g.width g.mask = slicedCounts g.width g.mask ∧
      (∀ least : Int,
        {q | (g.tile? q).isSome = true ∧ least ≤ g.neighbours q}.encard = g.denseCount least) ∧
      (∀ least more : Int, least ≤ more → g.denseCount more ≤ g.denseCount least) ∧
      ∀ least ≤ 0, g.denseCount least = g.tileCount :=
  ⟨neighbourCounts_eq_sliced g.width g.mask, g.encard_dense,
    fun _ _ stricter => g.denseCount_le_of_le stricter, fun _ low => g.denseCount_of_le_zero low⟩

def tee : Grid :=
  let tile : Option Tile := some ⟨some .red, false⟩
  ⟨3, 2, #v[#v[tile, tile, tile], #v[none, tile, none]]⟩

theorem denseCount_tee :
    {q | (tee.tile? q).isSome = true ∧ 3 ≤ (tee.neighbours q : Int)}.encard = 1 ∧
      tee.denseCount 3 ≤ tee.denseCount 1 ∧ tee.denseCount 1 = 4 ∧
      tee.denseCount (-1) = tee.tileCount := by
  obtain ⟨-, counts, fewer, all⟩ := denseCount_exact tee
  have one : tee.denseCount 3 = 1 := by decide
  refine ⟨?_, fewer 1 3 (by decide), by decide, all (-1) (by decide)⟩
  rw [counts 3, one]
  rfl

end GridRobot.Grid
