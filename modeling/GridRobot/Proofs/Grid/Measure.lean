import Mathlib.Data.List.Nodup
import Mathlib.Data.List.TakeWhile
import GridRobot.Proofs.Grid.Layout

namespace GridRobot.Grid

theorem nodup_eraseDups [DecidableEq α] (xs : List α) : xs.eraseDups.Nodup := by
  induction n : xs.length using Nat.strongRecOn generalizing xs with
  | ind n ih =>
    cases xs with
    | nil => simp
    | cons x xs =>
      subst n
      rw [List.eraseDups_cons, List.nodup_cons]
      refine ⟨by simp, ih _ ?_ _ rfl⟩
      exact Nat.lt_succ_of_le (List.length_filter_le _ _)

theorem nodup_positions (g : Grid) : g.positions.Nodup := by
  refine List.nodup_flatMap.mpr ⟨fun y _ => ?_, ?_⟩
  · refine List.nodup_range.map fun a b same => ?_
    exact Int.ofNat.inj (Position.mk.inj same).1
  · refine List.nodup_range.imp fun {a b} differ p first second => ?_
    obtain ⟨x, -, rfl⟩ := List.mem_map.mp first
    obtain ⟨x', -, same⟩ := List.mem_map.mp second
    exact differ (Int.ofNat.inj (Position.mk.inj same).2).symm

theorem sum_count (g : Grid) (test : Position → Bool) :
    sum ((List.range g.height).map fun y =>
      ((List.range g.width).map fun x => test ⟨(x : Nat), (y : Nat)⟩).count true) =
        g.positions.countP test := by
  rw [positions, List.countP_flatMap]
  refine congrArg sum (List.map_congr_left fun y _ => ?_)
  simp [List.count, List.countP_map, Function.comp_def]

theorem tileCount_eq (g : Grid) :
    g.tileCount = g.positions.countP fun q => (g.tile? q).isSome := by
  rw [tileCount, mask_eq, List.map_map]
  exact g.sum_count fun q => (g.tile? q).isSome

theorem length_positions (g : Grid) : g.positions.length = g.width * g.height := by
  simp [positions, List.length_flatMap, Nat.mul_comm]

theorem tileCount_le (g : Grid) : g.tileCount ≤ g.width * g.height := by
  rw [tileCount_eq, ← length_positions]
  exact List.countP_le_length

theorem tileCount_of_tiles {g : Grid} {path : List Position}
    (tiles : ∀ q, (g.tile? q).isSome = true ↔ q ∈ path) : g.tileCount = path.eraseDups.length := by
  rw [tileCount_eq, List.countP_eq_length_filter]
  refine List.Perm.length_eq ?_
  rw [List.perm_ext_iff_of_nodup (g.nodup_positions.filter _) (nodup_eraseDups path)]
  intro q
  rw [List.mem_filter, List.mem_eraseDups, ← tiles, mem_positions]
  constructor
  · exact fun there => there.2
  · intro there
    obtain ⟨tile, found⟩ := Option.isSome_iff_exists.mp there
    exact ⟨contains_of_tile? found, there⟩

/-! ## Neighbours -/

def neighbours (g : Grid) (p : Position) : Nat :=
  Heading.all.countP fun h => (g.tile? (p.step h)).isSome

theorem shiftIn_map {f : Int → α} (n : Nat) :
    shiftIn (f (-1)) ((List.range n).map fun i => f (i : Nat)) =
      (List.range n).map fun i => f ((i : Nat) - 1) := by
  apply List.ext_getElem
  · simp [shiftIn]
  intro i shifted _
  cases i with
  | zero => simp [shiftIn]
  | succ i => simp [shiftIn]

theorem shiftOut_map {f : Int → α} (n : Nat) :
    shiftOut (f (n : Nat)) ((List.range n).map fun i => f (i : Nat)) =
      (List.range n).map fun i => f ((i : Nat) + 1) := by
  cases n with
  | zero => rfl
  | succ n =>
    have rest : ((List.range (n + 1)).map fun i => f (i : Nat)).drop 1 =
        (List.range n).map fun i => f ((i : Nat) + 1) := by
      simp [List.range_succ_eq_map]
    rw [shiftOut, rest, List.range_succ, List.map_append]
    simp

theorem isSome_tile?_outside {g : Grid} {q : Position} (outside : ¬ g.Contains q) :
    (g.tile? q).isSome = false := by
  rw [tile?_eq_none_of_not_contains outside]
  rfl

def maskRow (g : Grid) (y : Int) : List Bool :=
  (List.range g.width).map fun x => (g.tile? ⟨(x : Nat), y⟩).isSome

theorem maskRow_outside {g : Grid} {y : Int} (outside : y < 0 ∨ g.height ≤ y) :
    g.maskRow y = List.replicate g.width false := by
  apply List.eq_replicate_iff.mpr
  refine ⟨by simp [maskRow], fun b mem => ?_⟩
  obtain ⟨x, -, rfl⟩ := List.mem_map.mp mem
  apply isSome_tile?_outside
  simp only [Contains]
  omega

theorem shiftIn_maskRow (g : Grid) (y : Int) :
    shiftIn false (g.maskRow y) =
      (List.range g.width).map fun x => (g.tile? ⟨(x : Nat) - 1, y⟩).isSome := by
  have edge : (g.tile? ⟨-1, y⟩).isSome = false := by
    apply isSome_tile?_outside
    simp only [Contains]
    omega
  rw [← edge]
  exact shiftIn_map (f := fun x => (g.tile? ⟨x, y⟩).isSome) g.width

theorem shiftOut_maskRow (g : Grid) (y : Int) :
    shiftOut false (g.maskRow y) =
      (List.range g.width).map fun x => (g.tile? ⟨(x : Nat) + 1, y⟩).isSome := by
  have edge : (g.tile? ⟨g.width, y⟩).isSome = false := by
    apply isSome_tile?_outside
    simp only [Contains]
    omega
  rw [← edge]
  exact shiftOut_map (f := fun x => (g.tile? ⟨x, y⟩).isSome) g.width

theorem neighbourCounts_mask (g : Grid) :
    neighbourCounts g.width g.mask = (List.range g.height).map fun y =>
      (List.range g.width).map fun x => g.neighbours ⟨(x : Nat), (y : Nat)⟩ := by
  have mask : g.mask = (List.range g.height).map fun y => g.maskRow (y : Nat) := g.mask_eq
  have above : shiftIn (List.replicate g.width false) g.mask =
      (List.range g.height).map fun y => g.maskRow ((y : Nat) - 1) := by
    rw [mask, ← maskRow_outside (.inl (by decide : (-1 : Int) < 0)), shiftIn_map]
  have below : shiftOut (List.replicate g.width false) g.mask =
      (List.range g.height).map fun y => g.maskRow ((y : Nat) + 1) := by
    rw [mask, ← maskRow_outside (.inr (Int.le_refl g.height)), shiftOut_map]
  simp only [neighbourCounts, above, below]
  simp only [mask, List.map_map, Function.comp_def, shiftIn_maskRow, shiftOut_maskRow,
    List.zipWith_map, List.zipWith_self]
  refine List.map_congr_left fun y _ => ?_
  simp only [maskRow, List.zipWith_map, List.zipWith_self]
  refine List.map_congr_left fun x _ => ?_
  have toNat (b : Bool) : b.toNat = if b then 1 else 0 := by cases b <;> rfl
  simp only [neighbours, Heading.all, Position.step, List.countP_cons, List.countP_nil,
    toNat]
  omega

theorem denseCount_eq (g : Grid) (least : Int) :
    g.denseCount least =
      g.positions.countP fun q => (g.tile? q).isSome && decide (least ≤ g.neighbours q) := by
  rw [denseCount, neighbourCounts_mask, mask_eq, List.zipWith_map, List.zipWith_self]
  simp only [List.zipWith_map, List.zipWith_self]
  exact g.sum_count fun q => (g.tile? q).isSome && decide (least ≤ g.neighbours q)

theorem denseCount_le (g : Grid) (least : Int) : g.denseCount least ≤ g.width * g.height := by
  rw [denseCount_eq, ← length_positions]
  exact List.countP_le_length

/-! ## Extent -/

structure Extent (P : Int → Prop) (n : Nat) : Prop where
  within : ∀ x y, P x → P y → y - x < n
  reached : n ≠ 0 → ∃ x y, P x ∧ P y ∧ y - x + 1 = n

theorem Extent.congr {P Q : Int → Prop} {n : Nat} (extent : Extent P n) (same : ∀ x, Q x ↔ P x) :
    Extent Q n := by
  rwa [show Q = P from funext fun x => propext (same x)]

theorem head?_dropWhile_not {marks : List Bool} (left : marks.dropWhile not ≠ []) :
    (marks.dropWhile not).head? = some true := by
  have first := List.head_dropWhile_not not left
  rw [List.head?_eq_some_head left]
  simpa using first

theorem exists_span (marks : List Bool) :
    ∃ before between after, marks = before ++ between ++ after ∧ between.length = span marks ∧
      true ∉ before ∧ true ∉ after ∧
      (between ≠ [] → between.head? = some true ∧ between.getLast? = some true) := by
  have skipped (xs : List Bool) : true ∉ xs.takeWhile not := by
    intro mem
    cases List.mem_takeWhile_imp mem
  let rest := marks.dropWhile not
  have split :
      (rest.reverse.dropWhile not).reverse ++ (rest.reverse.takeWhile not).reverse = rest := by
    rw [← List.reverse_append, List.takeWhile_append_dropWhile, List.reverse_reverse]
  refine ⟨marks.takeWhile not, (rest.reverse.dropWhile not).reverse,
    (rest.reverse.takeWhile not).reverse, ?_, ?_, ?_, ?_, fun left => ⟨?_, ?_⟩⟩
  · rw [List.append_assoc, split, List.takeWhile_append_dropWhile]
  · rw [List.length_reverse, span]
  · exact skipped _
  · rw [List.mem_reverse]
    exact skipped _
  · have first : rest.head? = some true := by
      apply head?_dropWhile_not
      intro nothing
      apply left
      rw [show rest = [] from nothing]
      rfl
    rw [← split, List.head?_append] at first
    cases found : (rest.reverse.dropWhile not).reverse.head? with
    | none => exact absurd (List.head?_eq_none_iff.mp found) left
    | some mark =>
      rw [found] at first
      exact first
  · rw [List.getLast?_reverse]
    exact head?_dropWhile_not fun nothing => left (by rw [nothing]; rfl)

theorem extent_span (marks : List Bool) :
    Extent (fun i => ∃ n : Nat, i = n ∧ marks[n]? = some true) (span marks) := by
  obtain ⟨before, between, after, parts, length, blankBefore, blankAfter, ends⟩ := exists_span marks
  have inside (n : Nat) (marked : marks[n]? = some true) :
      before.length ≤ n ∧ n < before.length + between.length := by
    rw [parts] at marked
    constructor
    · by_contra less
      rw [List.append_assoc, List.getElem?_append_left (by omega)] at marked
      exact blankBefore (List.mem_of_getElem? marked)
    · by_contra past
      rw [List.getElem?_append_right (by rw [List.length_append]; omega)] at marked
      exact blankAfter (List.mem_of_getElem? marked)
  rw [← length]
  constructor
  · rintro x y ⟨m, rfl, first⟩ ⟨n, rfl, second⟩
    have := inside m first
    have := inside n second
    omega
  · intro long
    obtain ⟨first, last⟩ := ends (List.ne_nil_of_length_pos (by omega))
    have at? (i : Nat) (marked : between[i]? = some true) :
        marks[before.length + i]? = some true := by
      have low : i < between.length := by
        by_contra past
        rw [List.getElem?_eq_none (by omega)] at marked
        cases marked
      rw [parts, List.append_assoc, List.getElem?_append_right (by omega), Nat.add_sub_cancel_left,
        List.getElem?_append_left low, marked]
    rw [List.head?_eq_getElem?] at first
    rw [List.getLast?_eq_getElem?] at last
    exact ⟨_, _, ⟨_, rfl, at? _ first⟩, ⟨_, rfl, at? _ last⟩, by omega⟩

theorem exists_of_placed {g : Grid} {x y : Int} (placed : (g.tile? ⟨x, y⟩).isSome = true) :
    ∃ a b : Nat, x = a ∧ y = b ∧ a < g.width ∧ b < g.height := by
  obtain ⟨tile, there⟩ := Option.isSome_iff_exists.mp placed
  have inside := contains_of_tile? there
  simp only [Contains] at inside
  exact ⟨x.toNat, y.toNat, by omega, by omega, by omega, by omega⟩

theorem columnMarks_map (width : Nat) (ys : List Nat) (f : Nat → Nat → Bool) :
    columnMarks width (ys.map fun y => (List.range width).map fun x => f x y) =
      (List.range width).map fun x => ys.any fun y => f x y := by
  induction ys with
  | nil => simp [columnMarks, List.map_const']
  | cons y ys ih =>
    rw [List.map_cons, columnMarks, List.foldr_cons, ← columnMarks, ih, List.zipWith_map,
      List.zipWith_self]
    rfl

theorem getElem?_marks {n : Nat} {f : Nat → Bool} {i : Nat} :
    ((List.range n).map f)[i]? = some true ↔ i < n ∧ f i = true := by
  by_cases low : i < n <;> simp [low]

variable (g : Grid)

theorem extent_width : Extent (fun x => ∃ y, (g.tile? ⟨x, y⟩).isSome = true) g.boundingBox.1 := by
  have extent := extent_span (columnMarks g.width g.mask)
  rw [mask_eq, columnMarks_map] at extent
  rw [boundingBox, mask_eq, columnMarks_map]
  refine extent.congr fun x => ?_
  constructor
  · rintro ⟨y, placed⟩
    obtain ⟨a, b, rfl, rfl, wide, high⟩ := exists_of_placed placed
    refine ⟨a, rfl, getElem?_marks.mpr ⟨wide, ?_⟩⟩
    exact List.any_eq_true.mpr ⟨b, List.mem_range.mpr high, placed⟩
  · rintro ⟨a, rfl, marked⟩
    obtain ⟨b, -, placed⟩ := List.any_eq_true.mp (getElem?_marks.mp marked).2
    exact ⟨b, placed⟩

theorem extent_height : Extent (fun y => ∃ x, (g.tile? ⟨x, y⟩).isSome = true) g.boundingBox.2 := by
  have marks : g.mask.map (·.any id) = (List.range g.height).map fun y =>
      (List.range g.width).any fun x => (g.tile? ⟨(x : Nat), (y : Nat)⟩).isSome := by
    simp [mask_eq, List.any_map, Function.comp_def]
  have extent := extent_span (g.mask.map (·.any id))
  rw [marks] at extent
  rw [boundingBox, marks]
  refine extent.congr fun y => ?_
  constructor
  · rintro ⟨x, placed⟩
    obtain ⟨a, b, rfl, rfl, wide, high⟩ := exists_of_placed placed
    refine ⟨b, rfl, getElem?_marks.mpr ⟨high, ?_⟩⟩
    exact List.any_eq_true.mpr ⟨a, List.mem_range.mpr wide, placed⟩
  · rintro ⟨b, rfl, marked⟩
    obtain ⟨a, -, placed⟩ := List.any_eq_true.mp (getElem?_marks.mp marked).2
    exact ⟨a, placed⟩

/-! ## Spread -/

def distance (p q : Position) : Nat :=
  max (q.x - p.x).natAbs (q.y - p.y).natAbs

structure Spread (P : Position → Prop) (n : Nat) : Prop where
  within : ∀ p q, P p → P q → distance p q < n
  reached : n ≠ 0 → ∃ p q, P p ∧ P q ∧ distance p q + 1 = n

theorem Spread.unique {P : Position → Prop} {m n : Nat} (first : Spread P m) (second : Spread P n) :
    m = n := by
  have le {m n : Nat} (first : Spread P m) (second : Spread P n) : m ≤ n := by
    by_contra less
    obtain ⟨p, q, left, right, far⟩ := first.reached (by omega)
    have near := second.within p q left right
    omega
  exact Nat.le_antisymm (le first second) (le second first)

theorem spread_boundingBox :
    Spread (fun q => (g.tile? q).isSome = true) (max g.boundingBox.1 g.boundingBox.2) := by
  have width := g.extent_width
  have height := g.extent_height
  generalize g.boundingBox = box at *
  have within (p q : Position) (left : (g.tile? p).isSome = true) (right : (g.tile? q).isSome = true) :
      distance p q < max box.1 box.2 := by
    have ahead := width.within p.x q.x ⟨_, left⟩ ⟨_, right⟩
    have behind := width.within q.x p.x ⟨_, right⟩ ⟨_, left⟩
    have below := height.within p.y q.y ⟨_, left⟩ ⟨_, right⟩
    have above := height.within q.y p.y ⟨_, right⟩ ⟨_, left⟩
    simp only [distance]
    omega
  refine ⟨within, fun some => ?_⟩
  by_cases wide : box.2 ≤ box.1
  · obtain ⟨x, x', ⟨y, left⟩, ⟨y', right⟩, far⟩ := width.reached (by omega)
    have near := within _ _ left right
    refine ⟨_, _, left, right, ?_⟩
    simp only [distance] at near ⊢
    omega
  · obtain ⟨y, y', ⟨x, left⟩, ⟨x', right⟩, far⟩ := height.reached (by omega)
    have near := within _ _ left right
    refine ⟨_, _, left, right, ?_⟩
    simp only [distance] at near ⊢
    omega

theorem boundingBox_le : max g.boundingBox.1 g.boundingBox.2 ≤ g.width * g.height := by
  rcases Nat.eq_zero_or_pos (max g.boundingBox.1 g.boundingBox.2) with none | positive
  · omega
  have within {x y : Int} (placed : (g.tile? ⟨x, y⟩).isSome = true) :
      0 ≤ x ∧ x < g.width ∧ 0 ≤ y ∧ y < g.height := by
    obtain ⟨tile, there⟩ := Option.isSome_iff_exists.mp placed
    exact contains_of_tile? there
  obtain ⟨⟨x, y⟩, ⟨x', y'⟩, left, right, far⟩ := g.spread_boundingBox.reached (by omega)
  have left := within left
  have right := within right
  have wide : g.width ≤ g.width * g.height := Nat.le_mul_of_pos_right g.width (by omega)
  have high : g.height ≤ g.width * g.height := Nat.le_mul_of_pos_left g.height (by omega)
  simp only [distance] at far
  omega

end GridRobot.Grid
