import GridRobot.Proofs.Grid.Measure

namespace GridRobot

/-- The numbers that satisfy `P` lie among the `n` numbers from `first` on, and reach both ends. -/
structure Interval (P : Int → Prop) (first : Int) (n : Nat) : Prop where
  within : ∀ x, P x → first ≤ x ∧ x < first + n
  starts : P first
  ends : P (first + n - 1)

theorem Interval.unique {P : Int → Prop} {a b : Int} {m n : Nat} (left : Interval P a m)
    (right : Interval P b n) : a = b ∧ m = n := by
  have first := left.within b right.starts
  have first' := right.within a left.starts
  have last := left.within _ right.ends
  have last' := right.within _ left.ends
  omega

theorem Grid.Extent.exists_interval {P : Int → Prop} {n : Nat} (extent : Extent P n) {x : Int}
    (member : P x) : ∃ first, Interval P first n := by
  have length := extent.within x x member member
  obtain ⟨first, last, starts, ends, apart⟩ := extent.reached (by omega)
  refine ⟨first, fun y held => ?_, starts, ?_⟩
  · have above := extent.within first y starts held
    have below := extent.within y last held ends
    omega
  · rwa [show first + n - 1 = last by omega]

structure Box where
  left : Int
  top : Int
  width : Nat
  height : Nat

def Box.Holds (b : Box) (p : Position) : Prop :=
  b.left ≤ p.x ∧ p.x < b.left + b.width ∧ b.top ≤ p.y ∧ p.y < b.top + b.height

namespace Grid

structure Bounds (g : Grid) (b : Box) : Prop where
  holds : ∀ p, (g.tile? p).isSome = true → b.Holds p
  least : ∀ c : Box, (∀ p, (g.tile? p).isSome = true → c.Holds p) →
    (∀ p, b.Holds p → c.Holds p) ∧ b.width ≤ c.width ∧ b.height ≤ c.height

def HasColumn (g : Grid) (x : Int) : Prop :=
  ∃ y, (g.tile? ⟨x, y⟩).isSome = true

def HasRow (g : Grid) (y : Int) : Prop :=
  ∃ x, (g.tile? ⟨x, y⟩).isSome = true

variable {g : Grid}

theorem exists_columns {p : Position} (placed : (g.tile? p).isSome = true) :
    ∃ left, Interval g.HasColumn left g.boundingBox.1 :=
  g.extent_width.exists_interval (x := p.x) ⟨p.y, placed⟩

theorem exists_rows {p : Position} (placed : (g.tile? p).isSome = true) :
    ∃ top, Interval g.HasRow top g.boundingBox.2 :=
  g.extent_height.exists_interval (x := p.y) ⟨p.x, placed⟩

theorem bounds_of_intervals {left top : Int} {width height : Nat}
    (columns : Interval g.HasColumn left width) (rows : Interval g.HasRow top height) :
    g.Bounds ⟨left, top, width, height⟩ where
  holds p placed := by
    obtain ⟨first, last⟩ := columns.within p.x ⟨p.y, placed⟩
    exact ⟨first, last, rows.within p.y ⟨p.x, placed⟩⟩
  least c holds := by
    -- A tile on each side of the rectangle keeps `c` from ending before it.
    obtain ⟨_, first⟩ := columns.starts
    obtain ⟨_, last⟩ := columns.ends
    obtain ⟨_, highest⟩ := rows.starts
    obtain ⟨_, lowest⟩ := rows.ends
    have first := holds _ first
    have last := holds _ last
    have highest := holds _ highest
    have lowest := holds _ lowest
    simp only [Box.Holds] at first last highest lowest ⊢
    refine ⟨fun p inside => ?_, ?_, ?_⟩ <;> omega

end Grid

end GridRobot
