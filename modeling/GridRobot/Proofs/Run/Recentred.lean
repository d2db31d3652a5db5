import GridRobot.Proofs.Run.Motion
import GridRobot.Random

namespace GridRobot

namespace Motion

def translate (dx dy : Int) (width height : Nat) : Motion where
  position p := ⟨p.x + dx, p.y + dy⟩
  back p := ⟨p.x - dx, p.y - dy⟩
  heading := id
  width := width
  height := height
  back_position p := by
    simp only [Int.add_sub_cancel]
  position_back p := by
    simp only [Int.sub_add_cancel]
  position_step p h := by
    cases h <;> simp only [Position.step, Position.mk.injEq, id_eq, true_and, and_true] <;> omega
  heading_turned _ _ := rfl
  distance_position p q := by
    simp only [Grid.distance]
    omega

def offset (small large : Nat) : Int :=
  (large / 2 : Nat) - (small / 2 : Nat)

def recentre (small large : Nat) : Motion :=
  translate (offset small large) (offset small large) large large

variable {small large : Nat}

theorem fits_recentre (larger : small ≤ large) {g : Grid} (width : g.width = small)
    (height : g.height = small) : (recentre small large).Fits g := by
  intro q inside
  simp only [Grid.Contains, width, height] at inside
  simp only [Holds, recentre, translate, offset]
  omega

theorem grid_recentre_empty (larger : small ≤ large) :
    (recentre small large).grid (.empty small small) = .empty large large := by
  refine Grid.ext_tile? rfl rfl fun q => ?_
  rw [(fits_recentre larger rfl rfl).tile?_back, Grid.tile?_empty, Grid.tile?_empty]

end Motion

def Config.withSize (c : Config) (size : Nat) : Config :=
  { c with gridSize := size }

variable {σ : Type} [RandomSource σ] {c : Config} {large : Nat}

namespace Setting

theorem position_recentre_centre (c : Config) (large : Nat) :
    (Motion.recentre c.gridSize large).position (centre c) = centre (c.withSize large) := by
  simp only [Motion.recentre, Motion.translate, Motion.offset, centre, Config.withSize,
    Position.mk.injEq]
  omega

theorem grid_recentre_freshWorld (sized : 1 ≤ c.gridSize) (larger : c.gridSize ≤ large)
    (color : Color) :
    (Motion.recentre c.gridSize large).grid (freshWorld c color) =
      freshWorld (c.withSize large) color := by
  have fits := Motion.fits_recentre larger (g := .empty c.gridSize c.gridSize) rfl rfl
  rw [freshWorld, fits.put (contains_centre sized), Motion.grid_recentre_empty larger,
    position_recentre_centre]
  rfl

theorem prepare_withSize (c : Config) (large window : Nat) (source : σ) :
    ∃ color heading after,
      prepare ⟨none, none, window⟩ c source = ((freshWorld c color, ⟨centre c, heading⟩), after) ∧
      prepare ⟨none, none, window⟩ (c.withSize large) source =
        ((freshWorld (c.withSize large) color, ⟨centre (c.withSize large), heading⟩), after) :=
  ⟨_, _, _, rfl, rfl⟩

end Setting

/-! ## Running without regard to the size -/

section Sizeless

variable (p : Program) (c : Config) (size : Nat) (suppressed : Slot → Bool) (window : Nat)

theorem Run.finish_withSize (fetches : Nat) (r : Run) :
    (r.finish ⟨p, c.withSize size, suppressed, window⟩ fetches : StateM σ Trace) =
      r.finish ⟨p, c, suppressed, window⟩ fetches := by
  induction fetches generalizing r with
  | zero => rfl
  | succ fetches ih =>
    unfold Run.finish
    simp only [ih]
    rfl

theorem runFrom?_withSize (world : Grid) (start : Pose) :
    (runFrom? ⟨p, c.withSize size, suppressed, window⟩ world start : StateM σ (Option Trace)) =
      runFrom? ⟨p, c, suppressed, window⟩ world start := by
  simp only [runFrom?, Run.finish_withSize]
  rfl

end Sizeless

/-- A run in a fresh world that does not end at the boundary is the same run in any larger fresh world,
moved from the centre of one to that of the other, and passes or fails the same check. -/
theorem execute_recentred (p : Program) (c : Config) (sized : 1 ≤ c.gridSize) (large : Nat)
    (larger : c.gridSize ≤ large) (suppressed : Slot → Bool) (window : Nat) (source : σ) :
    ∃ t after, execute p c ⟨none, none, window⟩ suppressed source = (.ok t, after) ∧
      (t.terminal ≠ .boundary →
        let moved := (Motion.recentre c.gridSize large).trace t
        execute p (c.withSize large) ⟨none, none, window⟩ suppressed source = (.ok moved, after) ∧
          moved.assess (c.withSize large) = t.assess c) := by
  obtain ⟨color, heading, drawn, prepared, enlarged⟩ :=
    Setting.prepare_withSize c large window source
  have standing : ((Setting.freshWorld c color).tile?
      (⟨Setting.centre c, heading⟩ : Pose).position).isSome = true := by
    rw [Setting.tile?_freshWorld sized, if_pos rfl]
    rfl
  obtain ⟨begun, begins⟩ := Trace.exists_begin? standing
  obtain ⟨t, after, ran⟩ := exists_runFrom? ⟨p, c, suppressed, window⟩ begins drawn
  refine ⟨t, after, execute_eq_ok.mpr (by rw [prepared]; exact ran), fun inner => ?_⟩
  have fits : (Motion.recentre c.gridSize large).Fits (Setting.freshWorld c color) :=
    Motion.fits_recentre larger rfl rfl
  have moved := runFrom?_moved ran fits fun outside => absurd outside inner
  rw [Setting.grid_recentre_freshWorld sized larger, Motion.pose,
    Setting.position_recentre_centre] at moved
  obtain ⟨-, width, height⟩ := size_of_runFrom? ran
  obtain ⟨entry, course⟩ := course_of_runFrom? ran
  refine ⟨execute_eq_ok.mpr ?_, (fits.congr width height).assess course.walk c⟩
  rw [enlarged, runFrom?_withSize]
  exact moved

def fourDraws : Tape :=
  ⟨#[0.1, 0.3, 0.5, 0.9], 0, false⟩

theorem execute_recentred_paintMoveTurn :
    1 ≤ (oneBend.withSize 5).gridSize ∧ (oneBend.withSize 5).gridSize ≤ 8 ∧
      ∃ t after, execute paintMoveTurn (oneBend.withSize 5) {} (fun _ => false) fourDraws =
        (.ok t, after) ∧
      t.terminal ≠ .boundary ∧ t.path.toList = [⟨2, 2⟩, ⟨2, 3⟩, ⟨1, 3⟩] ∧
      (t.assess (oneBend.withSize 5)).isPassed = true ∧
      ∃ moved, execute paintMoveTurn ((oneBend.withSize 5).withSize 8) {} (fun _ => false) fourDraws =
          (.ok moved, after) ∧
        moved.path.toList = [⟨4, 4⟩, ⟨4, 5⟩, ⟨3, 5⟩] ∧
        (moved.assess ((oneBend.withSize 5).withSize 8)).isPassed = true := by
  have evaluated : (execute paintMoveTurn (oneBend.withSize 5) {} (fun _ => false)
      fourDraws).1.toOption.any (fun t =>
        decide (t.terminal ≠ .boundary) && decide (t.path.toList = [⟨2, 2⟩, ⟨2, 3⟩, ⟨1, 3⟩]) &&
          (t.assess (oneBend.withSize 5)).isPassed) = true := by
    decide +kernel
  obtain ⟨t, after, ran, tested⟩ := exists_ok_of_any evaluated
  rw [Bool.and_eq_true, Bool.and_eq_true, decide_eq_true_eq, decide_eq_true_eq] at tested
  obtain ⟨⟨inner, path⟩, passed⟩ := tested
  have sized : 1 ≤ (oneBend.withSize 5).gridSize := by decide
  have larger : (oneBend.withSize 5).gridSize ≤ 8 := by decide
  obtain ⟨t', after', ran', moves⟩ := execute_recentred paintMoveTurn (oneBend.withSize 5) sized 8
    larger (fun _ => false) defaultWindow fourDraws
  have same := ran.symm.trans ran'
  rw [Prod.mk.injEq, Except.ok.injEq] at same
  obtain ⟨rfl, rfl⟩ := same
  obtain ⟨again, judged⟩ := moves inner
  refine ⟨sized, larger, t, after, ran, inner, path, passed, _, again, ?_, ?_⟩
  · rw [Motion.toList_path_trace, path]
    rfl
  · rw [judged]
    exact passed

end GridRobot
