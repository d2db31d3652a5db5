import Mathlib.Algebra.Order.Field.Power
import Mathlib.Algebra.Order.Field.Rat
import Mathlib.Tactic.FieldSimp
import Mathlib.Tactic.Linarith
import Mathlib.Tactic.NormNum
import Mathlib.Tactic.Ring
import GridRobot.Decimal

/-!
Rounding to a floating-point number. A rational is rounded to the nearest multiple of a power of two, of
two to the even one; the power is the least that leaves at most 53 bits, but none below the least of the
format. Larger numbers are not rounded to smaller ones, and shifting a mantissa right by bits, of which
the last and whether any other was set are kept, computes it.
-/

namespace GridRobot.Decimal

open Float.Model Float.Model.UnpackedFloat

/-! ## The nearest whole number -/

structure Nearest (x : ℚ) (n : ℕ) : Prop where
  low : n - 1 / 2 ≤ x
  high : x ≤ n + 1 / 2
  even : x = n - 1 / 2 ∨ x = n + 1 / 2 → n % 2 = 0

theorem Nearest.mono {x y : ℚ} {m n : ℕ} (left : Nearest x m) (right : Nearest y n) (le : x ≤ y) :
    m ≤ n := by
  by_contra more
  have more : n + 1 ≤ m := Nat.not_le.mp more
  have cast : (n : ℚ) + 1 ≤ m := by exact_mod_cast more
  have low := left.low
  have high := right.high
  -- both lie half-way between the two whole numbers, which cannot both be even
  have next : (m : ℚ) = n + 1 := by linarith
  have next : m = n + 1 := by exact_mod_cast next
  have first := left.even (.inl (by linarith))
  have second := right.even (.inr (by linarith))
  omega

theorem nearest_cast (n : ℕ) : Nearest n n where
  low := by linarith
  high := by linarith
  even half := by rcases half with half | half <;> linarith

/-! ## Shifting -/

def half (bit : Bool) : ℚ :=
  if bit then 1 / 2 else 0

/-- What is beyond the mantissa and the half is less than a half, and `stickyBit` says whether it is
anything at all. -/
def Approximates (em : ExtendedMantissa) (x : ℚ) : Prop :=
  ∃ rest : ℚ, x = em.mantissa + half em.roundBit + rest ∧ 0 ≤ rest ∧ rest < 1 / 2 ∧
    (em.stickyBit = true ↔ 0 < rest)

variable {em : ExtendedMantissa} {x : ℚ}

theorem approximates_cast (m : ℕ) : Approximates ⟨m, false, false⟩ m :=
  ⟨0, by simp [half], le_rfl, by norm_num, by simp⟩

theorem Approximates.shiftRightOne (approximates : Approximates em x) :
    Approximates em.shiftRightOne (x / 2) := by
  obtain ⟨m, round, sticky⟩ := em
  obtain ⟨rest, rfl, nonneg, small, set⟩ := approximates
  have halved : (m : ℚ) / 2 = (m / 2 : ℕ) + half (m % 2 != 0) := by
    have parts : (m : ℚ) = 2 * (m / 2 : ℕ) + (m % 2 : ℕ) := by
      exact_mod_cast (Nat.div_add_mod m 2).symm
    rcases Nat.mod_two_eq_zero_or_one m with bit | bit <;> rw [bit] at parts ⊢ <;>
      simp [half] <;> linarith
  have round_nonneg : 0 ≤ half round := by
    cases round <;> simp [half]
  have round_le : half round ≤ 1 / 2 := by
    cases round <;> simp [half]
  refine ⟨(half round + rest) / 2, ?_, by linarith, by linarith, ?_⟩
  · simp only [ExtendedMantissa.shiftRightOne]
    linarith
  · -- the new sticky bit has the old bits in it
    simp only [ExtendedMantissa.shiftRightOne, Bool.or_eq_true]
    rw [show sticky = true ↔ 0 < rest from set]
    cases round with
    | false =>
      simp only [half, Bool.false_eq_true, false_or, if_false, zero_add]
      exact ⟨fun some => by linarith, fun some => by linarith⟩
    | true =>
      refine iff_of_true (.inl rfl) ?_
      simp only [half, if_true]
      linarith

theorem Approximates.shiftRight (approximates : Approximates em x) (k : ℕ) :
    Approximates (em >>> k) (x / 2 ^ k) := by
  induction k with
  | zero =>
    rw [pow_zero, div_one]
    exact approximates
  | succ k ih =>
    rw [pow_succ, ← div_div]
    exact ih.shiftRightOne

theorem Approximates.nearest (approximates : Approximates em x) : Nearest x em.roundedMantissa := by
  obtain ⟨m, round, sticky⟩ := em
  obtain ⟨rest, rfl, nonneg, small, set⟩ := approximates
  cases round with
  | false =>
    have down : ExtendedMantissa.roundedMantissa ⟨m, false, sticky⟩ = m := by cases sticky <;> rfl
    rw [down]
    simp only [half, Bool.false_eq_true, if_false, add_zero]
    exact ⟨by linarith, by linarith, fun tie => by rcases tie with tie | tie <;> linarith⟩
  | true =>
    simp only [half, if_true]
    cases sticky with
    | false =>
      have none : rest = 0 := le_antisymm (not_lt.mp (by simpa using set)) nonneg
      have even : ExtendedMantissa.roundedMantissa ⟨m, true, false⟩ = m + m % 2 := rfl
      rw [even]
      subst none
      rcases Nat.mod_two_eq_zero_or_one m with bit | bit <;> rw [bit]
      · exact ⟨by push_cast; linarith, by push_cast; linarith, fun _ => by omega⟩
      · exact ⟨by push_cast; linarith, by push_cast; linarith, fun _ => by omega⟩
    | true =>
      have some : 0 < rest := set.mp rfl
      have up : ExtendedMantissa.roundedMantissa ⟨m, true, true⟩ = m + 1 := rfl
      rw [up]
      refine ⟨by push_cast; linarith, by push_cast; linarith, fun tie => ?_⟩
      push_cast at tie
      rcases tie with tie | tie <;> linarith

/-! ## Rounding -/

theorem zpow_two_pos (t : ℤ) : (0 : ℚ) < 2 ^ t :=
  zpow_pos two_pos t

theorem zpow_two_add (e : ℤ) (k : ℕ) : (2 : ℚ) ^ (e + k) = 2 ^ k * 2 ^ e := by
  rw [zpow_add₀ two_ne_zero, zpow_natCast, mul_comm]

section Scaled

variable {m k : ℕ} (e : ℤ)

theorem scaled_le (bits : m ≤ 2 ^ k) : (m : ℚ) * 2 ^ e ≤ 2 ^ (e + k) := by
  rw [zpow_two_add]
  exact mul_le_mul_of_nonneg_right (by exact_mod_cast bits) (zpow_two_pos e).le

theorem scaled_lt (bits : m < 2 ^ k) : (m : ℚ) * 2 ^ e < 2 ^ (e + k) := by
  rw [zpow_two_add]
  exact mul_lt_mul_of_pos_right (by exact_mod_cast bits) (zpow_two_pos e)

theorem le_scaled (bits : 2 ^ k ≤ m) : (2 : ℚ) ^ (e + k) ≤ m * 2 ^ e := by
  rw [zpow_two_add]
  exact mul_le_mul_of_nonneg_right (by exact_mod_cast bits) (zpow_two_pos e).le

end Scaled

theorem leastExponent_le_zero : leastExponent ≤ 0 := by
  decide

/-- The power of two of which a number is rounded to a multiple: the greatest that leaves 53 bits, or the
least of all. -/
structure Spacing (x : ℚ) (t : ℤ) : Prop where
  least : leastExponent ≤ t
  below : x < 2 ^ (t + 53)
  full : t = leastExponent ∨ 2 ^ (t + 52) ≤ x

theorem Spacing.le {x y : ℚ} {t u : ℤ} (left : Spacing x t) (right : Spacing y u) (le : x ≤ y) :
    t ≤ u := by
  by_contra more
  have more : u + 53 ≤ t + 52 := by omega
  have above : (2 : ℚ) ^ (u + 53) ≤ 2 ^ (t + 52) := zpow_le_zpow_right₀ one_le_two more
  rcases left.full with bottom | full
  · have least := right.least
    omega
  · have below := right.below
    linarith

def RoundsTo (x r : ℚ) : Prop :=
  ∃ (t : ℤ) (n : ℕ), Spacing x t ∧ Nearest (x / 2 ^ t) n ∧ r = n * 2 ^ t

theorem Spacing.le_of_nearest {x : ℚ} {t : ℤ} {n : ℕ} (spacing : Spacing x t)
    (near : Nearest (x / 2 ^ t) n) : n ≤ 2 ^ 53 := by
  have small : x / 2 ^ t < 2 ^ 53 := by
    rw [div_lt_iff₀ (zpow_two_pos t), ← zpow_two_add]
    exact spacing.below
  have top : Nearest ((2 ^ 53 : ℕ) : ℚ) (2 ^ 53) := nearest_cast _
  exact near.mono top (by push_cast; exact small.le)

theorem Spacing.full_of_nearest {x : ℚ} {t : ℤ} {n : ℕ} (spacing : Spacing x t)
    (near : Nearest (x / 2 ^ t) n) : t = leastExponent ∨ 2 ^ 52 ≤ n := by
  refine spacing.full.imp_right fun full => ?_
  have large : (2 : ℚ) ^ 52 ≤ x / 2 ^ t := by
    rw [le_div_iff₀ (zpow_two_pos t), ← zpow_two_add]
    exact full
  have bottom : Nearest ((2 ^ 52 : ℕ) : ℚ) (2 ^ 52) := nearest_cast _
  exact bottom.mono near (by push_cast; exact large)

theorem RoundsTo.mono {x y r s : ℚ} (left : RoundsTo x r) (right : RoundsTo y s) (le : x ≤ y) :
    r ≤ s := by
  obtain ⟨t, m, spacing, near, rfl⟩ := left
  obtain ⟨u, n, spacing', near', rfl⟩ := right
  rcases (spacing.le spacing' le).eq_or_lt with rfl | finer
  · have pos := zpow_two_pos t
    have more : m ≤ n := near.mono near' ((div_le_div_iff_of_pos_right pos).mpr le)
    exact mul_le_mul_of_nonneg_right (by exact_mod_cast more) pos.le
  · -- a power of two lies between
    have least := spacing.least
    have large := (spacing'.full_of_nearest near').resolve_left (by omega)
    calc (m : ℚ) * 2 ^ t
        ≤ 2 ^ (t + 53) := scaled_le t (spacing.le_of_nearest near)
      _ ≤ 2 ^ (u + 52) := zpow_le_zpow_right₀ one_le_two (by omega)
      _ ≤ n * 2 ^ u := le_scaled u large

/-! ## Rounding a mantissa -/

structure Canonical (m : ℕ) (e : ℤ) : Prop where
  bits : m < 2 ^ 53
  least : leastExponent ≤ e
  full : e = leastExponent ∨ 2 ^ 52 ≤ m

def target (m : ℕ) (e : ℤ) : ℤ :=
  Format.binary64.targetExponent (totalExponent m e)

theorem target_eq (m : ℕ) (e : ℤ) : target m e = max (m.log2 + e - 52) leastExponent := by
  have bits : (Format.binary64.mantissaBits : ℤ) = 53 := rfl
  have least : Format.binary64.minExponent = leastExponent := rfl
  rw [target, Format.targetExponent, totalExponent, bits, least]
  congr 1
  ring

theorem spacing_target {m : ℕ} (pos : 0 < m) (e : ℤ) : Spacing (m * 2 ^ e) (target m e) := by
  rw [target_eq]
  refine ⟨le_max_right _ _, ?_, ?_⟩
  · calc (m : ℚ) * 2 ^ e
        < 2 ^ (e + (m.log2 + 1 : ℕ)) := scaled_lt e Nat.lt_log2_self
      _ ≤ _ := zpow_le_zpow_right₀ one_le_two (by omega)
  · rcases max_choice ((m.log2 : ℤ) + e - 52) leastExponent with normal | bottom
    · right
      rw [normal]
      calc (2 : ℚ) ^ ((m.log2 : ℤ) + e - 52 + 52)
          = 2 ^ (e + m.log2) := by
            congr 1
            ring
        _ ≤ m * 2 ^ e := le_scaled e (Nat.log2_self_le pos.ne')
    · exact .inl bottom

theorem Canonical.log2_le {m : ℕ} {e : ℤ} (canonical : Canonical m e) : m.log2 ≤ 52 := by
  rcases Nat.eq_zero_or_pos m with rfl | pos
  · decide
  · exact Nat.lt_succ_iff.mp ((Nat.log2_lt pos.ne').mpr canonical.bits)

theorem le_log2 {m : ℕ} (full : 2 ^ 52 ≤ m) : 52 ≤ m.log2 :=
  (Nat.le_log2 (by omega)).mpr full

theorem Canonical.target {m : ℕ} {e : ℤ} (canonical : Canonical m e) : target m e = e := by
  have small := canonical.log2_le
  rw [target_eq]
  rcases canonical.full with rfl | full
  · exact max_eq_right (by omega)
  · have large := le_log2 full
    have least := canonical.least
    rw [show (m.log2 : ℤ) + e - 52 = e by omega]
    exact max_eq_left least

theorem shiftToTargetExponent_eq {m : ℕ} {e : ℤ} (finer : e ≤ target m e) :
    shiftToTargetExponent .binary64 m e .exact =
      ((⟨m, false, false⟩ : ExtendedMantissa) >>> (target m e - e).toNat, target m e) := by
  have shifted : shiftToTargetExponent .binary64 m e .exact =
      ((⟨m, false, false⟩ : ExtendedMantissa) >>> (target m e - e).toNat,
        e + (target m e - e).toNat) := rfl
  rw [shifted]
  congr 1
  omega

theorem shiftToTargetExponent_carried {n : ℕ} {t : ℤ} (least : leastExponent ≤ t)
    (small : n ≤ 2 ^ 53) (full : t = leastExponent ∨ 2 ^ 52 ≤ n) :
    ∃ (em : ExtendedMantissa) (u : ℤ), shiftToTargetExponent .binary64 n t .exact = (em, u) ∧
      Canonical em.mantissa u ∧ (em.mantissa : ℚ) * 2 ^ u = n * 2 ^ t := by
  rcases small.eq_or_lt with rfl | small
  · have carried : target (2 ^ 53) t = t + 1 := by
      rw [target_eq, Nat.log2_two_pow]
      push_cast
      omega
    rw [shiftToTargetExponent_eq (by omega), carried]
    refine ⟨_, _, rfl, ?_⟩
    rw [show (t + 1 - t).toNat = 1 by omega]
    have halved : ((⟨2 ^ 53, false, false⟩ : ExtendedMantissa) >>> 1).mantissa = 2 ^ 52 := rfl
    rw [halved]
    refine ⟨⟨by norm_num, by omega, .inr le_rfl⟩, ?_⟩
    rw [zpow_add_one₀ two_ne_zero]
    push_cast
    ring
  · have canonical : Canonical n t := ⟨small, least, full⟩
    rw [shiftToTargetExponent_eq canonical.target.ge, canonical.target]
    refine ⟨_, _, rfl, ?_⟩
    rw [show (t - t).toNat = 0 by omega]
    exact ⟨canonical, rfl⟩

theorem roundWithAccuracy_cases (s : Sign) {m : ℕ} (pos : 0 < m) {e : ℤ} (finer : e ≤ target m e) :
    ∃ r, RoundsTo (m * 2 ^ e) r ∧
      (r = 0 ∧ roundWithAccuracy .binary64 s m e .exact = .zero s ∨
        ∃ n t pos', Canonical n t ∧ r = n * 2 ^ t ∧
          roundWithAccuracy .binary64 s m e .exact = .finite s n t pos') := by
  have spacing := spacing_target pos e
  have scaled : (m : ℚ) * 2 ^ e / 2 ^ target m e = m / 2 ^ (target m e - e).toNat := by
    rw [div_eq_div_iff (zpow_two_pos _).ne' (pow_pos two_pos _).ne', mul_assoc, ← zpow_natCast,
      ← zpow_add₀ two_ne_zero]
    congr 2
    omega
  have near := ((approximates_cast m).shiftRight (target m e - e).toNat).nearest
  rw [← scaled] at near
  obtain ⟨em, u, shifted, canonical, same⟩ := shiftToTargetExponent_carried spacing.least
    (spacing.le_of_nearest near) (spacing.full_of_nearest near)
  refine ⟨_, ⟨_, _, spacing, near, rfl⟩, ?_⟩
  rw [← same]
  have rounded : roundWithAccuracy .binary64 s m e .exact =
      if h : em.mantissa = 0 then .zero s else .finite s em.mantissa u (Nat.pos_of_ne_zero h) := by
    unfold roundWithAccuracy
    rw [shiftToTargetExponent_eq finer]
    dsimp only
    rw [shifted]
  by_cases zero : em.mantissa = 0
  · rw [dif_pos zero] at rounded
    exact .inl ⟨by rw [zero]; simp, rounded⟩
  · rw [dif_neg zero] at rounded
    exact .inr ⟨_, _, _, canonical, rfl, rounded⟩

end GridRobot.Decimal
