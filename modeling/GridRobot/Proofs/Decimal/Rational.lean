import Mathlib
import GridRobot.Proofs.Decimal.Order
import GridRobot.Proofs.Decimal.Rounding

/-!
Floating-point numbers as rationals. Infinity is taken for the least power of two that is too large for
a number, which rounding does not tell from it. Then numbers are ordered as their rationals are, a
product is the rounded product, and a product with a number that is not negative grows with the other
factor.
-/

namespace GridRobot.Decimal

open Float.Model Float.Model.UnpackedFloat

def signed : Sign → ℚ → ℚ
  | .positive, x => x
  | .negative, x => -x

def limit : ℚ :=
  2 ^ (1024 : ℤ)

def greatestExponent : ℤ :=
  971

def rational : UnpackedFloat → ℚ
  | .infinity s => signed s limit
  | .finite s m e _ => signed s (m * 2 ^ e)
  | .zero _ | .notANumber => 0

def IsCanonical : UnpackedFloat → Prop
  | .finite _ m e _ => Canonical m e ∧ e ≤ greatestExponent
  | _ => True

/-! ## Comparison -/

theorem Canonical.lt {m n : ℕ} {e f : ℤ} (left : Canonical m e) (right : Canonical n f)
    (lower : e < f) : (m : ℚ) * 2 ^ e < n * 2 ^ f := by
  have least := left.least
  have full := right.full.resolve_left (by omega)
  calc (m : ℚ) * 2 ^ e
      < 2 ^ (e + 53) := scaled_lt e left.bits
    _ ≤ 2 ^ (f + 52) := zpow_le_zpow_right₀ one_le_two (by omega)
    _ ≤ n * 2 ^ f := le_scaled f full

theorem Canonical.compare_eq {m n : ℕ} {e f : ℤ} (left : Canonical m e) (right : Canonical n f) :
    (compare e f).then (compare m n) = compare ((m : ℚ) * 2 ^ e) (n * 2 ^ f) := by
  rcases lt_trichotomy e f with lower | rfl | higher
  · rw [compare_lt_iff_lt.mpr lower, compare_lt_iff_lt.mpr (left.lt right lower)]
    rfl
  · have pos := zpow_two_pos e
    rw [compare_eq_iff_eq.mpr rfl]
    rcases lt_trichotomy m n with less | rfl | more
    · have scaled : (m : ℚ) * 2 ^ e < n * 2 ^ e := mul_lt_mul_of_pos_right (by exact_mod_cast less) pos
      rw [compare_lt_iff_lt.mpr less, compare_lt_iff_lt.mpr scaled]
      rfl
    · rw [compare_eq_iff_eq.mpr rfl, compare_eq_iff_eq.mpr rfl]
      rfl
    · have scaled : (n : ℚ) * 2 ^ e < m * 2 ^ e := mul_lt_mul_of_pos_right (by exact_mod_cast more) pos
      rw [compare_gt_iff_gt.mpr more, compare_gt_iff_gt.mpr scaled]
      rfl
  · rw [compare_gt_iff_gt.mpr higher, compare_gt_iff_gt.mpr (right.lt left higher)]
    rfl

theorem mantissa_pos {m : ℕ} (pos : 0 < m) (e : ℤ) : 0 < (m : ℚ) * 2 ^ e :=
  mul_pos (by exact_mod_cast pos) (zpow_two_pos e)

theorem Canonical.lt_limit {m : ℕ} {e : ℤ} (canonical : Canonical m e)
    (small : e ≤ greatestExponent) : (m : ℚ) * 2 ^ e < limit := by
  have small : e ≤ 971 := small
  calc (m : ℚ) * 2 ^ e
      < 2 ^ (e + 53) := scaled_lt e canonical.bits
    _ ≤ limit := zpow_le_zpow_right₀ one_le_two (by omega)

theorem limit_pos : 0 < limit :=
  zpow_two_pos _

theorem compare_neg_neg (x y : ℚ) : compare (-x) (-y) = (compare x y).swap := by
  rcases lt_trichotomy x y with less | rfl | more
  · rw [compare_lt_iff_lt.mpr less, compare_gt_iff_gt.mpr (neg_lt_neg less)]
    rfl
  · rw [compare_eq_iff_eq.mpr rfl, compare_eq_iff_eq.mpr rfl]
    rfl
  · rw [compare_gt_iff_gt.mpr more, compare_lt_iff_lt.mpr (neg_lt_neg more)]
    rfl

theorem compare_eq_some {u v : UnpackedFloat} (left : IsCanonical u) (right : IsCanonical v)
    (first : u.isNaN = false) (second : v.isNaN = false) :
    u.compare v = some (compare (rational u) (rational v)) := by
  have less {x y : ℚ} (less : x < y) : some Ordering.lt = some (compare x y) :=
    congrArg some (compare_lt_iff_lt.mpr less).symm
  have more {x y : ℚ} (more : y < x) : some Ordering.gt = some (compare x y) :=
    congrArg some (compare_gt_iff_gt.mpr more).symm
  have same (x : ℚ) : some Ordering.eq = some (compare x x) :=
    congrArg some (compare_eq_iff_eq.mpr rfl).symm
  have infinite := limit_pos
  cases u with
  | notANumber => cases first
  | infinity s =>
    cases v with
    | notANumber => cases second
    | infinity t =>
      cases s <;> cases t
      · exact same _
      · exact less (neg_lt_self infinite)
      · exact more (neg_lt_self infinite)
      · exact same _
    | zero =>
      cases s
      · exact less (neg_lt_zero.mpr infinite)
      · exact more infinite
    | finite t n f pos =>
      have bounds := And.intro (mantissa_pos pos f) (right.1.lt_limit right.2)
      cases s <;> cases t
      · exact less (neg_lt_neg bounds.2)
      · exact less (by simp only [rational, signed]; linarith)
      · exact more (by simp only [rational, signed]; linarith)
      · exact more bounds.2
  | zero s =>
    cases v with
    | notANumber => cases second
    | infinity t =>
      cases t
      · exact more (neg_lt_zero.mpr infinite)
      · exact less infinite
    | zero => exact same 0
    | finite t n f pos =>
      cases t
      · exact more (neg_lt_zero.mpr (mantissa_pos pos f))
      · exact less (mantissa_pos pos f)
  | finite s m e pos =>
    have bounds := And.intro (mantissa_pos pos e) (left.1.lt_limit left.2)
    cases v with
    | notANumber => cases second
    | infinity t =>
      cases s <;> cases t
      · exact more (neg_lt_neg bounds.2)
      · exact less (by simp only [rational, signed]; linarith)
      · exact more (by simp only [rational, signed]; linarith)
      · exact less bounds.2
    | zero =>
      cases s
      · exact less (neg_lt_zero.mpr bounds.1)
      · exact more bounds.1
    | finite t n f pos' =>
      have bounds' := mantissa_pos pos' f
      cases s <;> cases t
      · simp only [rational, signed, compare_neg_neg, ← left.1.compare_eq right.1]
        rfl
      · exact less (by simp only [rational, signed]; linarith)
      · exact more (by simp only [rational, signed]; linarith)
      · exact congrArg some (left.1.compare_eq right.1)

/-! ## Packing -/

theorem toNat_implicit (mantissa : BitVec 52) : (1#1 ++ mantissa).toNat = 2 ^ 52 + mantissa.toNat := by
  rw [BitVec.toNat_append, ← Nat.shiftLeft_add_eq_or_of_lt mantissa.isLt]
  rfl

theorem canonical_normal {m n : ℕ} (bits : m < 2 ^ 52) (pos : 1 ≤ n) (below : n ≤ 2046) :
    Canonical (2 ^ 52 + m) (n - 1075) ∧ (n : ℤ) - 1075 ≤ greatestExponent :=
  ⟨⟨by omega, by rw [leastExponent]; omega, .inr (by omega)⟩, by rw [greatestExponent]; omega⟩

theorem isCanonical_unpack (b : BitVec 64) : IsCanonical (UnpackedFloat.unpack .binary64 b) := by
  have bits := (@UnpackedFloat.unpackMantissa .binary64 b).isLt
  unfold UnpackedFloat.unpack
  dsimp only
  by_cases top : @UnpackedFloat.unpackExponent .binary64 b = -1#11
  · rw [if_pos top]
    split <;> trivial
  rw [if_neg top]
  by_cases bottom : @UnpackedFloat.unpackExponent .binary64 b = 0#11
  · rw [if_pos bottom]
    split
    · trivial
    · simp only [bottom]
      exact ⟨⟨Nat.lt_trans bits (by decide), le_rfl, .inl rfl⟩, by decide⟩
  · rw [if_neg bottom]
    have range := (@UnpackedFloat.unpackExponent .binary64 b).isLt
    have below : (@UnpackedFloat.unpackExponent .binary64 b).toNat ≠ 2047 :=
      fun full => top (BitVec.eq_of_toNat_eq full)
    have above : (@UnpackedFloat.unpackExponent .binary64 b).toNat ≠ 0 :=
      fun none => bottom (BitVec.eq_of_toNat_eq none)
    change _ < 2 ^ 11 at range
    have normal := canonical_normal bits (Nat.pos_of_ne_zero above) (by omega)
    rw [← toNat_implicit] at normal
    exact normal

theorem unpack_normal (s : Sign) {exponent : BitVec 11} (mantissa : BitVec 52)
    (top : exponent ≠ -1#11) (bottom : exponent ≠ 0#11) :
    UnpackedFloat.unpack .binary64 (packComponents .binary64 s exponent mantissa) =
      .finite s (2 ^ 52 + mantissa.toNat) (exponent.toNat - 1075) (by omega) := by
  unfold UnpackedFloat.unpack
  simp only [unpackMantissa_packComponents, unpackExponent_packComponents,
    unpackSign_packComponents, Sign.ofBitVec_toBitVec, if_neg top, if_neg bottom, toNat_implicit]
  rfl

theorem unpack_subnormal (s : Sign) {mantissa : BitVec 52} (pos : 0 < mantissa.toNat) :
    UnpackedFloat.unpack .binary64 (packComponents .binary64 s 0#11 mantissa) =
      .finite s mantissa.toNat leastExponent pos := by
  have some : mantissa ≠ 0#52 := by
    rintro rfl
    cases pos
  unfold UnpackedFloat.unpack
  simp only [unpackMantissa_packComponents, unpackExponent_packComponents,
    unpackSign_packComponents, Sign.ofBitVec_toBitVec, dif_neg some]
  rfl

theorem unpack_infinity (s : Sign) :
    UnpackedFloat.unpack .binary64 (UnpackedFloat.packedInfinity .binary64 s) = .infinity s := by
  cases s <;> rfl

theorem biased_eq (e : ℤ) :
    (e + Format.binary64.exponentBias + Format.binary64.mantissaBitsWithoutImplicit).toNat =
      (e + 1075).toNat := by
  congr 1
  change e + 1023 + 52 = e + 1075
  ring

section Pack

variable (s : Sign) {m : ℕ} {e : ℤ} (pos : 0 < m)

theorem pack_large (large : greatestExponent < e) :
    UnpackedFloat.pack .binary64 (.finite s m e pos) = packedInfinity .binary64 s := by
  have large : 971 < e := large
  unfold UnpackedFloat.pack
  dsimp only
  rw [biased_eq, if_pos (by omega)]

variable (canonical : Canonical m e) (small : e ≤ greatestExponent)

include canonical small

theorem pack_small :
    UnpackedFloat.pack .binary64 (.finite s m e pos) =
      if 2 ^ 52 ≤ m then
        packComponents .binary64 s (BitVec.ofNat 11 (e + 1075).toNat) (BitVec.ofNat 52 m)
      else packComponents .binary64 s 0#11 (BitVec.ofNat 52 m) := by
  have least : -1074 ≤ e := canonical.least
  have small : e ≤ 971 := small
  have log : m.log2 + 1 = Format.binary64.mantissaBits ↔ 2 ^ 52 ≤ m := by
    change m.log2 + 1 = 53 ↔ _
    rw [← Nat.le_log2 pos.ne']
    have most := canonical.log2_le
    omega
  unfold UnpackedFloat.pack
  dsimp only
  rw [biased_eq, if_neg (by omega)]
  simp only [log]

theorem unpack_pack_small :
    UnpackedFloat.unpack .binary64 (UnpackedFloat.pack .binary64 (.finite s m e pos)) =
      .finite s m e pos := by
  have least : -1074 ≤ e := canonical.least
  have bits := canonical.bits
  rw [pack_small s pos canonical small]
  have small : e ≤ 971 := small
  by_cases full : 2 ^ 52 ≤ m
  · have exponent : (BitVec.ofNat 11 (e + 1075).toNat).toNat = (e + 1075).toNat :=
      Nat.mod_eq_of_lt (by omega)
    have top : BitVec.ofNat 11 (e + 1075).toNat ≠ -1#11 := by
      intro top
      rw [top] at exponent
      change 2047 = _ at exponent
      omega
    have bottom : BitVec.ofNat 11 (e + 1075).toNat ≠ 0#11 := by
      intro bottom
      rw [bottom] at exponent
      change 0 = _ at exponent
      omega
    have mantissa : 2 ^ 52 + (BitVec.ofNat 52 m).toNat = m := by
      rw [BitVec.toNat_ofNat]
      omega
    rw [if_pos full, unpack_normal s _ top bottom]
    simp only [mantissa, exponent, finite.injEq, true_and]
    omega
  · have mantissa : (BitVec.ofNat 52 m).toNat = m := Nat.mod_eq_of_lt (by omega)
    have bottom : e = leastExponent := canonical.full.resolve_right full
    rw [if_neg full, unpack_subnormal s (by rw [mantissa]; exact pos)]
    simp only [mantissa, bottom]

end Pack

theorem Canonical.limit_le {m : ℕ} {e : ℤ} (canonical : Canonical m e)
    (large : greatestExponent < e) : limit ≤ m * 2 ^ e := by
  have large : 971 < e := large
  have full := canonical.full.resolve_left (by rw [leastExponent]; omega)
  calc limit
      ≤ 2 ^ (e + 52) := zpow_le_zpow_right₀ one_le_two (by omega)
    _ ≤ m * 2 ^ e := le_scaled e full

theorem unpack_pack (u : UnpackedFloat) :
    (Float.Model.pack u).unpack = UnpackedFloat.unpack .binary64 (UnpackedFloat.pack .binary64 u) :=
  rfl

theorem rational_pack (s : Sign) {m : ℕ} {e : ℤ} (pos : 0 < m) (canonical : Canonical m e) :
    (Float.Model.pack (.finite s m e pos)).unpack.isNaN = false ∧
      rational (Float.Model.pack (.finite s m e pos)).unpack = signed s (min (m * 2 ^ e) limit) := by
  rw [unpack_pack]
  rcases le_or_gt e greatestExponent with small | large
  · rw [unpack_pack_small s pos canonical small, min_eq_left (canonical.lt_limit small).le]
    exact ⟨rfl, rfl⟩
  · rw [pack_large s pos large, unpack_infinity, min_eq_right (canonical.limit_le large)]
    exact ⟨rfl, rfl⟩

theorem rational_pack_round (s : Sign) {m : ℕ} (pos : 0 < m) {e : ℤ} (finer : e ≤ target m e) :
    ∃ r, RoundsTo (m * 2 ^ e) r ∧
      let u := (Float.Model.pack (roundWithAccuracy .binary64 s m e .exact)).unpack
      u.isNaN = false ∧ rational u = signed s (min r limit) := by
  obtain ⟨r, rounds, shape⟩ := roundWithAccuracy_cases s pos finer
  refine ⟨r, rounds, ?_⟩
  rcases shape with ⟨rfl, zero⟩ | ⟨n, t, pos', canonical, rfl, finite⟩
  · rw [zero, min_eq_left limit_pos.le]
    cases s <;> exact ⟨rfl, rfl⟩
  · rw [finite]
    exact rational_pack s pos' canonical

/-! ## Floating-point numbers -/

def value (x : Float) : ℚ :=
  rational x.toModel.unpack

theorem isCanonical (x : Float) : IsCanonical x.toModel.unpack :=
  isCanonical_unpack _

theorem compare_eq_none {u v : UnpackedFloat} (none : ¬ (u.isNaN = false ∧ v.isNaN = false)) :
    u.compare v = Option.none := by
  cases u with
  | notANumber => rfl
  | infinity | zero | finite =>
    cases v with
    | notANumber => rfl
    | infinity | zero | finite => exact absurd ⟨rfl, rfl⟩ none

theorem lt_iff {x y : Float} : x < y ↔ (x.isNaN = false ∧ y.isNaN = false) ∧ value x < value y := by
  have unpacked : x < y ↔ x.toModel.unpack.compare y.toModel.unpack = some .lt :=
    ⟨fun lt => eq_of_beq (of_decide_eq_true lt), fun lt => decide_eq_true (beq_iff_eq.mpr lt)⟩
  rw [unpacked]
  by_cases numbers : x.isNaN = false ∧ y.isNaN = false
  · rw [compare_eq_some (isCanonical x) (isCanonical y) numbers.1 numbers.2,
      Option.some.injEq, compare_lt_iff_lt]
    exact (and_iff_right numbers).symm
  · rw [compare_eq_none numbers]
    exact iff_of_false nofun fun both => numbers both.1

theorem le_iff {x y : Float} : x ≤ y ↔ (x.isNaN = false ∧ y.isNaN = false) ∧ value x ≤ value y := by
  have unpacked : x ≤ y ↔ (x.toModel.unpack.compare y.toModel.unpack).any (·.isLE) = true :=
    ⟨of_decide_eq_true, decide_eq_true⟩
  rw [unpacked]
  by_cases numbers : x.isNaN = false ∧ y.isNaN = false
  · rw [compare_eq_some (isCanonical x) (isCanonical y) numbers.1 numbers.2,
      Option.any_some, ← compare_le_iff_le, Ordering.isLE_iff_ne_gt]
    exact (and_iff_right numbers).symm
  · rw [compare_eq_none numbers]
    exact iff_of_false nofun fun both => numbers both.1

theorem lt_of_lt_of_le {x y z : Float} (lt : x < y) (le : y ≤ z) : x < z := by
  rw [lt_iff] at lt ⊢
  rw [le_iff] at le
  exact ⟨⟨lt.1.1, le.1.2⟩, lt.2.trans_le le.2⟩

/-! ## Products -/

theorem signed_signed (s : Sign) (x : ℚ) : signed s (signed s x) = x := by
  cases s <;> simp [signed]

theorem finer_mul {m n : ℕ} {e f : ℤ} (left : Canonical m e) (right : Canonical n f) (pos : 0 < m)
    (pos' : 0 < n) : e + f ≤ target (m * n) (e + f) := by
  rw [target_eq]
  -- both exponents can be the least one, else a factor has all its bits
  rcases left.full with bottom | full
  · rcases right.full with bottom' | full
    · have negative := leastExponent_le_zero
      omega
    · have bits := le_log2 (full.trans (Nat.le_mul_of_pos_left n pos))
      omega
  · have bits := le_log2 (full.trans (Nat.le_mul_of_pos_right m pos'))
    omega

theorem rational_mul_finite {m n : ℕ} {e f : ℤ} (left : Canonical m e) (right : Canonical n f)
    (s t : Sign) (pos : 0 < m) (pos' : 0 < n) :
    ∃ r, RoundsTo (m * 2 ^ e * (n * 2 ^ f)) r ∧
      let u := (Float.Model.pack
        ((finite s m e pos).mul .binary64 (finite t n f pos'))).unpack
      u.isNaN = false ∧ rational u = signed (s * t) (min r limit) := by
  have whole : (m : ℚ) * 2 ^ e * (n * 2 ^ f) = (m * n : ℕ) * 2 ^ (e + f) := by
    rw [zpow_add₀ two_ne_zero]
    push_cast
    ring
  rw [whole]
  exact rational_pack_round (s * t) (Nat.mul_pos pos pos') (finer_mul left right pos pos')

theorem unpack_pack_infinity (s : Sign) :
    (Float.Model.pack (.infinity s)).unpack = .infinity s := by
  cases s <;> rfl

theorem RoundsTo.nonneg {x r : ℚ} (rounds : RoundsTo x r) : 0 ≤ r := by
  obtain ⟨t, n, -, -, rfl⟩ := rounds
  exact mul_nonneg n.cast_nonneg (zpow_two_pos t).le

theorem rational_mul_cases {u v : UnpackedFloat} (left : IsCanonical u) (right : IsCanonical v) :
    let w := (Float.Model.pack (u.mul .binary64 v)).unpack
    rational w = 0 ∨ ∃ s t r, 0 ≤ r ∧ rational w = signed (s * t) r ∧
      0 < signed s (rational u) ∧ 0 < signed t (rational v) := by
  have infinite (s : Sign) : 0 < signed s (rational (.infinity s)) := by
    rw [rational, signed_signed]
    exact limit_pos
  have proper (s : Sign) {m : ℕ} (pos : 0 < m) (e : ℤ) :
      0 < signed s (rational (.finite s m e pos)) := by
    rw [rational, signed_signed]
    exact mantissa_pos pos e
  have none : rational (Float.Model.pack .notANumber).unpack = 0 := rfl
  have null (s : Sign) : rational (Float.Model.pack (.zero s)).unpack = 0 := by
    cases s <;> rfl
  have overflow (s : Sign) : rational (Float.Model.pack (.infinity s)).unpack = signed s limit :=
    congrArg rational (unpack_pack_infinity s)
  cases u with
  | notANumber => exact .inl none
  | zero s =>
    cases v with
    | notANumber | infinity => exact .inl none
    | zero t | finite t => exact .inl (null (s * t))
  | infinity s =>
    cases v with
    | notANumber | zero => exact .inl none
    | infinity t => exact .inr ⟨s, t, limit, limit_pos.le, overflow _, infinite s, infinite t⟩
    | finite t n f pos => exact .inr ⟨s, t, limit, limit_pos.le, overflow _, infinite s, proper t pos f⟩
  | finite s m e pos =>
    cases v with
    | notANumber => exact .inl none
    | zero t => exact .inl (null (s * t))
    | infinity t => exact .inr ⟨s, t, limit, limit_pos.le, overflow _, proper s pos e, infinite t⟩
    | finite t n f pos' =>
      obtain ⟨r, rounds, -, product⟩ := rational_mul_finite left.1 right.1 s t pos pos'
      exact .inr ⟨s, t, _, le_min rounds.nonneg limit_pos.le, product, proper s pos e,
        proper t pos' f⟩

theorem pos_of_mul {x z : Float} (pos : 0 < value (x * z)) (nonneg : 0 ≤ value z) :
    0 < value x ∧ 0 < value z := by
  rcases rational_mul_cases (isCanonical x) (isCanonical z) with
    zero | ⟨s, t, r, size, sign, first, second⟩
  · exact absurd zero pos.ne'
  · have sign : value (x * z) = signed (s * t) r := sign
    rw [sign] at pos
    cases t with
    | negative => exact absurd nonneg (not_le.mpr (neg_pos.mp second))
    | positive =>
      cases s with
      | negative => exact absurd size (not_le.mpr (neg_pos.mp pos))
      | positive => exact ⟨first, second⟩

theorem le_limit {u : UnpackedFloat} (canonical : IsCanonical u) : rational u ≤ limit := by
  have negative {x : ℚ} (pos : 0 < x) : -x ≤ limit :=
    (neg_neg_of_pos pos).le.trans limit_pos.le
  cases u with
  | notANumber | zero => exact limit_pos.le
  | infinity s =>
    cases s with
    | positive => exact le_rfl
    | negative => exact negative limit_pos
  | finite s m e pos =>
    cases s with
    | positive => exact (canonical.1.lt_limit canonical.2).le
    | negative => exact negative (mantissa_pos pos e)

theorem cases_of_pos {u : UnpackedFloat} (pos : 0 < rational u) :
    u = .infinity .positive ∨ ∃ m e pos, u = .finite .positive m e pos := by
  cases u with
  | notANumber | zero => exact absurd pos (lt_irrefl 0)
  | infinity s =>
    cases s with
    | positive => exact .inl rfl
    | negative => exact absurd pos (neg_neg_of_pos limit_pos).not_gt
  | finite s m e pos' =>
    cases s with
    | positive => exact .inr ⟨m, e, pos', rfl⟩
    | negative => exact absurd pos (neg_neg_of_pos (mantissa_pos pos' e)).not_gt

theorem mul_infinite {u v : UnpackedFloat} (pos : 0 < rational u) (pos' : 0 < rational v)
    (infinite : u = .infinity .positive ∨ v = .infinity .positive) :
    u.mul .binary64 v = .infinity .positive := by
  rcases infinite with rfl | rfl
  · rcases cases_of_pos pos' with rfl | ⟨n, f, pos', rfl⟩ <;> rfl
  · rcases cases_of_pos pos with rfl | ⟨m, e, pos, rfl⟩ <;> rfl

theorem rational_mul_mono {u v w : UnpackedFloat} (first : IsCanonical u) (second : IsCanonical v)
    (third : IsCanonical w) (posu : 0 < rational u) (posv : 0 < rational v) (posw : 0 < rational w)
    (le : rational u ≤ rational v) :
    (Float.Model.pack (v.mul .binary64 w)).unpack.isNaN = false ∧
      rational (Float.Model.pack (u.mul .binary64 w)).unpack ≤
        rational (Float.Model.pack (v.mul .binary64 w)).unpack := by
  by_cases infinite : v = .infinity .positive ∨ w = .infinity .positive
  · rw [mul_infinite posv posw infinite, unpack_pack_infinity]
    exact ⟨rfl, le_limit (isCanonical_unpack _)⟩
  obtain ⟨n, f, posn, rfl⟩ := (cases_of_pos posv).resolve_left fun top => infinite (.inl top)
  obtain ⟨k, g, posk, rfl⟩ := (cases_of_pos posw).resolve_left fun top => infinite (.inr top)
  rcases cases_of_pos posu with rfl | ⟨m, e, posm, rfl⟩
  · exact absurd le (not_le.mpr (second.1.lt_limit second.2))
  · obtain ⟨r, rounds, -, product⟩ := rational_mul_finite first.1 third.1 .positive .positive posm posk
    obtain ⟨r', rounds', number, product'⟩ :=
      rational_mul_finite second.1 third.1 .positive .positive posn posk
    refine ⟨number, ?_⟩
    rw [product, product']
    exact min_le_min_right _ (rounds.mono rounds' (mul_le_mul_of_nonneg_right le posw.le))

theorem lt_mul_of_le {k x y z : Float} (bound : 0 ≤ value k) (nonneg : 0 ≤ value z) (le : x ≤ y)
    (lt : k < x * z) : k < y * z := by
  rw [lt_iff] at lt ⊢
  have grows := (le_iff.mp le).2
  obtain ⟨posx, posz⟩ := pos_of_mul (bound.trans_lt lt.2) nonneg
  obtain ⟨number, more⟩ := rational_mul_mono (isCanonical x) (isCanonical y) (isCanonical z) posx
    (posx.trans_le grows) posz grows
  exact ⟨⟨lt.1.1, number⟩, lt.2.trans_le more⟩

/-! ## Whole numbers -/

theorem RoundsTo.exact {m : ℕ} {e : ℤ} (pos : 0 < m) (bits : m < 2 ^ 53) (least : leastExponent ≤ e) :
    RoundsTo (m * 2 ^ e) (m * 2 ^ e) := by
  have finer : target m e ≤ e := by
    have small : m.log2 < 53 := (Nat.log2_lt pos.ne').mpr bits
    rw [target_eq]
    omega
  have whole : (m : ℚ) * 2 ^ e = (m * 2 ^ (e - target m e).toNat : ℕ) * 2 ^ target m e := by
    push_cast
    rw [mul_assoc, ← zpow_natCast, ← zpow_add₀ two_ne_zero]
    congr 2
    omega
  refine ⟨target m e, _, spacing_target pos e, ?_, whole⟩
  rw [whole, mul_div_cancel_right₀ _ (zpow_two_pos _).ne']
  exact nearest_cast _

theorem RoundsTo.unique {x r s : ℚ} (left : RoundsTo x r) (right : RoundsTo x s) : r = s :=
  le_antisymm (left.mono right le_rfl) (right.mono left le_rfl)

theorem roundsTo_cast {n : ℕ} (small : n < 2 ^ 53) : RoundsTo n n := by
  rcases Nat.eq_zero_or_pos n with rfl | pos
  · refine ⟨leastExponent, 0, ⟨le_rfl, by push_cast; exact zpow_two_pos _, .inl rfl⟩, ?_, by simp⟩
    rw [Nat.cast_zero, zero_div]
    exact nearest_cast 0
  · have exact := RoundsTo.exact pos small leastExponent_le_zero
    rwa [zpow_zero, mul_one] at exact

theorem roundWithAccuracy_canonical (s : Sign) {m : ℕ} {e : ℤ} (pos : 0 < m)
    (canonical : Canonical m e) :
    ∃ n t pos', roundWithAccuracy .binary64 s m e .exact = .finite s n t pos' ∧ Canonical n t ∧
      (n : ℚ) * 2 ^ t = m * 2 ^ e := by
  obtain ⟨r, rounds, shape⟩ := roundWithAccuracy_cases s pos canonical.target.ge
  have same := rounds.unique (.exact pos canonical.bits canonical.least)
  rcases shape with ⟨zero, -⟩ | ⟨n, t, pos', canonical, whole, finite⟩
  · exact absurd (same.symm.trans zero) (mantissa_pos pos e).ne'
  · exact ⟨n, t, pos', finite, canonical, whole.symm.trans same⟩

theorem canonical_shifted {n : ℕ} (pos : 0 < n) (small : n < 2 ^ 53) :
    Canonical (n <<< (0 - target n 0).toNat) (0 - (0 - target n 0).toNat) := by
  have bits : n.log2 < 53 := (Nat.log2_lt pos.ne').mpr small
  have shift : target n 0 = (n.log2 : ℤ) - 52 := by
    rw [target_eq, leastExponent]
    omega
  have amount : (0 - target n 0).toNat = 52 - n.log2 := by
    omega
  rw [amount, Nat.shiftLeft_eq]
  refine ⟨?_, by rw [leastExponent]; omega, .inr ?_⟩
  · calc n * 2 ^ (52 - n.log2)
        < 2 ^ (n.log2 + 1) * 2 ^ (52 - n.log2) :=
          Nat.mul_lt_mul_of_pos_right Nat.lt_log2_self (Nat.two_pow_pos _)
      _ = 2 ^ 53 := by
        rw [← pow_add]
        congr 1
        omega
  · calc 2 ^ 52
        = 2 ^ n.log2 * 2 ^ (52 - n.log2) := by
          rw [← pow_add]
          congr 1
          omega
      _ ≤ n * 2 ^ (52 - n.log2) := Nat.mul_le_mul_right _ (Nat.log2_self_le pos.ne')

theorem shiftLeft_scaled (n k : ℕ) : ((n <<< k : ℕ) : ℚ) * 2 ^ ((0 : ℤ) - k) = n := by
  rw [Nat.shiftLeft_eq]
  push_cast
  rw [mul_assoc, ← zpow_natCast, ← zpow_add₀ two_ne_zero]
  simp

theorem unpack_toUInt64 {n : ℕ} (pos : 0 < n) (small : n < 2 ^ 53) :
    ∃ m e pos', (Nat.toUInt64 n).toFloat.toModel.unpack = .finite .positive m e pos' ∧
      Canonical m e ∧ (m : ℚ) * 2 ^ e = n := by
  have kept : (Nat.toUInt64 n).toNat = n := Nat.mod_eq_of_lt (by omega)
  have above : compare (n : ℤ) 0 = .gt := compare_gt_iff_gt.mpr (by exact_mod_cast pos)
  have rounded : UnpackedFloat.ofNat .binary64 n =
      roundWithAccuracy .binary64 .positive (n <<< (0 - target n 0).toNat)
        (0 - (0 - target n 0).toNat) .exact := by
    unfold UnpackedFloat.ofNat UnpackedFloat.ofInt UnpackedFloat.normalize
    rw [above]
    rfl
  have shifted : 0 < n <<< (0 - target n 0).toNat := by
    rw [Nat.shiftLeft_eq]
    exact Nat.mul_pos pos (Nat.two_pow_pos _)
  obtain ⟨m, e, pos', exact, canonical, same⟩ :=
    roundWithAccuracy_canonical .positive shifted (canonical_shifted pos small)
  have whole : (m : ℚ) * 2 ^ e = n := same.trans (shiftLeft_scaled n _)
  have below : e ≤ greatestExponent := by
    by_contra large
    have beyond := canonical.limit_le (not_le.mp large)
    rw [whole] at beyond
    have small : (n : ℚ) < 2 ^ (53 : ℤ) := by exact_mod_cast small
    have less : (2 : ℚ) ^ (53 : ℤ) ≤ limit := zpow_le_zpow_right₀ one_le_two (by decide)
    exact absurd (small.trans_le less) (not_lt.mpr beyond)
  refine ⟨m, e, pos', ?_, canonical, whole⟩
  change (Float.Model.pack (UnpackedFloat.ofNat .binary64 (Nat.toUInt64 n).toNat)).unpack = _
  rw [kept, rounded, exact, unpack_pack, unpack_pack_small _ pos' canonical below]

theorem ofScientific_eq {n : ℕ} (pos : 0 < n) :
    UnpackedFloat.ofScientific .binary64 n 0 =
      roundWithAccuracy .binary64 .positive (n <<< 53 * 1) (-53 : ℤ) .exact := by
  have range : ¬ (0 : ℤ) < -((2 ^ 11 : ℤ) + n.log2) := by omega
  unfold UnpackedFloat.ofScientific
  rw [dif_neg pos.ne', if_neg (by decide), if_neg range, if_pos le_rfl]
  rfl

theorem value_ofNat (n : ℕ) :
    ∃ r, RoundsTo n r ∧ (Float.ofNat n).isNaN = false ∧ value (Float.ofNat n) = min r limit := by
  change ∃ r, RoundsTo n r ∧ (Float.ofScientific n false 0).isNaN = false ∧
    value (Float.ofScientific n false 0) = min r limit
  rcases Nat.eq_zero_or_pos n with rfl | pos
  · exact ⟨0, roundsTo_cast (by decide), rfl, (min_eq_left limit_pos.le).symm⟩
  unfold Float.ofScientific
  by_cases small : n < 2 ^ 53
  · rw [dif_pos ⟨small, Nat.zero_le _⟩]
    dsimp only
    rw [if_neg Bool.false_ne_true]
    have one : Float.exactlyRepresentablePowersOfTen[0].toModel.unpack =
        .finite .positive (2 ^ 52) (-52) (by decide) := rfl
    obtain ⟨m, e, pos', read, canonical, same⟩ := unpack_toUInt64 pos small
    have unit : Canonical (2 ^ 52) (-52) := ⟨by decide, by decide, .inr le_rfl⟩
    obtain ⟨r, rounds, product⟩ :=
      rational_mul_finite canonical unit .positive .positive pos' (by decide)
    have scaled : ((2 ^ 52 : ℕ) : ℚ) * 2 ^ (-52 : ℤ) = 1 := by norm_num
    rw [same, scaled, mul_one] at rounds
    rw [← read, ← one] at product
    exact ⟨r, rounds, product⟩
  · rw [dif_neg fun both => small both.1]
    have positive : 0 < n <<< 53 * 1 := by
      rw [Nat.shiftLeft_eq]
      omega
    have finer : (-53 : ℤ) ≤ target (n <<< 53 * 1) (-53) := by
      have bits := le_log2 (m := n <<< 53 * 1) (by rw [Nat.shiftLeft_eq]; omega)
      rw [target_eq, leastExponent]
      omega
    obtain ⟨r, rounds, rounded⟩ := rational_pack_round .positive positive finer
    rw [mul_one] at rounds
    have whole := shiftLeft_scaled n 53
    rw [show (0 : ℤ) - (53 : ℕ) = -53 from rfl] at whole
    rw [whole] at rounds
    rw [← ofScientific_eq (by omega)] at rounded
    exact ⟨r, rounds, rounded⟩

theorem nonneg_ofNat (n : ℕ) : 0 ≤ value (Float.ofNat n) := by
  obtain ⟨r, rounds, -, same⟩ := value_ofNat n
  rw [same]
  exact le_min rounds.nonneg limit_pos.le

theorem ofNat_lt_ofNat {m n : ℕ} (less : m < n) (small : m < 2 ^ 53) :
    Float.ofNat m < Float.ofNat n := by
  obtain ⟨r, rounds, number, same⟩ := value_ofNat m
  obtain ⟨s, rounds', number', same'⟩ := value_ofNat n
  have exact := rounds.unique (roundsTo_cast small)
  subst exact
  -- the next number is exact as well, or the power of two that follows the last one with 53 bits
  have next : RoundsTo (m + 1 : ℕ) (m + 1 : ℕ) := by
    rcases (Nat.succ_le_of_lt small).eq_or_lt with top | below
    · have power := RoundsTo.exact (m := 1) (e := 53) one_pos (by decide) (by decide)
      have whole : ((1 : ℕ) : ℚ) * 2 ^ (53 : ℤ) = (m + 1 : ℕ) := by
        rw [show m + 1 = 2 ^ 53 from top]
        norm_num
      rwa [whole] at power
    · exact roundsTo_cast below
  have above : ((m + 1 : ℕ) : ℚ) ≤ s := next.mono rounds' (by exact_mod_cast less)
  have finite : ((m + 1 : ℕ) : ℚ) ≤ limit := by
    have bits : ((m + 1 : ℕ) : ℚ) ≤ 2 ^ (53 : ℤ) := by exact_mod_cast Nat.succ_le_of_lt small
    exact bits.trans (zpow_le_zpow_right₀ one_le_two (by decide))
  rw [lt_iff, same, same']
  refine ⟨⟨number, number'⟩, ?_⟩
  calc min (m : ℚ) limit
      ≤ m := min_le_left _ _
    _ < (m + 1 : ℕ) := by exact_mod_cast Nat.lt_succ_self m
    _ ≤ min s limit := le_min above finite

end GridRobot.Decimal
