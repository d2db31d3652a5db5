namespace GridRobot.Decimal

open Float.Model

/-! ## Comparison -/

theorem exists_compare {a b : UnpackedFloat} (first : a.isNaN = false) (second : b.isNaN = false) :
    ∃ o, a.compare b = some o ∧ b.compare a = some o.swap := by
  cases a with
  | notANumber => cases first
  | infinity s =>
    cases b with
    | notANumber => cases second
    | infinity t => cases s <;> cases t <;> exact ⟨_, rfl, rfl⟩
    | zero | finite => cases s <;> exact ⟨_, rfl, rfl⟩
  | zero s =>
    cases b with
    | notANumber => cases second
    | zero t => exact ⟨_, rfl, rfl⟩
    | infinity t | finite t => cases t <;> exact ⟨_, rfl, rfl⟩
  | finite s m e =>
    cases b with
    | notANumber => cases second
    | infinity t => cases s <;> cases t <;> exact ⟨_, rfl, rfl⟩
    | zero => cases s <;> exact ⟨_, rfl, rfl⟩
    | finite t n f =>
      have turned : ((compare e f).then (compare m n)).swap = (compare f e).then (compare n m) := by
        rw [Ordering.swap_then, ← Std.OrientedOrd.eq_swap, ← Std.OrientedOrd.eq_swap]
      cases s <;> cases t
      · exact ⟨_, rfl, congrArg (fun o : Ordering => some o.swap) turned.symm⟩
      · exact ⟨_, rfl, rfl⟩
      · exact ⟨_, rfl, rfl⟩
      · exact ⟨_, rfl, congrArg some turned.symm⟩

theorem le_of_not_lt {a b : Float} (first : a.isNaN = false) (second : b.isNaN = false)
    (not_lt : ¬ a < b) : b ≤ a := by
  obtain ⟨o, forward, backward⟩ := exists_compare first second
  have greater : o ≠ .lt := by
    rintro rfl
    apply not_lt
    change decide (UnpackedFloat.lt _ _ = true) = true
    simp [UnpackedFloat.lt, forward]
  change decide (UnpackedFloat.le _ _ = true) = true
  rw [decide_eq_true_eq, UnpackedFloat.le, backward]
  cases o with
  | lt => exact absurd rfl greater
  | eq | gt => rfl

theorem not_le_of_isNaN {a b : Float} (none : a.isNaN = true) : ¬ a ≤ b := by
  intro le
  have le : UnpackedFloat.le a.toModel.unpack b.toModel.unpack = true := of_decide_eq_true le
  change a.toModel.unpack.isNaN = true at none
  generalize a.toModel.unpack = u at none le
  cases u with
  | notANumber => cases le
  | infinity | zero | finite => cases none

theorem not_lt_of_le {a b : Float} (le : b ≤ a) : ¬ a < b := by
  intro lt
  have le : UnpackedFloat.le b.toModel.unpack a.toModel.unpack = true := of_decide_eq_true le
  have lt : UnpackedFloat.lt a.toModel.unpack b.toModel.unpack = true := of_decide_eq_true lt
  generalize a.toModel.unpack = u at le lt
  generalize b.toModel.unpack = v at le lt
  have first : u.isNaN = false := by cases u <;> first | rfl | cases lt
  have second : v.isNaN = false := by cases v <;> first | rfl | cases le
  obtain ⟨o, forward, backward⟩ := exists_compare first second
  rw [UnpackedFloat.lt, forward] at lt
  rw [UnpackedFloat.le, backward] at le
  cases o with
  | lt => cases le
  | eq | gt => cases lt

/-! ## Products and quotients -/

theorem isNaN_unpack {b : BitVec 64}
    (number : @UnpackedFloat.unpackExponent .binary64 b = -1#11 →
      @UnpackedFloat.unpackMantissa .binary64 b = 0#52) :
    (UnpackedFloat.unpack .binary64 b).isNaN = false := by
  unfold UnpackedFloat.unpack
  by_cases top : @UnpackedFloat.unpackExponent .binary64 b = -1#11
  · rw [if_pos top, if_pos (number top)]
    rfl
  rw [if_neg top]
  by_cases bottom : @UnpackedFloat.unpackExponent .binary64 b = 0#11
  · rw [if_pos bottom]
    by_cases zero : @UnpackedFloat.unpackMantissa .binary64 b = 0#52
    · rw [dif_pos zero]
      rfl
    · rw [dif_neg zero]
      rfl
  · rw [if_neg bottom]
    rfl

theorem isNaN_unpack_packComponents {sign : UnpackedFloat.Sign} {exponent : BitVec 11}
    {mantissa : BitVec 52} (number : exponent = -1#11 → mantissa = 0#52) :
    (UnpackedFloat.unpack .binary64
      (UnpackedFloat.packComponents .binary64 sign exponent mantissa)).isNaN = false := by
  apply isNaN_unpack
  rw [UnpackedFloat.unpackExponent_packComponents, UnpackedFloat.unpackMantissa_packComponents]
  exact number

theorem isNaN_pack {u : UnpackedFloat} (number : u.isNaN = false) :
    (pack u).isNaN = false := by
  change (UnpackedFloat.unpack .binary64 (UnpackedFloat.pack .binary64 u)).isNaN = false
  cases u with
  | notANumber => cases number
  | infinity s => exact isNaN_unpack_packComponents fun _ => rfl
  | zero s => exact isNaN_unpack_packComponents fun _ => rfl
  | finite s m e positive =>
    unfold UnpackedFloat.pack
    dsimp only
    split
    · exact isNaN_unpack_packComponents fun _ => rfl
    · rename_i small
      split
      · apply isNaN_unpack_packComponents
        intro top
        have top := congrArg BitVec.toNat top
        rw [BitVec.toNat_ofNat] at top
        change ¬ 2 ^ 11 ≤ _ at small
        change _ % 2 ^ 11 = 2 ^ 11 - 1 at top
        omega
      · exact isNaN_unpack_packComponents fun top => by cases top

theorem isNaN_roundWithAccuracy (sign : UnpackedFloat.Sign) (m : Nat) (e : Int)
    (accuracy : UnpackedFloat.Accuracy) :
    (UnpackedFloat.roundWithAccuracy .binary64 sign m e accuracy).isNaN = false := by
  have number (n : Nat) (e : Int) :
      (if h : n = 0 then UnpackedFloat.zero sign
        else .finite sign n e (Nat.pos_of_ne_zero h)).isNaN = false := by
    by_cases zero : n = 0
    · rw [dif_pos zero]
      rfl
    · rw [dif_neg zero]
      rfl
  exact number _ _

def isProper : UnpackedFloat → Bool
  | .finite .. => true
  | _ => false

theorem isNaN_mul_div {u v : UnpackedFloat} (number : u.isNaN = false) (proper : isProper v = true) :
    (u.mul .binary64 v).isNaN = false ∧ (u.div .binary64 v).isNaN = false := by
  cases v with
  | notANumber | infinity | zero => cases proper
  | finite =>
    cases u with
    | notANumber => cases number
    | infinity | zero => exact ⟨rfl, rfl⟩
    | finite => exact ⟨isNaN_roundWithAccuracy _ _ _ _, isNaN_roundWithAccuracy _ _ _ _⟩

theorem isNaN_mul {x y : Float} (number : x.isNaN = false)
    (proper : isProper y.toModel.unpack = true) : (x * y).isNaN = false :=
  isNaN_pack (isNaN_mul_div number proper).1

theorem isNaN_div {x y : Float} (number : x.isNaN = false)
    (proper : isProper y.toModel.unpack = true) : (x / y).isNaN = false :=
  isNaN_pack (isNaN_mul_div number proper).2

end GridRobot.Decimal
