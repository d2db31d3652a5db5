namespace GridRobot.Decimal

/-- What a floating-point number stands for; `finite` is `mantissa · 2 ^ exponent` with its sign. -/
inductive Value where
  | notANumber
  | infinite (negative : Bool)
  | finite (negative : Bool) (mantissa : Nat) (exponent : Int)
  deriving DecidableEq

def leastExponent : Int := -1074

def Value.ofFloat (x : Float) : Value :=
  let bits := x.toBits.toNat
  let negative := bits / Nat.pow 2 63 == 1
  let field : Nat := bits / Nat.pow 2 52 % Nat.pow 2 11
  let fraction : Nat := bits % Nat.pow 2 52
  if field = 2047 then if fraction = 0 then .infinite negative else .notANumber
  else if field = 0 then .finite negative fraction leastExponent
  else .finite negative (Nat.pow 2 52 + fraction) ((field : Int) - 1 + leastExponent)

def quotient (mantissa : Nat) (exponent : Int) : Nat × Nat :=
  (mantissa * Nat.pow 2 exponent.toNat, Nat.pow 2 (-exponent).toNat)

def roundDiv (num den : Nat) : Nat :=
  let low := num / den
  let twice := 2 * (num % den)
  if twice < den then low
  else if den < twice then low + 1
  else low + low % 2

def scaled? (places : Nat) (x : Float) : Option Int :=
  match Value.ofFloat x with
  | .finite negative mantissa exponent =>
    let (num, den) := quotient mantissa exponent
    let n : Int := roundDiv (num * Nat.pow 10 places) den
    some (if negative then -n else n)
  | _ => none

def truncated? (x : Float) : Option Int :=
  match Value.ofFloat x with
  | .finite negative mantissa exponent =>
    let (num, den) := quotient mantissa exponent
    some (if negative then -((num / den : Nat) : Int) else ((num / den : Nat) : Int))
  | _ => none

def isWhole (x : Float) : Bool :=
  match Value.ofFloat x with
  | .finite _ mantissa exponent =>
    let (num, den) := quotient mantissa exponent
    num % den == 0
  | _ => false

def isNegative (x : Float) : Bool :=
  x.toBits.toNat / Nat.pow 2 63 == 1

/-! ## Digits -/

/-- The number `0.d₁d₂… · 10 ^ (exponent + 1)`: `exponent` is the power of ten of the first digit. -/
structure Digits where
  digits : List Nat
  exponent : Int

namespace Digits

def ofNat (n : Nat) : List Nat :=
  (Nat.toDigits 10 n).map fun c => c.toNat - '0'.toNat

def ofScaled (n : Nat) (power : Int) : Digits :=
  let all := ofNat n
  ⟨(all.reverse.dropWhile (· == 0)).reverse, power + all.length - 1⟩

def leadingPower (num den : Nat) : Int :=
  if den ≤ num then (ofNat (num / den)).length - 1
  else
    Int.negOfNat (((List.range 400).find? fun e => den ≤ num * Nat.pow 10 e).getD 400)

def overPower (num den : Nat) (power : Int) : Nat × Nat :=
  (num * Nat.pow 10 (-power).toNat, den * Nat.pow 10 power.toNat)

def rounded (count num den : Nat) : Digits :=
  let power := leadingPower num den - count + 1
  let (n, d) := overPower num den power
  ofScaled (roundDiv n d) power

/-- The fewest digits that read back as `mantissa · 2 ^ exponent`: the first power-of-ten grid, from
coarse to fine, with a point in the interval of numbers that round to it; of two such points the
nearer one. -/
def shortest (mantissa : Nat) (exponent : Int) : Digits :=
  let lowGap := if mantissa = Nat.pow 2 52 ∧ leastExponent < exponent then 1 else 2
  let (num, den) := quotient (4 * mantissa) (exponent - 2)
  let (unit, _) := quotient 1 (exponent - 2)
  let low := num - lowGap * unit
  let high := num + 2 * unit
  let inside := fun (a b : Nat) =>
    if mantissa % 2 = 0 then low * b ≤ a * den ∧ a * den ≤ high * b
    else low * b < a * den ∧ a * den < high * b
  let lead := leadingPower num den
  let candidate := fun (count : Nat) =>
    let power := lead - count
    let (n, d) := overPower num den power
    let below := n / d
    let point := fun k => (k * Nat.pow 10 power.toNat, Nat.pow 10 (-power).toNat)
    let lies := fun k => decide (inside (point k).1 (point k).2)
    let nearer := roundDiv n d
    let farther := if nearer = below then below + 1 else below
    if lies nearer then some (ofScaled nearer power)
    else if lies farther then some (ofScaled farther power)
    else none
  ((List.range 18).findSome? candidate).getD (rounded 17 num den)

end Digits

/-! ## Layout -/

structure Layout where
  /-- The least power of ten of the first digit that is still written positionally. -/
  leastPositional : Int
  /-- The first power of ten that is no longer written positionally. -/
  pastPositional : Int
  wholeTail : String
  notANumber : String
  infinity : String

namespace Layout

def digitText (ds : List Nat) : String :=
  String.ofList (ds.map Nat.digitChar)

def exponentText (e : Int) : String :=
  let size := toString e.natAbs
  (if e < 0 then "e-" else "e+") ++ (if size.length < 2 then "0" ++ size else size)

def magnitude (l : Layout) (d : Digits) : String :=
  let ds := d.digits
  if l.leastPositional ≤ d.exponent ∧ d.exponent < l.pastPositional then
    if d.exponent < 0 then
      "0." ++ digitText (List.replicate (-d.exponent - 1).toNat 0 ++ ds)
    else
      let whole := d.exponent.toNat + 1
      let front := ds.take whole ++ List.replicate (whole - ds.length) 0
      if ds.length ≤ whole then digitText front ++ l.wholeTail
      else digitText front ++ "." ++ digitText (ds.drop whole)
  else
    let tail := if ds.length ≤ 1 then "" else "." ++ digitText (ds.drop 1)
    digitText (ds.take 1) ++ tail ++ exponentText d.exponent

def render (l : Layout) (pick : Nat → Int → Digits) (x : Float) : String :=
  match Value.ofFloat x with
  | .notANumber => l.notANumber
  | .infinite negative => (if negative then "-" else "") ++ l.infinity
  | .finite negative mantissa exponent =>
    (if negative then "-" else "") ++
      if mantissa = 0 then "0" ++ l.wholeTail else l.magnitude (pick mantissa exponent)

end Layout

def fullLayout : Layout := ⟨-4, 16, ".0", "nan", "inf"⟩

def text (x : Float) : String :=
  fullLayout.render Digits.shortest x

def briefLayout : Layout := ⟨-4, 6, "", "nan", "inf"⟩

def briefText (x : Float) : String :=
  briefLayout.render
    (fun mantissa exponent =>
      let (num, den) := quotient mantissa exponent
      Digits.rounded 6 num den) x

def fixedText (places : Nat) (x : Float) : String :=
  match scaled? places x with
  | some n =>
    let size := toString n.natAbs
    let padded := "".pushn '0' (places + 1 - size.length) ++ size
    let cut := padded.length - places
    (if isNegative x then "-" else "") ++ (padded.take cut).toString ++ "." ++
      (padded.drop cut).toString
  | none => text x

def roundPlaces (places : Nat) (x : Float) : Float :=
  match scaled? places x with
  | some n =>
    let size := Float.ofScientific n.natAbs true places
    if isNegative x then -size else size
  | none => x

end GridRobot.Decimal
