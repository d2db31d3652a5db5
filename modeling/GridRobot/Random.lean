import GridRobot.Decimal

/-!
Sources of random values. Everything that draws is written over a class of sources, so that a run can
be replayed from a seed or scripted entry by entry.
-/

namespace GridRobot

/-- A source with state `σ`: a number from zero up to one, and an index below a positive bound. -/
class RandomSource (σ : Type) where
  unit : StateM σ Float
  index (last : Nat) : StateM σ (Fin (last + 1))

namespace RandomSource

variable {σ : Type} [RandomSource σ]

def chooseCons (first : α) (rest : List α) : StateM σ α := do
  let i ← index rest.length
  return (first :: rest)[i]

def choose (xs : List α) (nonempty : xs ≠ []) : StateM σ α :=
  match xs, nonempty with
  | x :: rest, _ => chooseCons x rest

def happens (chance : Float) : StateM σ Bool := do
  return decide ((← unit) < chance)

def either (a b : α) : StateM σ α := do
  return if ← happens 0.5 then a else b

instance {τ : Type} [RandomSource τ] : RandomSource (σ ⊕ τ) where
  unit
    | .inl s => let (x, s) := unit s; (x, .inl s)
    | .inr t => let (x, t) := unit t; (x, .inr t)
  index last
    | .inl s => let (i, s) := index last s; (i, .inl s)
    | .inr t => let (i, t) := index last t; (i, .inr t)

end RandomSource

/-! ## Tapes -/

/-- `overrun` records that an entry outside the range from zero up to one was asked for an index. -/
structure Tape where
  entries : Array Float
  consumed : Nat := 0
  overrun : Bool := false

namespace Tape

def unit : StateM Tape Float := fun t =>
  (t.entries.getD (t.consumed % t.entries.size) 0, { t with consumed := t.consumed + 1 })

/-- The entry's share of the choices; past the last one the last is taken. -/
def index (last : Nat) : StateM Tape (Fin (last + 1)) := do
  let share := (Decimal.truncated? ((← unit) * Float.ofNat (last + 1))).getD 0
  if h : 0 ≤ share ∧ share < last + 1 then return ⟨share.toNat, by omega⟩
  else
    modify fun t => { t with overrun := true }
    return Fin.last last

instance : RandomSource Tape := ⟨unit, index⟩

end Tape

/-! ## The Mersenne Twister -/

structure Twister where
  words : Vector UInt32 624
  spent : Nat

namespace Twister

def basicWords : Vector UInt32 624 :=
  let start : Vector UInt32 624 := .replicate 624 19650218
  Fin.foldl 623 (fun (words : Vector UInt32 624) i =>
    let before : UInt32 := words[i.val]
    words.set (i.val + 1) ((1812433253 : UInt32) * (before ^^^ (before >>> 30)) + (i.val + 1).toUInt32)) start

def mixedBefore (words : Vector UInt32 624) (i : Fin 624) (factor : UInt32) : UInt32 :=
  let before : UInt32 := words[i - 1]
  (before ^^^ (before >>> 30)) * factor

/-- The place after `i` while seeding: from the last one it goes on with place one, the first word
being replaced by the last. -/
def seedNext (words : Vector UInt32 624) (i : Fin 624) : Vector UInt32 624 × Fin 624 :=
  if i = 623 then (words.set 0 words[623], 1) else (words, i + 1)

def ofKey (key : Array UInt32) : Twister :=
  let absorb := fun (st : (Vector UInt32 624 × Fin 624) × Nat) (_ : Nat) =>
    let ((words, i), j) := st
    let word := (words[i] ^^^ mixedBefore words i 1664525) + key.getD j 0 + j.toUInt32
    (seedNext (words.set i word) i, if j + 1 < key.size then j + 1 else 0)
  let spread := fun (st : Vector UInt32 624 × Fin 624) (_ : Nat) =>
    let (words, i) := st
    let word := (words[i] ^^^ mixedBefore words i 1566083941) - i.val.toUInt32
    seedNext (words.set i word) i
  let absorbed := (List.range (max 624 key.size)).foldl absorb ((basicWords, 1), 0)
  let spreadOut := (List.range 623).foldl spread absorbed.1
  ⟨spreadOut.1.set 0 0x80000000, 624⟩

def keyWords (n : Nat) : Array UInt32 :=
  if n < 4294967296 then #[n.toUInt32]
  else #[(n % 4294967296).toUInt32] ++ keyWords (n / 4294967296)

/-- The sign of a seed does not count. -/
def ofSeed (seed : Int) : Twister :=
  ofKey (keyWords seed.natAbs)

def twistedWord (words : Vector UInt32 624) (i : Fin 624) : UInt32 :=
  let joined := (words[i] &&& 0x80000000) ||| (words[i + 1] &&& 0x7fffffff)
  let folded := words[i + 397] ^^^ (joined >>> 1)
  if joined &&& 1 = 0 then folded else folded ^^^ 0x9908b0df

def nextRound (words : Vector UInt32 624) : Vector UInt32 624 :=
  Fin.foldl 624 (fun (words : Vector UInt32 624) i => words.set i (twistedWord words i)) words

def tempered (y : UInt32) : UInt32 :=
  let y := y ^^^ (y >>> 11)
  let y := y ^^^ ((y <<< 7) &&& 0x9d2c5680)
  let y := y ^^^ ((y <<< 15) &&& 0xefc60000)
  y ^^^ (y >>> 18)

def word : StateM Twister UInt32 := fun t =>
  if h : t.spent < 624 then (tempered t.words[t.spent], { t with spent := t.spent + 1 })
  else
    let words := nextRound t.words
    (tempered words[0], ⟨words, 1⟩)

def unit : StateM Twister Float := do
  let a ← word
  let b ← word
  return Float.ofNat ((a >>> 5).toNat * Nat.pow 2 26 + (b >>> 6).toNat) / Float.ofNat (Nat.pow 2 53)

def bitLength (n : Nat) : Nat :=
  n.log2 + 1

/-- How often a word may be refused before the rule is given up; each is refused with odds below one
half. -/
def refusals : Nat := 10000

/-- The leading bits of a word, as many as the number of choices has, words being refused until the
bits are an index. -/
def index (last : Nat) : StateM Twister (Fin (last + 1)) :=
  go refusals
where
  go : Nat → StateM Twister (Fin (last + 1))
    | 0 => return 0
    | fuel + 1 => do
      let n := ((← word) >>> (32 - bitLength (last + 1)).toUInt32).toNat
      if h : n < last + 1 then return ⟨n, h⟩ else go fuel

instance : RandomSource Twister := ⟨unit, index⟩

end Twister

end GridRobot
