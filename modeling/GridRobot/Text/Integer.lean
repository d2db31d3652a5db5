namespace GridRobot.Text

/-- White space of all scripts: the characters of Unicode's property `White_Space`. -/
def blankRanges : List (Nat × Nat) := [
  (9, 13), (32, 32), (133, 133), (160, 160), (5760, 5760), (8192, 8202), (8232, 8233),
  (8239, 8239), (8287, 8287), (12288, 12288)
]

def isBlank (c : Char) : Bool :=
  blankRanges.any fun range => range.1 ≤ c.toNat && c.toNat ≤ range.2

def trimmed (cs : List Char) : List Char :=
  ((cs.dropWhile isBlank).reverse.dropWhile isBlank).reverse

/-! ## Digits of all scripts -/

def digitZeros : List Nat := [
  48, 1632, 1776, 1984, 2406, 2534, 2662, 2790, 2918, 3046, 3174, 3302, 3430, 3558, 3664, 3792,
  3872, 4160, 4240, 6112, 6160, 6470, 6608, 6784, 6800, 6992, 7088, 7232, 7248, 42528, 43216,
  43264, 43472, 43504, 43600, 44016, 65296, 66720, 68912, 69734, 69872, 69942, 70096, 70384,
  70736, 70864, 71248, 71360, 71472, 71904, 72016, 72784, 73040, 73120, 92768, 92864, 93008,
  120782, 120792, 120802, 120812, 120822, 123200, 123632, 125264, 130032
]

def otherDigitRanges : List (Nat × Nat) := [
  (178, 179), (185, 185), (4969, 4977), (6618, 6618), (8304, 8304), (8308, 8313), (8320, 8329),
  (9312, 9320), (9332, 9340), (9352, 9360), (9450, 9450), (9461, 9469), (9471, 9471),
  (10102, 10110), (10112, 10120), (10122, 10130), (68160, 68163), (69216, 69224), (69714, 69722),
  (127232, 127242)
]

def decimalDigit? (c : Char) : Option Nat :=
  (digitZeros.find? fun base => base ≤ c.toNat && c.toNat < base + 10).map (c.toNat - ·)

def isDigit (c : Char) : Bool :=
  (decimalDigit? c).isSome ||
    otherDigitRanges.any fun range => range.1 ≤ c.toNat && c.toNat ≤ range.2

/-! ## Whole numbers -/

def groupedDigits? (n : Nat) : List Char → Option Nat
  | [] => some n
  | '_' :: c :: rest => do
    let d ← decimalDigit? c
    groupedDigits? (10 * n + d) rest
  | c :: rest => do
    let d ← decimalDigit? c
    groupedDigits? (10 * n + d) rest

def natural? : List Char → Option Nat
  | '_' :: _ => none
  | [] => none
  | cs => groupedDigits? 0 cs

def maxDigits : Nat := 4300

def excess? (s : String) : Option Nat :=
  let unsigned :=
    match trimmed s.toList with
    | '-' :: rest | '+' :: rest => rest
    | cs => cs
  let front := unsigned.takeWhile fun c => c == '_' || (decimalDigit? c).isSome
  let digits := front.countP (· != '_')
  if maxDigits < digits ∧ (natural? front).isSome then some digits else none

def integer? (s : String) : Option Int :=
  if (excess? s).isSome then none
  else
    match trimmed s.toList with
    | '-' :: rest => (natural? rest).map fun n => -n
    | '+' :: rest => (natural? rest).map fun n => n
    | cs => (natural? cs).map fun n => n

end GridRobot.Text
