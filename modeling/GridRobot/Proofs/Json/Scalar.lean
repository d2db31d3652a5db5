import Mathlib.Data.List.TakeWhile
import GridRobot.Json.Basic
import GridRobot.Json.Reader

namespace GridRobot.Json

/-! ## Numbers and words -/

def scalar? (cs : List Char) : Option (Json × List Char) :=
  word? cs <|> number? cs

/-- What may come after a value. No number and no word goes on with it. -/
inductive Stops : List Char → Prop
  | nil : Stops []
  | comma (rest : List Char) : Stops (',' :: rest)
  | bracket (rest : List Char) : Stops (']' :: rest)
  | brace (rest : List Char) : Stops ('}' :: rest)
  | line (rest : List Char) : Stops ('\n' :: rest)

def stoppers : List Char := [',', ']', '}', '\n']

def followed (rest : List Char) (read : Json × List Char) : Json × List Char :=
  (read.1, read.2 ++ rest)

section Append

variable {rest : List Char} (stops : Stops rest)

include stops

theorem takeWhile_append (cs : List Char) :
    (cs ++ rest).takeWhile Char.isDigit = cs.takeWhile Char.isDigit := by
  induction cs with
  | nil => cases stops <;> rfl
  | cons c cs ih => simp only [List.cons_append, List.takeWhile_cons, ih]

theorem dropWhile_append (cs : List Char) :
    (cs ++ rest).dropWhile Char.isDigit = cs.dropWhile Char.isDigit ++ rest := by
  induction cs with
  | nil => cases stops <;> rfl
  | cons c cs ih =>
    simp only [List.cons_append, List.dropWhile_cons, ih]
    split <;> rfl

theorem fraction_append (cs : List Char) :
    fraction (cs ++ rest) = ((fraction cs).1, (fraction cs).2 ++ rest) := by
  fun_cases fraction cs with
  | case1 more ds empty =>
    rw [List.cons_append, fraction, takeWhile_append stops, if_pos empty]
  | case2 more ds filled =>
    rw [List.cons_append, fraction, takeWhile_append stops, if_neg filled, dropWhile_append stops]
  | case3 _ other =>
    cases cs with
    | nil => cases stops <;> rfl
    | cons c cs =>
      have point : c ≠ '.' := fun same => other cs (by rw [same])
      simp [fraction, point]

theorem exponentDigits_append (cs : List Char) (negative : Bool) (more : List Char) :
    exponentDigits (cs ++ rest) negative (more ++ rest) =
      ((exponentDigits cs negative more).1, (exponentDigits cs negative more).2 ++ rest) := by
  simp only [exponentDigits, takeWhile_append stops, dropWhile_append stops]
  split <;> rfl

theorem signedExponent_append (cs more : List Char) :
    signedExponent (cs ++ rest) (more ++ rest) =
      ((signedExponent cs more).1, (signedExponent cs more).2 ++ rest) := by
  fun_cases signedExponent cs more with
  | case1 more => exact exponentDigits_append stops cs true more
  | case2 more => exact exponentDigits_append stops cs false more
  | case3 _ minus plus =>
    rw [← exponentDigits_append stops]
    cases more with
    | nil => cases stops <;> rfl
    | cons c more =>
      have first : c ≠ '-' := fun same => minus more (by rw [same])
      have second : c ≠ '+' := fun same => plus more (by rw [same])
      simp [signedExponent, first, second]

theorem exponent?_append (cs : List Char) :
    exponent? (cs ++ rest) = ((exponent? cs).1, (exponent? cs).2 ++ rest) := by
  cases cs with
  | nil => cases stops <;> rfl
  | cons c cs =>
    simp only [List.cons_append, exponent?]
    split
    · exact signedExponent_append stops (c :: cs) cs
    · rfl

theorem wholeDigits_append (cs : List Char) : wholeDigits (cs ++ rest) = wholeDigits cs := by
  fun_cases wholeDigits cs with
  | case1 more => rfl
  | case2 _ other =>
    cases cs with
    | nil => cases stops <;> rfl
    | cons c cs =>
      have lead : c ≠ '0' := fun same => other cs (by rw [same])
      simpa [wholeDigits, lead] using takeWhile_append stops (c :: cs)

omit stops in
theorem length_wholeDigits_le (cs : List Char) : (wholeDigits cs).length ≤ cs.length := by
  fun_cases wholeDigits cs with
  | case1 more => exact Nat.le_add_left 1 more.length
  | case2 _ other => exact (List.takeWhile_prefix _).length_le

theorem magnitude?_append (negative : Bool) (cs : List Char) :
    magnitude? negative (cs ++ rest) = (magnitude? negative cs).map (followed rest) := by
  simp only [magnitude?, wholeDigits_append stops]
  rw [List.drop_append_of_le_length (length_wholeDigits_le cs), fraction_append stops,
    exponent?_append stops]
  split
  · rfl
  · split <;> rfl

theorem number?_append (cs : List Char) :
    number? (cs ++ rest) = (number? cs).map (followed rest) := by
  fun_cases number? cs with
  | case1 more => exact magnitude?_append stops true more
  | case2 _ other =>
    rw [← magnitude?_append stops]
    cases cs with
    | nil => cases stops <;> rfl
    | cons c cs =>
      have sign : c ≠ '-' := fun same => other cs (by rw [same])
      simp [number?, sign]

theorem isPrefixOf_append {w : List Char} (plain : ∀ c ∈ w, c ∉ stoppers) (cs : List Char) :
    w.isPrefixOf (cs ++ rest) = w.isPrefixOf cs := by
  induction cs generalizing w with
  | nil =>
    cases w with
    | nil => rfl
    | cons d w =>
      have other : d ∉ stoppers := plain d List.mem_cons_self
      cases stops <;> grind [stoppers, List.isPrefixOf]
  | cons c cs ih =>
    cases w with
    | nil => rfl
    | cons d w =>
      rw [List.cons_append, List.isPrefixOf, List.isPrefixOf,
        ih fun e mem => plain e (List.mem_cons_of_mem d mem)]

theorem word?_append (cs : List Char) : word? (cs ++ rest) = (word? cs).map (followed rest) := by
  -- no word goes on behind the text, since none holds a character that can stand there
  have plain : ∀ entry ∈ words, ∀ c ∈ entry.1.toList, c ∉ stoppers := by
    simp [words, stoppers]
  unfold word?
  generalize words = entries at plain ⊢
  induction entries with
  | nil => rfl
  | cons entry entries ih =>
    obtain ⟨w, v⟩ := entry
    rw [List.forall_mem_cons] at plain
    rw [List.findSome?_cons, List.findSome?_cons, ih plain.2]
    dsimp only
    rw [isPrefixOf_append stops plain.1]
    by_cases held : w.toList.isPrefixOf cs = true
    · have within := (List.isPrefixOf_iff_prefix.mp held).length_le
      simp only [held, if_true, Option.map_some, followed]
      rw [← String.length_toList, List.drop_append_of_le_length within]
    · simp only [held]
      rfl

theorem scalar?_append (cs : List Char) :
    scalar? (cs ++ rest) = (scalar? cs).map (followed rest) := by
  rw [scalar?, word?_append stops, number?_append stops, scalar?]
  cases word? cs <;> rfl

end Append

/-! ## Texts of scalars -/

/-- The number that the text of a floating-point number reads back as. -/
def readBack? (x : Float) : Option Float :=
  match scalar? (storedFloat x).toList with
  | some (float y, []) => some y
  | _ => none

theorem scalar?_storedFloat {x : Float} (exact' : readBack? x = some x) :
    scalar? (storedFloat x).toList = some (float x, []) := by
  unfold readBack? at exact'
  split at exact'
  · rename_i y read
    rw [read, Option.some.inj exact']
  · cases exact'

theorem digitsValue_toDigits (n : Nat) : digitsValue (Nat.toDigits 10 n) = n := by
  have read := Nat.ofDigitChars_ten_toDigits (n := n)
  rwa [Nat.ofDigitChars_eq_foldl] at read

theorem head?_toDigits {n : Nat} (pos : 0 < n) : (Nat.toDigits 10 n).head? ≠ some '0' := by
  induction n using Nat.strongRecOn with
  | ind n ih =>
    by_cases small : n < 10
    · have first : ∀ d < 10, 0 < d → Nat.digitChar d ≠ '0' := by decide
      rw [Nat.toDigits_of_lt_base small]
      simpa using first n small pos
    · rw [Nat.toDigits_of_base_le (by decide) (by omega)]
      have lead := ih (n / 10) (by omega) (by omega)
      cases same : Nat.toDigits 10 (n / 10) with
      | nil => exact absurd same Nat.toDigits_ne_nil
      | cons c cs =>
        rw [same] at lead
        exact lead

theorem wholeDigits_toDigits (n : Nat) : wholeDigits (Nat.toDigits 10 n) = Nat.toDigits 10 n := by
  obtain rfl | pos := Nat.eq_zero_or_pos n
  · rfl
  have lead := head?_toDigits pos
  have digits : ∀ c ∈ Nat.toDigits 10 n, c.isDigit = true := fun c =>
    Nat.isDigit_of_mem_toDigits (by decide) (by decide)
  cases same : Nat.toDigits 10 n with
  | nil => rfl
  | cons c cs =>
    rw [same] at lead digits
    have nonzero : c ≠ '0' := fun zero => lead (congrArg some zero)
    have all : (c :: cs).takeWhile Char.isDigit = c :: cs := List.takeWhile_eq_self_iff.mpr digits
    simpa [wholeDigits, nonzero] using all

theorem magnitude?_toDigits (negative : Bool) (n : Nat) :
    magnitude? negative (Nat.toDigits 10 n) = some (int (if negative then -n else n), []) := by
  have digits : (Nat.toDigits 10 n).isEmpty = false := by
    simp
  simp [magnitude?, wholeDigits_toDigits, fraction, exponent?, digitsValue_toDigits]

theorem word?_of_isDigit {c : Char} (digit : c.isDigit = true) (cs : List Char) :
    word? (c :: cs) = none ∧ word? ('-' :: c :: cs) = none := by
  have other (d : Char) (letter : d.isDigit = false) : d ≠ c := by
    rintro rfl
    rw [digit] at letter
    cases letter
  have letters := And.intro (other 'n' rfl) <| And.intro (other 't' rfl) <| And.intro (other 'f' rfl) <|
    And.intro (other 'N' rfl) <| And.intro (other 'I' rfl) (other '-' rfl)
  simp [word?, words, letters]

theorem scalar?_int (n : Int) : scalar? (toString n).toList = some (int n, []) := by
  have digits (m : Nat) : ∃ c cs, Nat.toDigits 10 m = c :: cs ∧ c.isDigit = true := by
    have filled : Nat.toDigits 10 m ≠ [] := Nat.toDigits_ne_nil
    obtain ⟨c, cs, same⟩ := List.exists_cons_of_ne_nil filled
    have lead : c ∈ Nat.toDigits 10 m := by
      rw [same]
      exact List.mem_cons_self
    exact ⟨c, cs, same, Nat.isDigit_of_mem_toDigits (by decide) (by decide) lead⟩
  cases n with
  | ofNat m =>
    have text : (toString (Int.ofNat m)).toList = Nat.toDigits 10 m := Nat.toList_repr
    have read := magnitude?_toDigits false m
    obtain ⟨c, cs, same, digit⟩ := digits m
    rw [same] at read text
    have sign : c ≠ '-' := by
      rintro rfl
      cases digit
    rw [text, scalar?, (word?_of_isDigit digit cs).1]
    simpa [number?, sign] using read
  | negSucc m =>
    have text : (toString (Int.negSucc m)).toList = '-' :: Nat.toDigits 10 (m + 1) := by
      change ("-" ++ (m + 1).repr).toList = _
      rw [String.toList_append, Nat.toList_repr]
      rfl
    have read := magnitude?_toDigits true (m + 1)
    obtain ⟨c, cs, same, digit⟩ := digits (m + 1)
    rw [same] at read text
    rw [text, scalar?, (word?_of_isDigit digit cs).2]
    exact read

def closers : List Char := [' ', '\t', '\n', '\r', ']', '}']

theorem scalar?_eq_none {c : Char} (other : c ∈ '"' :: '[' :: '{' :: closers) (cs : List Char) :
    scalar? (c :: cs) = none := by
  simp only [closers, List.mem_cons, List.not_mem_nil, or_false] at other
  rcases other with rfl | rfl | rfl | rfl | rfl | rfl | rfl | rfl | rfl <;> rfl

/-! ## Strings -/

theorem hexValue?_digitChar : ∀ d < 16, hexValue? (Nat.digitChar d) = some d := by
  decide

theorem hexUnit?_hex {n : Nat} (small : n < 0x10000) (rest : List Char) :
    hexUnit? ((Text.hex 4 n).toList ++ rest) = some (n, rest) := by
  have digit (place : Nat) : hexValue? (Nat.digitChar (n / Nat.pow 16 place % 16)) =
      some (n / Nat.pow 16 place % 16) :=
    hexValue?_digitChar _ (Nat.mod_lt _ (by decide))
  have shape : (Text.hex 4 n).toList = [3, 2, 1, 0].map fun place =>
      Nat.digitChar (n / Nat.pow 16 place % 16) :=
    String.toList_ofList
  rw [shape]
  simp only [List.map_cons, List.map_nil, List.cons_append, List.nil_append, hexUnit?, List.mapM_cons,
    List.mapM_nil, digit]
  simp only [Option.pure_def, Option.bind_eq_bind, Option.bind_some, List.foldl_cons, List.foldl_nil]
  have value : 16 * (16 * (16 * (16 * 0 + n / 4096 % 16) + n / 256 % 16) + n / 16 % 16) + n / 1 % 16 = n := by
    omega
  exact congrArg (fun m => some (m, rest)) value

theorem toNat_cases (c : Char) : c.toNat < 0xd800 ∨ 0xe000 ≤ c.toNat ∧ c.toNat < 0x110000 := by
  have := c.valid
  simp [UInt32.isValidChar, Nat.isValidChar] at this
  exact this.imp id fun h => ⟨by omega, h.2⟩

theorem unicodeEscape?_hex {c : Char} (small : c.toNat < 0x10000) (rest : List Char) :
    unicodeEscape? ((Text.hex 4 c.toNat).toList ++ rest) = some (c, rest) := by
  -- a character is no surrogate, so that its code unit does not ask for a second one
  have surrogates := toNat_cases c
  simp only [unicodeEscape?, hexUnit?_hex small, Option.bind_eq_bind, Option.bind_some]
  split
  · rw [if_neg (by omega), Char.ofNat_toNat]
  · rw [if_neg (by omega), Char.ofNat_toNat]

theorem unicodeEscape?_pair {high low : Nat} (first : 0xd800 ≤ high ∧ high < 0xdc00)
    (second : 0xdc00 ≤ low ∧ low < 0xe000) (rest : List Char) :
    unicodeEscape? ((Text.hex 4 high).toList ++ '\\' :: 'u' :: ((Text.hex 4 low).toList ++ rest)) =
      some (Char.ofNat (0x10000 + (high - 0xd800) * 0x400 + (low - 0xdc00)), rest) := by
  rw [unicodeEscape?, hexUnit?_hex (by omega)]
  have unit := hexUnit?_hex (show low < 0x10000 by omega) rest
  simp only [Option.bind_eq_bind, Option.bind_some, if_pos first, unit, if_pos second]

section Characters

variable (fuel : Nat) (read rest : List Char)

theorem stringBody?_simple {c e : Char} (escape : simpleEscape? e = some c) (other : e ≠ 'u') :
    stringBody? (fuel + 1) read ('\\' :: e :: rest) = stringBody? fuel (c :: read) rest := by
  simp [stringBody?, escape]

theorem toList_unicodeEscape (n : Nat) :
    (unicodeEscape n).toList = '\\' :: 'u' :: (Text.hex 4 n).toList := by
  rw [unicodeEscape, String.toList_append]
  rfl

theorem stringBody?_unicode {c : Char} {after : List Char} {n : Nat}
    (escape : unicodeEscape? ((Text.hex 4 n).toList ++ rest) = some (c, after)) :
    stringBody? (fuel + 1) read ((unicodeEscape n).toList ++ rest) =
      stringBody? fuel (c :: read) after := by
  simp [toList_unicodeEscape, stringBody?, escape]

theorem stringBody?_pair {c : Char} {high low : Nat} (first : 0xd800 ≤ high ∧ high < 0xdc00)
    (second : 0xdc00 ≤ low ∧ low < 0xe000)
    (value : 0x10000 + (high - 0xd800) * 0x400 + (low - 0xdc00) = c.toNat) :
    stringBody? (fuel + 1) read ((unicodeEscape high ++ unicodeEscape low).toList ++ rest) =
      stringBody? fuel (c :: read) rest := by
  rw [String.toList_append, List.append_assoc]
  refine stringBody?_unicode fuel read _ ?_
  rw [toList_unicodeEscape, List.cons_append, List.cons_append, unicodeEscape?_pair first second, value,
    Char.ofNat_toNat]

theorem stringBody?_plain {c : Char} (mark : c ≠ '"') (escape : c ≠ '\\') (printed : ¬ c.toNat < 0x20) :
    stringBody? (fuel + 1) read (c :: rest) = stringBody? fuel (c :: read) rest := by
  simp [stringBody?, escape, printed]

theorem stringBody?_storedChar (c : Char) :
    stringBody? (fuel + 1) read ((storedChar c).toList ++ rest) = stringBody? fuel (c :: read) rest := by
  fun_cases storedChar c with
  | case1 same | case2 _ same | case3 _ _ same | case4 _ _ _ same | case5 _ _ _ _ same
  | case6 _ _ _ _ _ same | case7 _ _ _ _ _ _ same =>
    obtain rfl := beq_iff_eq.mp same
    exact stringBody?_simple fuel read rest rfl (by decide)
  | case8 _ _ _ _ _ _ _ control =>
    exact stringBody?_unicode fuel read rest (unicodeEscape?_hex (by omega) rest)
  | case9 mark escape _ _ _ _ _ printed _ =>
    rw [Char.toString_eq_singleton, String.toList_singleton]
    exact stringBody?_plain fuel read rest (by simpa using mark) (by simpa using escape) printed
  | case10 _ _ _ _ _ _ _ _ _ small =>
    exact stringBody?_unicode fuel read rest (unicodeEscape?_hex small rest)
  | case11 _ _ _ _ _ _ _ _ _ large offset =>
    have value := toNat_cases c
    exact stringBody?_pair fuel read rest (by omega) (by omega) (by omega)

end Characters

theorem stringBody?_storedChars {cs : List Char} {fuel : Nat} (enough : cs.length < fuel)
    (read rest : List Char) :
    stringBody? fuel read (cs.flatMap (fun c => (storedChar c).toList) ++ '"' :: rest) =
      some (String.ofList (read.reverse ++ cs), rest) := by
  induction cs generalizing fuel read with
  | nil =>
    obtain ⟨fuel, rfl⟩ := Nat.exists_eq_add_one_of_ne_zero (Nat.ne_of_gt enough)
    simp [stringBody?]
  | cons c cs ih =>
    obtain ⟨fuel, rfl⟩ := Nat.exists_eq_add_one_of_ne_zero (Nat.ne_of_gt (Nat.zero_lt_of_lt enough))
    rw [List.flatMap_cons, List.append_assoc, stringBody?_storedChar, ih (by simpa using enough)]
    simp

theorem toList_storedString (s : String) (rest : List Char) :
    (storedString s).toList ++ rest =
      '"' :: (s.toList.flatMap (fun c => (storedChar c).toList) ++ '"' :: rest) := by
  rw [storedString, String.toList_append, String.toList_append, String.toList_join, List.flatMap_map,
    List.append_assoc, List.append_assoc]
  rfl

theorem storedChar_ne_nil (c : Char) : (storedChar c).toList ≠ [] := by
  intro empty
  have read := stringBody?_storedChar 0 [] ['"'] c
  rw [empty] at read
  cases read

theorem length_le_storedChars (cs : List Char) :
    cs.length ≤ (cs.flatMap fun c => (storedChar c).toList).length := by
  induction cs with
  | nil => exact Nat.le_refl 0
  | cons c cs ih =>
    have one := List.length_pos_iff.mpr (storedChar_ne_nil c)
    rw [List.flatMap_cons, List.length_append, List.length_cons]
    omega

theorem stringBody?_storedString (s : String) (rest : List Char) :
    stringBody? ((s.toList.flatMap (fun c => (storedChar c).toList) ++ '"' :: rest).length + 1) []
      (s.toList.flatMap (fun c => (storedChar c).toList) ++ '"' :: rest) = some (s, rest) := by
  have enough := length_le_storedChars s.toList
  rw [stringBody?_storedChars (by rw [List.length_append]; omega), List.reverse_nil, List.nil_append,
    String.ofList_toList]

end GridRobot.Json
