import GridRobot.Collections
import GridRobot.Config.Reading
import GridRobot.Text.Integer

namespace GridRobot.Path

def root (path : String) : String :=
  match path.toList with
  | '/' :: '/' :: '/' :: _ => "/"
  | '/' :: '/' :: _ => "//"
  | '/' :: _ => "/"
  | _ => ""

def parts (path : String) : List String :=
  (path.splitOn "/").filter fun part => !part.isEmpty && part != "."

def normal (path : String) : String :=
  let whole := root path ++ "/".intercalate (parts path)
  if whole.isEmpty then "." else whole

def name (path : String) : String :=
  ((parts path).getLast?).getD ""

def parent (path : String) : String :=
  normal (root path ++ "/".intercalate (parts path).dropLast)

end GridRobot.Path

/-! ## Environment files -/

namespace GridRobot.EnvFile

def isSpace (c : Char) : Bool :=
  Text.isBlank c || (28 ≤ c.toNat && c.toNat ≤ 31)

def isGap (c : Char) : Bool :=
  isSpace c && c != '\n'

def withLineFeeds : List Char → List Char
  | [] => []
  | '\r' :: '\n' :: rest => '\n' :: withLineFeeds rest
  | '\r' :: rest => '\n' :: withLineFeeds rest
  | c :: rest => c :: withLineFeeds rest

def skipGap (cs : List Char) : List Char :=
  cs.dropWhile isGap

def skipLine (cs : List Char) : List Char :=
  (cs.dropWhile (· != '\n')).drop 1

def skipExport (cs : List Char) : List Char :=
  match "export".toList.isPrefixOf cs, cs.drop 6 with
  | true, c :: rest => if isGap c then skipGap rest else cs
  | _, _ => cs

/-- A name, and what follows it; a line that begins as a comment has none. The name is missing, where
it must not be, if there is no result. -/
def name? (cs : List Char) : Option (Option String × List Char) :=
  match cs with
  | '#' :: _ => some (none, cs)
  | '\'' :: rest =>
    let name := rest.takeWhile (· != '\'')
    match rest.drop name.length with
    | _ :: after => if name.isEmpty then none else some (some (String.ofList name), after)
    | [] => none
  | _ =>
    let name := cs.takeWhile fun c => c != '=' && c != '#' && !isSpace c
    if name.isEmpty then none else some (some (String.ofList name), cs.drop name.length)

/-- The text up to the closing quote. A quote after a backslash closes only if no other does. -/
def quotedText? (mark : Char) (cs : List Char) : Option (List Char × List Char) :=
  go [] none cs
where
  go (read : List Char) (last : Option (List Char × List Char)) :
      List Char → Option (List Char × List Char)
    | [] => last
    | c :: rest =>
      if c == mark then
        if read.head? == some '\\' then go (c :: read) (some (read.reverse, rest)) rest
        else some (read.reverse, rest)
      else go (c :: read) last rest

def escapedChar? (mark c : Char) : Option Char :=
  if c == '\\' then some '\\'
  else if c == '\'' then some '\''
  else if mark == '\'' then none
  else
    match c with
    | '"' => some '"'
    | 'a' => some '\x07'
    | 'b' => some '\x08'
    | 'f' => some '\x0c'
    | 'n' => some '\n'
    | 'r' => some '\r'
    | 't' => some '\t'
    | 'v' => some '\x0b'
    | _ => none

def unescaped (mark : Char) : List Char → List Char
  | '\\' :: c :: rest =>
    match escapedChar? mark c with
    | some d => d :: unescaped mark rest
    | none => '\\' :: unescaped mark (c :: rest)
  | c :: rest => c :: unescaped mark rest
  | [] => []
termination_by cs => cs.length

def withoutComment : List Char → List Char
  | [] => []
  | c :: rest =>
    if isSpace c && (rest.dropWhile isSpace).head? == some '#' then []
    else c :: withoutComment rest

def withoutTrailing (cs : List Char) : List Char :=
  (cs.reverse.dropWhile isSpace).reverse

def value? (cs : List Char) : Option (String × List Char) :=
  let inQuotes := fun (mark : Char) (rest : List Char) =>
    (quotedText? mark rest).map fun (text, after) => (String.ofList (unescaped mark text), after)
  match cs with
  | '\'' :: rest => inQuotes '\'' rest
  | '"' :: rest => inQuotes '"' rest
  | _ =>
    let line := cs.takeWhile (· != '\n')
    some (String.ofList (withoutTrailing (withoutComment line)), cs.drop line.length)

def lineEnd? (cs : List Char) : Option (List Char) :=
  let rest := skipGap cs
  let rest := if rest.head? == some '#' then rest.dropWhile (· != '\n') else rest
  match skipGap rest with
  | [] => some []
  | '\n' :: rest => some rest
  | _ => none

def line (cs : List Char) : Option (String × Option String) × List Char :=
  match name? (skipExport cs) with
  | none => (none, skipLine (skipExport cs))
  | some (name, rest) =>
    let after := skipGap rest
    let read : Option (Option String × List Char) :=
      match after with
      | '=' :: rest => (value? (skipGap rest)).map fun (v, rest) => (some v, rest)
      | _ => some (none, after)
    match read with
    | none => (none, skipLine (skipGap (after.drop 1)))
    | some (v, rest) =>
      match lineEnd? rest with
      | some rest => (name.map fun n => (n, v), rest)
      | none => (none, skipLine rest)

def assignments : Nat → List Char → List (String × Option String)
  | 0, _ => []
  | fuel + 1, cs =>
    match cs.dropWhile isSpace with
    | [] => []
    | cs =>
      let (assignment, rest) := line cs
      assignment.toList ++ assignments fuel rest

/-! ## References to other variables -/

/-- A reference to a variable, by its name alone or with a default after a colon and a hyphen; the
dollar sign and the opening brace are read already. -/
def reference? (cs : List Char) : Option (String × String × List Char) :=
  let name := cs.takeWhile fun c => c != '}' && c != ':'
  match cs.drop name.length with
  | '}' :: rest => some (String.ofList name, "", rest)
  | ':' :: '-' :: rest =>
    let default := rest.takeWhile (· != '}')
    match rest.drop default.length with
    | _ :: after => some (String.ofList name, String.ofList default, after)
    | [] => none
  | _ => none

def resolved (look : String → Option String) : Nat → List Char → List Char
  | 0, cs => cs
  | _ + 1, [] => []
  | fuel + 1, '$' :: '{' :: rest =>
    match reference? rest with
    | some (name, default, after) =>
      ((look name).getD default).toList ++ resolved look fuel after
    | none => '$' :: resolved look fuel ('{' :: rest)
  | fuel + 1, c :: rest => c :: resolved look fuel rest

/-- The variables that a file names, each with the last value given to it, or none. A value may refer
to variables named before it, or else to those of the environment. -/
def read (env : List (String × String)) (text : String) : List (String × Option String) :=
  let cs := withLineFeeds text.toList
  let add := fun (set : ArrivalMap String (Option String)) (a : String × Option String) =>
    let look := fun name =>
      match set.get? name with
      | some v => some (v.getD "")
      | none => (env.find? (·.1 == name)).map (·.2)
    set.insert a.1 (a.2.map fun v => String.ofList (resolved look (v.length + 1) v.toList))
  ((assignments (cs.length + 1) cs).foldl add ∅).entries

end GridRobot.EnvFile

/-! ## Settings -/

namespace GridRobot

structure Settings where
  timeout : Float := 30
  seed : Option Int := none
  maxAttempts : Option Int := none
  tries : Nat := 100
  window : Nat := 5
  reportInterval : Float := 10
  preset : String := "default"
  outputDir : String := "puzzles"

namespace Settings

open Reading

def commonPart : String := "robopuzzle_"

def lastValue? (vars : List (String × Option String)) (name : String) : Option String :=
  (vars.reverse.find? fun v => v.1.map Char.toLower == commonPart ++ name).bind (·.2)

def value? (env : List (String × String)) (file : List (String × Option String)) (name : String) :
    Option String :=
  lastValue? (env.map fun v => (v.1, some v.2)) name <|> lastValue? file name

def positiveNumber (x : Checked Float) : Checked Float :=
  x.test (0 < ·) (.above "0")

def read (env : List (String × String)) (file : List (String × Option String)) :
    Checked Settings :=
  let d : Settings := {}
  let setting {α : Type} (name : String) (absent : α) (parse : Json → Checked α) : Checked α :=
    match value? env file name with
    | some text => (parse (.string text)).under name
    | none => .ok absent
  Settings.mk
    <$> setting "timeout_seconds" d.timeout
      (fun v => positiveNumber ((number v).test (· ≤ 3600) (.atMost "3600")))
    <*> setting "seed" d.seed (fun v => (integer v).map some)
    <*> setting "max_attempts" d.maxAttempts (fun v => (integerFrom 1 v).map some)
    <*> setting "max_mutation_attempts" d.tries
      (fun v => (integerBetween 1 10000 v).map Int.toNat)
    <*> setting "recent_forward_window" d.window
      (fun v => (integerBetween 1 50 v).map Int.toNat)
    <*> setting "progress_interval_seconds" d.reportInterval (fun v => positiveNumber (number v))
    <*> setting "preset" d.preset
      (fun v => match v with | .string s => .ok s | _ => .ok d.preset)
    <*> setting "output_dir" d.outputDir
      (fun v => match v with | .string s => .ok (Path.normal s) | _ => .ok d.outputDir)

end Settings

end GridRobot
