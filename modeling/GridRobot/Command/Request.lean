import GridRobot.Settings
import GridRobot.Text.Integer
import GridRobot.Text.Number

/-!
Arguments of a command line: options, each with a value or a switch without one, and the positional
arguments among them. An option is written by its name after two hyphens, with its value behind an
equals sign or as the next argument; one that has a letter is also written by it after a single hyphen,
and several letters may share the hyphen. Two hyphens alone end the options.
-/

namespace GridRobot.Command

structure OptionForm where
  name : String
  letter : Option Char := none
  hasValue : Bool := true
  deriving DecidableEq

/-- The options given, in their order, and the positional arguments. A switch has an empty value. -/
structure Arguments where
  given : List (OptionForm × String) := []
  positional : List String := []

structure Asked where
  given : List (OptionForm × String) := []
  pending : Option OptionForm := none

/-- A hyphen alone is positional. -/
def isOption (arg : String) : Bool :=
  match arg.toList with
  | '-' :: _ :: _ => true
  | _ => false

def letters? (forms : List OptionForm) : List Char → Option Asked
  | [] => some {}
  | c :: rest => do
    let form ← forms.find? fun f => f.letter == some c
    if form.hasValue then
      if rest.isEmpty then return { pending := some form }
      else return { given := [(form, String.ofList rest)] }
    else
      let asked ← letters? forms rest
      return { asked with given := (form, "") :: asked.given }

def named? (form : OptionForm) (value : Option String) : Option Asked :=
  match form.hasValue, value with
  | true, some value => some { given := [(form, value)] }
  | true, none => some { pending := some form }
  | false, none => some { given := [(form, "")] }
  | false, some _ => none

def splitValue (cs : List Char) : String × Option String :=
  let key := cs.takeWhile (· != '=')
  (String.ofList key, (cs.drop key.length).head?.map fun _ => String.ofList (cs.drop (key.length + 1)))

def asked? (forms : List OptionForm) (arg : String) : Option Asked :=
  let (key, value) := splitValue arg.toList
  match forms.find? fun f => "--" ++ f.name == key with
  | some form => named? form value
  | none =>
    match arg.toList with
    | '-' :: '-' :: _ => none
    | cs => letters? forms (cs.drop 1)

namespace Arguments

def prepend (given : List (OptionForm × String)) (a : Arguments) : Arguments :=
  { a with given := given ++ a.given }

/-- Reads arguments by the forms of the options. Unless options may be `mixed` with positional
arguments, they end at the first of these. -/
def read? (forms : List OptionForm) (mixed : Bool) : List String → Option Arguments
  | [] => some {}
  | arg :: rest =>
    if arg == "--" then some { positional := rest }
    else if isOption arg then
      match asked? forms arg with
      | none => none
      | some ⟨given, none⟩ => (read? forms mixed rest).map (prepend given)
      | some ⟨given, some form⟩ =>
        match rest with
        | [] => none
        | value :: rest => (read? forms mixed rest).map (prepend (given ++ [(form, value)]))
    else if mixed then
      (read? forms mixed rest).map fun a => { a with positional := arg :: a.positional }
    else some { positional := arg :: rest }

def value? (a : Arguments) (name : String) : Option String :=
  (a.given.reverse.find? fun g => g.1.name == name).map (·.2)

def has (a : Arguments) (name : String) : Bool :=
  a.given.any fun g => g.1.name == name

end Arguments

structure Generation where
  preset : Option String := none
  config : Option String := none
  timeout : Option Float := none
  seed : Option Int := none
  maxAttempts : Option Int := none
  output : Option String := none

inductive Request where
  | generate (g : Generation)
  | verify (path preset : String)
  | view (path : String)
  | presets

inductive Refusal where
  | help
  | misuse
  deriving DecidableEq

def Refusal.status : Refusal → Nat
  | .help => 0
  | .misuse => 2

/-! ## Options -/

def helpForm : OptionForm := { name := "help", hasValue := false }

def presetForm : OptionForm := { name := "preset", letter := some 'p' }

def verboseForm : OptionForm := { name := "verbose", letter := some 'v', hasValue := false }

def generateForms : List OptionForm := [
  presetForm,
  { name := "config", letter := some 'c' },
  { name := "timeout", letter := some 't' },
  { name := "seed" },
  { name := "max-attempts", letter := some 'n' },
  { name := "output", letter := some 'o' },
  verboseForm
]

def arguments (forms : List OptionForm) (mixed : Bool) (args : List String) :
    Except Refusal Arguments :=
  match Arguments.read? (helpForm :: forms) mixed args with
  | none => .error .misuse
  | some a => if a.has helpForm.name then .error .help else .ok a

def Arguments.parsed? (a : Arguments) (name : String) (parse : String → Option α) :
    Except Refusal (Option α) :=
  match a.value? name with
  | none => .ok none
  | some text =>
    match parse text with
    | some v => .ok (some v)
    | none => .error .misuse

def Generation.ofArguments (a : Arguments) : Except Refusal Generation := do
  let timeout ← a.parsed? "timeout" Text.real?
  let seed ← a.parsed? "seed" Text.integer?
  let maxAttempts ← a.parsed? "max-attempts" Text.integer?
  if a.positional.isEmpty then
    return {
      preset := a.value? "preset"
      config := (a.value? "config").map Path.normal
      timeout
      seed
      maxAttempts
      output := (a.value? "output").map Path.normal }
  else .error .misuse

def Arguments.path (a : Arguments) : Except Refusal String :=
  match a.positional with
  | [path] => .ok (Path.normal path)
  | _ => .error .misuse

namespace Request

def ofCommand (command : String) (rest : List String) : Except Refusal Request :=
  if command = "generate" then do
    return .generate (← Generation.ofArguments (← arguments generateForms true rest))
  else if command = "verify" then do
    let a ← arguments [presetForm, verboseForm] true rest
    return .verify (← a.path) ((a.value? presetForm.name).getD "default")
  else if command = "show" then do
    return .view (← (← arguments [] true rest).path)
  else if command = "presets" then do
    let a ← arguments [] true rest
    if a.positional.isEmpty then return .presets else .error .misuse
  else .error .misuse

def ofArguments (args : List String) : Except Refusal Request := do
  match (← arguments [] false args).positional with
  | [] => .error .misuse
  | command :: rest => ofCommand command rest

end Request

end GridRobot.Command
