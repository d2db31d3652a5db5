import GridRobot.Command.Perform
import GridRobot.Console.Display
import GridRobot.Settings

namespace GridRobot.Command

def fileError (path : String) : IO.Error → FileError
  | .noFileOrDirectory .. => .missing path
  | .alreadyExists .. => .occupied path
  | .inappropriateType _ code _ => if code = 21 then .isDirectory path else .notDirectory path
  | e => ⟨5, toString e, path⟩

def readText (path : String) : IO FileText := do
  try return .ok (← IO.FS.readFile path)
  catch e => return .error (fileError path e)

def attempt (path : String) (act : IO Unit) : IO (Except FileError Unit) := do
  try
    act
    return .ok ()
  catch e => return .error (fileError path e)

def writeText (file : SavedFile) : IO (Except FileError Unit) := do
  let parent := Path.parent file.path
  match ← attempt parent (IO.FS.createDirAll parent) with
  | .ok _ => attempt file.path (IO.FS.writeFile file.path file.text)
  | .error e => return .error e

def environment : IO (List (String × String)) := do
  let text ← try IO.FS.readFile "/proc/self/environ" catch _ => pure ""
  return (text.splitOn "\x00").filterMap fun entry =>
    match entry.splitOn "=" with
    | name :: rest@(_ :: _) => some (name, "=".intercalate rest)
    | _ => none

def readSettings : IO (Checked Settings) := do
  let env ← environment
  let file ← readText ".env"
  return Settings.read env (EnvFile.read env (file.toOption.getD ""))

def seconds : IO Float := do
  return Float.ofNat (← IO.monoNanosNow) / 1000000000

/-- Goes on with a search until it has a result, the clock being set anew before each step. -/
partial def goOn (s : Search Twister Stopwatch) : IO SearchResult := do
  match s.result with
  | some r => return r
  | none =>
    let clock : Stopwatch := ⟨← seconds⟩
    goOn { s with clock }.step

def say (items : List Display) : IO Unit :=
  items.forM fun item => item.lines.forM IO.println

def deliver (r : Report) : IO UInt32 := do
  match r.saved with
  | none =>
    say r.shown
    return r.status.toUInt32
  | some file =>
    match ← writeText file with
    | .ok _ =>
      say r.shown
      return r.status.toUInt32
    | .error e =>
      say r.printed
      IO.eprintln e.message
      return 1

def fail (e : Problem) : IO UInt32 := do
  if e.isInput then
    say [.error e.message]
    return Problem.status.toUInt32
  else
    IO.eprintln e.message
    return 1

def generate (g : Generation) (s : Settings) : IO UInt32 := do
  let file ← g.config.mapM readText
  match g.configuration s file with
  | .error e => fail e
  | .ok c =>
    let fresh ← IO.rand 0 2147483647
    let result ← goOn (g.begin s c fresh ⟨← seconds⟩)
    deliver (g.report c result)

def answer (settings : Settings) (request : Request) : IO UInt32 := do
  match request with
  | .generate g => generate g settings
  | .verify path _ | .view path =>
    let text ← readText path
    finish (request.perform settings (fun _ => text) 0 (⟨0⟩ : Stopwatch) 0)
  | .presets => finish (request.perform settings (fun p => .error (.missing p)) 0 (⟨0⟩ : Stopwatch) 0)
where
  finish : Except Problem Report → IO UInt32
    | .ok r => deliver r
    | .error e => fail e

def usage : String :=
  "Usage: gridrobot (generate [OPTIONS] | verify PATH [OPTIONS] | show PATH | presets)"

end GridRobot.Command

open GridRobot GridRobot.Command

def main (args : List String) : IO UInt32 := do
  match (← readSettings).result with
  | .error issues =>
    issues.forM fun i => IO.eprintln i.line
    return 1
  | .ok settings =>
    match Request.ofArguments args with
    | .error refusal =>
      IO.eprintln usage
      return refusal.status.toUInt32
    | .ok request => answer settings request
