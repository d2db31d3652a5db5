import GridRobot.Command.Request
import GridRobot.Command.Solved
import GridRobot.Console.Report
import GridRobot.Player
import GridRobot.Random
import GridRobot.Search.Step
import GridRobot.Settings

namespace GridRobot.Command

structure SavedFile where
  path : String
  text : String

structure Report where
  printed : List Display
  saved : Option SavedFile := none
  status : Nat := 0

def statusOf (ok : Bool) : Nat :=
  if ok then 0 else 1

def Report.shown (r : Report) : List Display :=
  r.printed ++ r.saved.toList.map fun file => .info ("Saved to " ++ file.path)

/-! ## Searching -/

namespace Generation

variable {τ : Type} [Clock τ]

def presetName (g : Generation) (s : Settings) : String :=
  (g.preset.filter fun name => !name.isEmpty).getD s.preset

def configuration (g : Generation) (s : Settings) (file : Option FileText) : Except Problem Config :=
  match file with
  | some text => do (Config.ofText (← text.mapError .file)).mapError .load
  | none => (Config.ofPreset (g.presetName s)).mapError .load

def begin (g : Generation) (s : Settings) (c : Config) (fresh : Int) (clock : τ) :
    Search Twister τ :=
  let seed := ((g.seed <|> s.seed).getD fresh)
  let search : Search Twister τ := {
    rules := {
      config := c
      tries := s.tries
      window := s.window
      seed := some seed
      reportInterval := s.reportInterval }
    source := Twister.ofSeed seed
    clock }
  search.start (g.timeout.getD s.timeout) (g.maxAttempts <|> s.maxAttempts)

def report (g : Generation) (c : Config) (r : SearchResult) : Report where
  printed := r.display
  saved := g.output.map fun path => ⟨path, fileText c r⟩
  status := statusOf r.isSuccess

end Generation

/-! ## Verifying and viewing -/

namespace Solved

def verdictLine (a : Attempt) : Display :=
  match a.verdict with
  | .failed f measured required =>
    .error ("Executor: " ++ f.name ++ " (measured " ++ Decimal.briefText measured ++ ", required " ++
      Decimal.briefText required ++ ")")
  | _ => .info ("Executor: passed in " ++ toString a.trace.steps ++ " steps")

def gameLine (g : Game) : Display :=
  if g.status = .won then .info ("Player: won in " ++ toString g.steps ++ " steps")
  else .error ("Player: " ++ g.status.name ++ " after " ++ toString g.steps ++ " steps")

def played (s : Solved) : Game :=
  let player := Player.ofPuzzle s.puzzle (max s.config.maxSteps Player.defaultMaxSteps)
  (player.load s.solution).run.game

def report (s : Solved) : Except Problem Report := do
  let (run, _) := verify s.puzzle s.solution s.config (Twister.ofSeed 0)
  let attempt ← run.mapError .start
  match attempt.verdict with
  | .broken (.void e) => .error (.start e)
  | .broken .unreportable => .error .unreportable
  | verdict =>
    return {
      printed := [verdictLine attempt, gameLine s.played]
      status := statusOf (verdict.isPassed && s.played.status == .won) }

end Solved

def viewReport (path : String) (members : List (String × Json)) : Except Problem Report := do
  let puzzle ← puzzleOf members
  let solution := member members "solution"
  let shown := [puzzle.display (Path.name path)]
  if solution.isTruthy then return { printed := shown ++ [(← programOf solution).display] }
  else return { printed := shown }

/-! ## All commands -/

namespace Request

def perform {τ : Type} [Clock τ] (settings : Settings) (file : String → FileText) (fresh : Int)
    (clock : τ) (fuel : Nat) : Request → Except Problem Report
  | .generate g => do
    let c ← g.configuration settings (g.config.map file)
    let search := (g.begin settings c fresh clock).run fuel
    return g.report c (search.result.getD { outcome := .stopped, attempts := search.attempts })
  | .verify path preset => do
    (← Solved.ofMembers (← readMembers path (file path)) preset).report
  | .view path => do viewReport path (← readMembers path (file path))
  | .presets => return { printed := [Preset.display Preset.all] }

end Request

end GridRobot.Command
