import GridRobot.Config.Basic
import GridRobot.Config.Reading
import GridRobot.Json.Basic

namespace GridRobot

open Reading

def memberNames : Json → List String
  | .object members => members.map (·.1)
  | _ => []

namespace PerRoutine

def toRecord (v : PerRoutine Nat) : Json :=
  .object (v.entries.map fun (r, n) => (r.name, .nat n))

end PerRoutine

namespace ColorRatios

def toRecord (c : ColorRatios) : Json :=
  .object [("red", .float c.red), ("green", .float c.green), ("blue", .float c.blue)]

def ofRecord : Json → Checked ColorRatios
  | .object members =>
    closed members (memberNames (toRecord {})) (ColorRatios.mk
      <$> field members "red" 1 weight
      <*> field members "green" 1 weight
      <*> field members "blue" 1 weight)
  | _ => .fail (.notModel "ColorRatios")

end ColorRatios

namespace ActionWeights

def toRecord (w : ActionWeights) : Json :=
  .object [("forward", .float w.forward), ("turn", .float w.turn), ("functionCall", .float w.call),
    ("paint", .float w.paint)]

def ofRecord : Json → Checked ActionWeights
  | .object members =>
    closed members (memberNames (toRecord {})) (ActionWeights.mk
      <$> field members "forward" 3 weight
      <*> field members "turn" 2 weight
      <*> field members "functionCall" 3 weight
      <*> field members "paint" 2 weight)
  | _ => .fail (.notModel "InstructionWeights")

end ActionWeights

namespace Config

def slotsOfRecord : Json → Checked (PerRoutine Nat)
  | .object members =>
    let length (r : Routine) : Checked Nat :=
      field members r.name 10 fun v => (integerBetween 0 maxSlots v).map Int.toNat
    closed members (Routine.all.map Routine.name) (PerRoutine.mk
      <$> length .f1 <*> length .f2 <*> length .f3 <*> length .f4 <*> length .f5)
  | _ => .fail (.notModel "SlotsPerFunction")

def toRecord (c : Config) : Json :=
  .object [
    ("slotsPerFunction", c.slotsPerRoutine.toRecord),
    ("maxSteps", .nat c.maxSteps),
    ("gridSize", .nat c.gridSize),
    ("colorRatios", c.colorRatios.toRecord),
    ("minCoveragePercent", .float c.minCoverage),
    ("conditionalPercent", .float c.conditionalPercent),
    ("instructionWeights", c.weights.toRecord),
    ("minTiles", .nat c.minTiles),
    ("minBoundingBox", .nat c.minBoundingBox),
    ("minTurns", .nat c.minTurns),
    ("maxDenseTiles", .nat c.maxDenseTiles),
    ("maxAvgExecutionsPerSlot", .float c.maxAverageExecutions),
    ("minStackDepth", .nat c.minStackDepth),
    ("minSelfCalls", .nat c.minSelfCalls),
    ("autoRestartAfter", .nat c.restartAfter),
    ("minPathTraceRatio", .float c.minRetraceRatio),
    ("disableLoopCheck", .bool c.ignoreLoops),
    ("minPathLength", .nat c.minPathLength),
    ("minConditionals", .nat c.minConditionals),
    ("minPaintRevisits", .nat c.minPaintRevisits),
    ("maxUnnecessaryPaints", .int c.maxUnneededPaints)]

def ofRecord : Json → Checked Config
  | .object members =>
    let d : Config := {}
    closed members (memberNames d.toRecord) (Config.mk
      <$> field members "slotsPerFunction" d.slotsPerRoutine slotsOfRecord
      <*> field members "maxSteps" d.maxSteps positive
      <*> field members "gridSize" d.gridSize
        (fun v => (integerBetween 1 maxGridSize v).map Int.toNat)
      <*> field members "colorRatios" d.colorRatios ColorRatios.ofRecord
      <*> field members "minCoveragePercent" d.minCoverage percent
      <*> field members "conditionalPercent" d.conditionalPercent percent
      <*> field members "instructionWeights" d.weights ActionWeights.ofRecord
      <*> field members "minTiles" d.minTiles natural
      <*> field members "minBoundingBox" d.minBoundingBox natural
      <*> field members "minTurns" d.minTurns natural
      <*> field members "maxDenseTiles" d.maxDenseTiles natural
      <*> field members "maxAvgExecutionsPerSlot" d.maxAverageExecutions weight
      <*> field members "minStackDepth" d.minStackDepth natural
      <*> field members "minSelfCalls" d.minSelfCalls natural
      <*> field members "autoRestartAfter" d.restartAfter positive
      <*> field members "minPathTraceRatio" d.minRetraceRatio weight
      <*> field members "disableLoopCheck" d.ignoreLoops truth
      <*> field members "minPathLength" d.minPathLength natural
      <*> field members "minConditionals" d.minConditionals natural
      <*> field members "minPaintRevisits" d.minPaintRevisits natural
      <*> field members "maxUnnecessaryPaints" d.maxUnneededPaints (integerFrom (-1)))
  | _ => .fail (.notModel "SimulationConfig")

/-- A configuration takes no assignment after it is built. -/
def assign (_ : Config) (key : String) (_ : Json) : Checked Config :=
  ⟨.error [⟨[key], .frozen⟩]⟩

end Config

/-! ## Loading -/

inductive LoadError where
  | unknownPreset (name : String)
  | notJson
  | invalid (issues : List Issue)

namespace LoadError

def presetNames : List Json :=
  ((Preset.all.map Preset.name).mergeSort fun a b => !decide (b < a)).map Json.string

def unknownPresetText (name : String) : String :=
  Text.quoted ("Unknown preset " ++ Text.quoted name ++ "; choose from " ++
    (Json.array presetNames).shown)

end LoadError

namespace Config

def ofPreset (name : String) : Except LoadError Config :=
  match Preset.ofName? name with
  | some p => .ok p.config
  | none => .error (.unknownPreset name)

def checked (record : Json) : Except LoadError Config :=
  (ofRecord record).result.mapError .invalid

def profileRecord (v : Json) : Json :=
  match v.get? "config" with
  | some (.object members) => .object members
  | _ => v

def ofText (text : String) : Except LoadError Config :=
  match Json.parse? text with
  | some v => checked (profileRecord v)
  | none => .error .notJson

end Config

end GridRobot
