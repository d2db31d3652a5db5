import GridRobot.Repair.Case

namespace GridRobot.Strategy

open Case RandomSource

variable {σ : Type} [RandomSource σ]

def isForward (i : Instruction) : Bool :=
  i.action == .forward

def isTurn (i : Instruction) : Bool :=
  i.action.isTurn

def isPaint (i : Instruction) : Bool :=
  i.action.isPaint

def isCall (i : Instruction) : Bool :=
  i.action.isCall

def isUnconditional (i : Instruction) : Bool :=
  i.condition.isNone

def isPlain (i : Instruction) : Bool :=
  !isForward i && !isCall i

/-! ## Running off the edge -/

def boundaryOffender : Strategy σ := fun c => do
  match c.evidence.boundarySlot with
  | none => return false
  | some a =>
    if (← (← get).read a).isNone then return false
    else
      c.onRoll .boundaryDirect do
        let i ← (← get).readFilled a
        let roll ← drawn unit
        let toTurn := c.chance .boundaryToTurn
        let addCondition := toTurn + c.chance .boundaryAddCondition
        let recolor := addCondition + c.chance .boundaryRecolor
        if roll < toTurn then retype a (← drawTurn)
        else if roll < addCondition then
          if i.condition.isNone then recondition a (some c.commonColor) else return false
        else if roll < recolor then recondition a (some (← drawn (Color.drawOther i.condition)))
        else return false

def boundaryEarlierForward : Strategy σ := fun c =>
  c.onOneRolled c.evidence.recentForwards.dropLast .boundaryEarlierForward fun a => do
    retype a (← drawTurn)

/-! ## Revisits of painted tiles -/

def revisitsAddPaint : Strategy σ := fun c =>
  c.onRoll .revisitsAddPaint do
    onOne (← c.executedWhere fun i => !isPaint i) fun a => do
      retype a (← drawn Action.drawPaint)

def revisitsConditionalMove : Strategy σ := fun c =>
  c.onRoll .revisitsConditionalMove do
    if c.unexecuted.isEmpty then return false
    else
      let action ← c.drawMove
      place (.ofSlot (← pick c.unexecuted)) action (some c.commonColor)

def revisitsTurnAfterPaint : Strategy σ := fun c => do
  c.onOneRolled (← c.executedWhere isPaint) .revisitsTurnAfterPaint fun a => do
    let (_, slots) ← c.program.routineAt a.routine
    if (slots.length : Int) ≤ a.index + 1 then return false
    else place { a with index := a.index + 1 } (← drawTurn) none

def placeSelfCall (c : Case) (s : Slot) : Repair σ Bool :=
  place (.ofSlot s) (.call s.routine) (some c.commonColor)

def revisitsSelfCall : Strategy σ := fun c =>
  c.onRoll .revisitsSelfCall (onOne c.unexecuted (placeSelfCall c))

def conditionExecuted (o : Odds) : Strategy σ := fun c => do
  c.onOneRolled (← c.executedWhere isUnconditional) o fun a => recondition a (some c.commonColor)

/-! ## Conditional instructions -/

def conditionalsRecolorUnexecuted : Strategy σ := fun c =>
  c.onOneRolled (c.unexecutedWhere fun i => i.condition.isSome) .conditionalsRecolorUnexecuted
    fun s => recondition (.ofSlot s) (some c.commonColor)

def conditionalsFillUnexecuted : Strategy σ := fun c => do
  if c.unexecuted.isEmpty then return false
  else
    let action ← c.drawAction
    place (.ofSlot (← pick c.unexecuted)) action (some c.commonColor)

/-! ## Tiles -/

def plainToForward (o : Odds) : Strategy σ := fun c => do
  c.onOneRolled (← c.executedWhere isPlain) o fun a => retype a .forward

def tilesForwardToTurn : Strategy σ := fun c => do
  let forwards ← c.executedWhere isForward
  if forwards.length ≤ 3 then return false
  else c.onOneRolled forwards .tilesForwardToTurn fun a => do retype a (← drawTurn)

def unconditionalForward (o : Odds) : Strategy σ := fun c =>
  c.dropConditionWhere isForward o

def fillWithCall : Strategy σ := fun c => do
  if c.config.callable.isEmpty then return false
  else
    onOne c.unexecuted fun s => do place (.ofSlot s) (.call (← pick c.config.callable)) none

def tilesExtendCall : Strategy σ := fun c =>
  c.onRoll .tilesExtendCall (fillWithCall c)

def unexecutedPair? (c : Case) : Option Slot :=
  c.unexecuted.find? fun s => c.unexecuted.contains { s with index := s.index + 1 }

def tilesForwardTurnPair : Strategy σ := fun c =>
  if c.unexecuted.length < 2 then return false
  else
    c.onRoll .tilesForwardTurnPair do
      match unexecutedPair? c with
      | none => return false
      | some s =>
        let _ ← place (.ofSlot s) .forward none
        place (.ofSlot { s with index := s.index + 1 }) (← drawTurn) none

def fillWithForward : Strategy σ := fun c =>
  onOne c.unexecuted fun s => place (.ofSlot s) .forward none

/-! ## Retraced path -/

def traceToForward : Strategy σ := fun c =>
  c.onRoll .traceToForward do
    onOne (← c.executedWhere fun i => isPlain i && !isTurn i) fun a => retype a .forward

def anyToTurn : Strategy σ := fun c => do
  onOne (← c.executedWhere fun i => !isTurn i) fun a => do retype a (← drawTurn)

def traceToTurn : Strategy σ := fun c =>
  c.onRoll .traceToTurn (anyToTurn c)

def traceFillUnexecuted : Strategy σ := fun c => do
  if c.unexecuted.isEmpty then return false
  else
    let action ← c.drawMove
    place (.ofSlot (← pick c.unexecuted)) action none

/-! ## Turns -/

def turnsForwardToTurn : Strategy σ := fun c => do
  c.onOneRolled (← c.executedWhere isForward) .turnsForwardToTurn fun a => do
    retype a (← drawTurn)

def isNextToExecuted (c : Case) (s : Slot) : Bool :=
  let neighbour := fun (i : Int) => c.evidence.executed.contains ⟨s.routine.name, i⟩
  neighbour (s.index - 1) || neighbour (s.index + 1)

def turnsAdjacentTurn : Strategy σ := fun c =>
  if c.unexecuted.isEmpty then return false
  else
    c.onRoll .turnsAdjacentTurn do
      onOne (c.unexecuted.filter (isNextToExecuted c)) fun s => do
        place (.ofSlot s) (← drawTurn) none

def turnsUnconditionalTurn : Strategy σ := fun c =>
  c.dropConditionWhere isTurn .turnsUnconditionalTurn

/-! ## Stack depth -/

def depthAddCall : Strategy σ := fun c => do
  let candidates ← c.executedWhere fun i => !isCall i
  if c.config.callable.isEmpty then return false
  else
    c.onOneRolled candidates .depthAddCall fun a => do
      retype a (.call (← pick c.config.callable))

def depthUnconditionalCall : Strategy σ := fun c =>
  c.dropConditionWhere isCall .depthUnconditionalCall

/-! ## Self-calls -/

def selfCallsConvertExecuted : Strategy σ := fun c => do
  c.onOneRolled (← c.executedWhere fun i => !isCall i) .selfCallsConvertExecuted fun a =>
    place a (.ofName a.routine) (some c.commonColor)

def selfCallsFillUnexecuted : Strategy σ := fun c =>
  c.onOneRolled c.unexecuted .selfCallsFillUnexecuted (placeSelfCall c)

def isMiscoloredSelfCall (c : Case) (s : Slot) : Bool :=
  (c.program.at? s).any fun i =>
    i.action == .call s.routine && i.condition.isSome && i.condition != some c.commonColor

def selfCallsRecolor : Strategy σ := fun c =>
  onOne (c.unexecuted.filter (isMiscoloredSelfCall c)) fun s =>
    recondition (.ofSlot s) (some c.commonColor)

/-! ## Unneeded paints -/

def paintsReplace : Strategy σ := fun c => do
  let paints ← c.executedWhere isPaint
  if paints.isEmpty then return false
  else
    c.onRoll .paintsReplacePaint do
      let action ← if ← drawn (happens 0.5) then pure .forward else drawTurn
      retype (← pick paints) action

def paintsDependOnPaint : Strategy σ := fun c => do
  let painted := Color.all.filter fun color => c.evidence.painted.contains color
  let candidates ← c.executedWhere fun i => isUnconditional i && !isPaint i
  if painted.isEmpty then return false
  else
    c.onOneRolled candidates .paintsDependOnPaint fun a => do
      recondition a (some (← pick painted))

def paintsRecolor : Strategy σ := fun c => do
  onOne (← c.executedWhere isPaint) fun a => do
    let present ← c.program.readFilled a
    retype a (← pick (Action.paints.filter (· != present.action)))

/-! ## Any failure -/

def genericUnblockCall : Strategy σ := fun c =>
  let blocked := c.program.blocked
  c.onOneRolled (c.unexecuted.filter blocked.contains) .genericUnblockCall fun s => do
    match (← get).callerBefore? s.routine s.index with
    | some caller => recondition (.ofSlot caller) (some c.commonColor)
    | none => return false

def genericDropCondition : Strategy σ := fun c =>
  c.onOneRolled c.unexecuted .genericDropCondition fun s => do
    match (← get).at? s with
    | some ⟨_, some _⟩ => recondition (.ofSlot s) none
    | _ => return false

def guardedCalls (c : Case) (r : Routine) : List Slot :=
  c.program.slots.filter fun s =>
    (c.program.at? s).any fun i => i.action == .call r && i.condition.isSome

def genericCallUncalled : Strategy σ := fun c =>
  c.onOneRolled (c.config.callable.filter fun r => !c.evidence.called.get r) .genericCallUncalled
    fun r =>
      if (guardedCalls c r).isEmpty then
        onOne c.evidence.executed fun a => place a (.call r) none
      else onOne (guardedCalls c r) fun s => recondition (.ofSlot s) none

def genericRecolor : Strategy σ := fun c =>
  c.onOneRolled c.unexecuted .genericRecolor fun s => do
    match (← get).at? s with
    | some i =>
      if i.condition = some c.commonColor then return false
      else recondition (.ofSlot s) (some c.commonColor)
    | none => return false

def fillAtRandom (pool : Case → List Slot) : Strategy σ := fun c => do
  if (pool c).isEmpty then return false
  else
    let action ← c.drawAction
    let condition ← drawn (Color.drawCondition c.config.conditionalPercent none)
    place (.ofSlot (← pick (pool c))) action condition

/-! ## Families -/

def lengthenPath : List (Strategy σ) :=
  [plainToForward .pathToForward, unconditionalForward .pathUnconditionalForward, fillWithForward]

def family : Failure → List (Strategy σ)
  | .boundary => [boundaryOffender, boundaryEarlierForward]
  | .minPaintRevisits =>
    [revisitsAddPaint, revisitsConditionalMove, revisitsTurnAfterPaint, revisitsSelfCall,
      conditionExecuted .revisitsConditionExecuted]
  | .minConditionals =>
    [conditionExecuted .conditionalsConditionExecuted, conditionalsRecolorUnexecuted,
      conditionalsFillUnexecuted]
  | .minTiles =>
    [plainToForward .tilesToForward, tilesForwardToTurn,
      unconditionalForward .tilesUnconditionalForward, tilesExtendCall, tilesForwardTurnPair,
      fillWithForward]
  | .pathTraceRatio => [traceToForward, traceToTurn, traceFillUnexecuted]
  | .minPathLength | .minBoundingBox => lengthenPath
  | .minTurns => [turnsForwardToTurn, turnsAdjacentTurn, turnsUnconditionalTurn, anyToTurn]
  | .minStackDepth => [depthAddCall, depthUnconditionalCall, fillWithCall]
  | .minSelfCalls => [selfCallsConvertExecuted, selfCallsFillUnexecuted, selfCallsRecolor]
  | .unnecessaryPaint => [paintsReplace, paintsDependOnPaint, paintsRecolor]
  | .coverage | .loop | .density | .other => []

def generic : List (Strategy σ) :=
  [genericUnblockCall, genericDropCondition, genericCallUncalled, genericRecolor,
    fillAtRandom Case.unexecuted, fillAtRandom fun c => c.program.slots]

end GridRobot.Strategy

/-! ## Repairs -/

namespace GridRobot

open RandomSource

variable {σ : Type} [RandomSource σ]

def firstApplying (c : Case) : List (Strategy σ) → Repair σ Bool
  | [] => return false
  | s :: rest => do
    if ← s c then return true else firstApplying c rest

/-- Repairs of a program that ran off the edge are always let through. -/
def opensGate (c : Case) (f : Failure) : StateM σ Bool :=
  if f = .boundary then return true else happens (c.policy.gate f.name)

def strategies (c : Case) (failure : Option Failure) : StateM σ (List (Strategy σ)) := do
  match failure with
  | none => return Strategy.generic
  | some f =>
    let aimed := Strategy.family f
    if aimed.isEmpty then return Strategy.generic
    else if ← opensGate c f then return aimed ++ Strategy.generic
    else return Strategy.generic

def repair (c : Case) (failure : Option Failure) : ExceptT AddressError (StateM σ) Program := do
  let offered ← ExceptT.lift (strategies c failure)
  let (_, copy) ← (firstApplying c offered).run c.program
  return copy

end GridRobot
