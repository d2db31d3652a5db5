import GridRobot.Run.Evaluation

namespace GridRobot

inductive Odds where
  | boundaryDirect
  | boundaryToTurn
  | boundaryAddCondition
  | boundaryRecolor
  | boundaryEarlierForward
  | revisitsAddPaint
  | revisitsConditionalMove
  | revisitsTurnAfterPaint
  | revisitsSelfCall
  | revisitsConditionExecuted
  | conditionalsConditionExecuted
  | conditionalsRecolorUnexecuted
  | tilesToForward
  | tilesForwardToTurn
  | tilesUnconditionalForward
  | tilesExtendCall
  | tilesForwardTurnPair
  | traceToForward
  | traceToTurn
  | pathToForward
  | pathUnconditionalForward
  | turnsForwardToTurn
  | turnsAdjacentTurn
  | turnsUnconditionalTurn
  | depthAddCall
  | depthUnconditionalCall
  | selfCallsConvertExecuted
  | selfCallsFillUnexecuted
  | paintsReplacePaint
  | paintsDependOnPaint
  | genericUnblockCall
  | genericDropCondition
  | genericCallUncalled
  | genericRecolor
  | genericConditionalMoveForward
  deriving DecidableEq

namespace Odds

def name : Odds → String
  | .boundaryDirect => "boundary.direct"
  | .boundaryToTurn => "boundary.to_turn"
  | .boundaryAddCondition => "boundary.add_condition"
  | .boundaryRecolor => "boundary.recolor"
  | .boundaryEarlierForward => "boundary.earlier_forward"
  | .revisitsAddPaint => "revisits.add_paint"
  | .revisitsConditionalMove => "revisits.conditional_move"
  | .revisitsTurnAfterPaint => "revisits.turn_after_paint"
  | .revisitsSelfCall => "revisits.self_call"
  | .revisitsConditionExecuted => "revisits.condition_executed"
  | .conditionalsConditionExecuted => "conditionals.condition_executed"
  | .conditionalsRecolorUnexecuted => "conditionals.recolor_unexecuted"
  | .tilesToForward => "tiles.to_forward"
  | .tilesForwardToTurn => "tiles.forward_to_turn"
  | .tilesUnconditionalForward => "tiles.unconditional_forward"
  | .tilesExtendCall => "tiles.extend_call"
  | .tilesForwardTurnPair => "tiles.forward_turn_pair"
  | .traceToForward => "trace.to_forward"
  | .traceToTurn => "trace.to_turn"
  | .pathToForward => "path.to_forward"
  | .pathUnconditionalForward => "path.unconditional_forward"
  | .turnsForwardToTurn => "turns.forward_to_turn"
  | .turnsAdjacentTurn => "turns.adjacent_turn"
  | .turnsUnconditionalTurn => "turns.unconditional_turn"
  | .depthAddCall => "depth.add_call"
  | .depthUnconditionalCall => "depth.unconditional_call"
  | .selfCallsConvertExecuted => "self_calls.convert_executed"
  | .selfCallsFillUnexecuted => "self_calls.fill_unexecuted"
  | .paintsReplacePaint => "paints.replace_paint"
  | .paintsDependOnPaint => "paints.depend_on_paint"
  | .genericUnblockCall => "generic.unblock_call"
  | .genericDropCondition => "generic.drop_condition"
  | .genericCallUncalled => "generic.call_uncalled"
  | .genericRecolor => "generic.recolor"
  | .genericConditionalMoveForward => "generic.conditional_move_forward"

def standard : Odds → Float
  | .boundaryDirect => 0.6
  | .boundaryToTurn => 0.35
  | .boundaryAddCondition => 0.30
  | .boundaryRecolor => 0.20
  | .boundaryEarlierForward => 0.3
  | .revisitsAddPaint => 0.3
  | .revisitsConditionalMove => 0.4
  | .revisitsTurnAfterPaint => 0.35
  | .revisitsSelfCall => 0.3
  | .revisitsConditionExecuted => 0.4
  | .conditionalsConditionExecuted => 0.6
  | .conditionalsRecolorUnexecuted => 0.5
  | .tilesToForward => 0.4
  | .tilesForwardToTurn => 0.35
  | .tilesUnconditionalForward => 0.25
  | .tilesExtendCall => 0.3
  | .tilesForwardTurnPair => 0.4
  | .traceToForward => 0.5
  | .traceToTurn => 0.5
  | .pathToForward => 0.5
  | .pathUnconditionalForward => 0.3
  | .turnsForwardToTurn => 0.5
  | .turnsAdjacentTurn => 0.5
  | .turnsUnconditionalTurn => 0.3
  | .depthAddCall => 0.5
  | .depthUnconditionalCall => 0.3
  | .selfCallsConvertExecuted => 0.5
  | .selfCallsFillUnexecuted => 0.5
  | .paintsReplacePaint => 0.5
  | .paintsDependOnPaint => 0.5
  | .genericUnblockCall => 0.25
  | .genericDropCondition => 0.35
  | .genericCallUncalled => 0.4
  | .genericRecolor => 0.5
  | .genericConditionalMoveForward => 0.7

def all : List Odds := [
  .boundaryDirect, .boundaryToTurn, .boundaryAddCondition, .boundaryRecolor,
  .boundaryEarlierForward, .revisitsAddPaint, .revisitsConditionalMove, .revisitsTurnAfterPaint,
  .revisitsSelfCall, .revisitsConditionExecuted, .conditionalsConditionExecuted,
  .conditionalsRecolorUnexecuted, .tilesToForward, .tilesForwardToTurn,
  .tilesUnconditionalForward, .tilesExtendCall, .tilesForwardTurnPair, .traceToForward,
  .traceToTurn, .pathToForward, .pathUnconditionalForward, .turnsForwardToTurn,
  .turnsAdjacentTurn, .turnsUnconditionalTurn, .depthAddCall, .depthUnconditionalCall,
  .selfCallsConvertExecuted, .selfCallsFillUnexecuted, .paintsReplacePaint,
  .paintsDependOnPaint, .genericUnblockCall, .genericDropCondition, .genericCallUncalled,
  .genericRecolor, .genericConditionalMoveForward]

def ofName? (s : String) : Option Odds :=
  all.find? fun o => o.name == s

end Odds

def Failure.standardGate : Failure → Option Float
  | .minPaintRevisits | .minConditionals | .minTiles => some 0.8
  | .pathTraceRatio | .minPathLength | .minBoundingBox | .minTurns | .minStackDepth
  | .minSelfCalls | .unnecessaryPaint => some 0.7
  | .boundary | .coverage | .loop | .density | .other => none

structure Policy where
  gates : List (String × Float) :=
    Failure.all.filterMap fun f => f.standardGate.map fun x => (f.name, x)
  odds : List (String × Float) :=
    Odds.all.map fun o => (o.name, o.standard)

namespace Policy

def gate (p : Policy) (name : String) : Float :=
  ((p.gates.find? fun e => e.1 == name).map (·.2)).getD 0

def chance (p : Policy) (name : String) : Float :=
  ((p.odds.find? fun e => e.1 == name).map (·.2)).getD
    (((Odds.ofName? name).map Odds.standard).getD 0)

end Policy

end GridRobot
