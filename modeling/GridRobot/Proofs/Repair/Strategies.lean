import GridRobot.Proofs.Repair.Edit
import GridRobot.Repair.Strategy

namespace GridRobot

variable {σ : Type} [RandomSource σ]

namespace Strategy

open Case

variable {c : Case}

theorem playable_selfCall (fits : c.Fits) {s : Slot} (has : c.program.HasSlot s) :
    (Action.call s.routine).Playable c.config := by
  rw [Program.hasSlot_iff, fits.lengths] at has
  exact Nat.zero_lt_of_lt has

theorem edits_boundaryOffender (fits : c.Fits) :
    c.Edits (boundaryOffender c : Repair σ Bool) := by
  unfold boundaryOffender
  cases left : c.evidence.boundarySlot with
  | none => exact applies_decline
  | some a =>
    have fills := fits.boundary a left
    obtain ⟨s, i, rfl, filled⟩ := fits.boundary a left
    have read := Program.read_ofSlot (Program.hasSlot_of_at? filled)
    refine .get ((yields_of_ok (P := fun _ => True) read trivial).bind fun _ _ => ?_)
    refine .ite (fun _ => applies_decline) fun _ => applies_onRoll (.get ?_) _
    refine (yields_of_ok (P := fun _ => True) (Program.readFilled_ofSlot filled) trivial).bind fun i _ => ?_
    refine (Always.drawn _).yields.bind fun roll _ => .ite (fun _ => ?_) fun _ => ?_
    · exact (yields_drawTurn c.config).bind fun t playable => edits_retype fills playable
    refine .ite (fun _ => ?_) fun _ => .ite (fun _ => ?_) fun _ => applies_decline
    · exact .ite (fun _ => edits_recondition fills _) fun _ => applies_decline
    · exact (Always.drawn _).yields.bind fun color _ => edits_recondition fills _

theorem edits_boundaryEarlierForward (fits : c.Fits) :
    c.Edits (boundaryEarlierForward c : Repair σ Bool) :=
  edits_onOneRolled fun a mem => (yields_drawTurn c.config).bind fun _ playable =>
    edits_retype (fits.recent a (List.dropLast_subset _ mem)) playable

theorem edits_revisitsAddPaint (fits : c.Fits) :
    c.Edits (revisitsAddPaint c : Repair σ Bool) :=
  applies_onRoll ((yields_executedWhere fits _).bind fun _ fills => edits_onOne fun a mem =>
    (Action.always_drawPaint c.config).yields.bind fun _ playable =>
      edits_retype (fills a mem) playable) _

theorem edits_revisitsConditionalMove :
    c.Edits (revisitsConditionalMove c : Repair σ Bool) :=
  applies_onRoll (.ite (fun _ => applies_decline) fun some =>
    (yields_drawMove c).bind fun _ playable => edits_pick some fun _ mem =>
      edits_place (hasSlot_of_mem_unexecuted mem) playable _) _

theorem edits_revisitsTurnAfterPaint (fits : c.Fits) :
    c.Edits (revisitsTurnAfterPaint c : Repair σ Bool) := by
  refine (yields_executedWhere fits _).bind fun found fills => edits_onOneRolled fun a mem => ?_
  obtain ⟨s, i, rfl, filled⟩ := fills a mem
  have routine : c.program.routineAt s.routine.name = .ok (s.routine, c.program.body.get s.routine) := by
    simp [Program.routineAt]
  refine (yields_of_ok (P := (· = (s.routine, c.program.body.get s.routine))) routine rfl).bind
    fun held same => ?_
  subst same
  refine .ite (fun _ => applies_decline) fun room => ?_
  have has : c.program.HasSlot { s with index := s.index + 1 } := by
    have room : ¬ ((c.program.body.get s.routine).length : Int) ≤ (s.index : Int) + 1 := room
    simp only [Program.HasSlot]
    omega
  exact (yields_drawTurn c.config).bind fun _ playable => edits_place has playable none

omit [RandomSource σ] in
theorem edits_placeSelfCall (fits : c.Fits) {s : Slot} (has : c.program.HasSlot s) :
    c.Edits (placeSelfCall c s : Repair σ Bool) :=
  edits_place has (playable_selfCall fits has) _

theorem edits_revisitsSelfCall (fits : c.Fits) :
    c.Edits (revisitsSelfCall c : Repair σ Bool) :=
  applies_onRoll (edits_onOne fun _ mem => edits_placeSelfCall fits (hasSlot_of_mem_unexecuted mem)) _

theorem edits_conditionExecuted (fits : c.Fits) (o : Odds) :
    c.Edits (conditionExecuted o c : Repair σ Bool) :=
  (yields_executedWhere fits _).bind fun _ fills => edits_onOneRolled fun a mem =>
    edits_recondition (fills a mem) _

theorem edits_conditionalsRecolorUnexecuted :
    c.Edits (conditionalsRecolorUnexecuted c : Repair σ Bool) :=
  edits_onOneRolled fun _ mem =>
    edits_recondition_slot (hasSlot_of_mem_unexecuted (List.mem_filter.mp mem).1) _

theorem edits_conditionalsFillUnexecuted :
    c.Edits (conditionalsFillUnexecuted c : Repair σ Bool) :=
  .ite (fun _ => applies_decline) fun some => (yields_drawAction c).bind fun _ playable =>
    edits_pick some fun _ mem => edits_place (hasSlot_of_mem_unexecuted mem) playable _

theorem edits_plainToForward (fits : c.Fits) (o : Odds) :
    c.Edits (plainToForward o c : Repair σ Bool) :=
  (yields_executedWhere fits _).bind fun _ fills => edits_onOneRolled fun a mem =>
    edits_retype (fills a mem) (Action.playable_forward _)

theorem edits_retypeToTurn {found : List Address} (fills : ∀ a ∈ found, c.program.Fills a)
    {a : Address} (mem : a ∈ found) :
    c.Edits (do retype a (← drawTurn) : Repair σ Bool) :=
  (yields_drawTurn c.config).bind fun _ playable => edits_retype (fills a mem) playable

theorem edits_tilesForwardToTurn (fits : c.Fits) :
    c.Edits (tilesForwardToTurn c : Repair σ Bool) :=
  (yields_executedWhere fits _).bind fun _ fills => .ite (fun _ => applies_decline) fun _ =>
    edits_onOneRolled fun _ mem => edits_retypeToTurn fills mem

theorem edits_fillWithCall : c.Edits (fillWithCall c : Repair σ Bool) :=
  .ite (fun _ => applies_decline) fun some => edits_onOne fun _ mem => edits_pick some
    fun _ callable => edits_place (hasSlot_of_mem_unexecuted mem) (Action.playable_call callable) _

theorem edits_tilesExtendCall : c.Edits (tilesExtendCall c : Repair σ Bool) :=
  applies_onRoll edits_fillWithCall _

theorem edits_fillWithForward : c.Edits (fillWithForward c : Repair σ Bool) :=
  edits_onOne fun _ mem => edits_place (hasSlot_of_mem_unexecuted mem) (Action.playable_forward _) _

theorem edits_traceToForward (fits : c.Fits) :
    c.Edits (traceToForward c : Repair σ Bool) :=
  applies_onRoll ((yields_executedWhere fits _).bind fun _ fills => edits_onOne fun a mem =>
    edits_retype (fills a mem) (Action.playable_forward _)) _

theorem edits_anyToTurn (fits : c.Fits) : c.Edits (anyToTurn c : Repair σ Bool) :=
  (yields_executedWhere fits _).bind fun _ fills => edits_onOne fun _ mem =>
    edits_retypeToTurn fills mem

theorem edits_traceToTurn (fits : c.Fits) : c.Edits (traceToTurn c : Repair σ Bool) :=
  applies_onRoll (edits_anyToTurn fits) _

theorem edits_traceFillUnexecuted : c.Edits (traceFillUnexecuted c : Repair σ Bool) :=
  .ite (fun _ => applies_decline) fun some => (yields_drawMove c).bind fun _ playable =>
    edits_pick some fun _ mem => edits_place (hasSlot_of_mem_unexecuted mem) playable _

theorem edits_turnsForwardToTurn (fits : c.Fits) :
    c.Edits (turnsForwardToTurn c : Repair σ Bool) :=
  (yields_executedWhere fits _).bind fun _ fills => edits_onOneRolled fun _ mem =>
    edits_retypeToTurn fills mem

theorem edits_turnsAdjacentTurn : c.Edits (turnsAdjacentTurn c : Repair σ Bool) :=
  .ite (fun _ => applies_decline) fun _ => applies_onRoll (edits_onOne fun _ mem =>
    (yields_drawTurn c.config).bind fun _ playable =>
      edits_place (hasSlot_of_mem_unexecuted (List.mem_filter.mp mem).1) playable _) _

theorem edits_depthAddCall (fits : c.Fits) : c.Edits (depthAddCall c : Repair σ Bool) :=
  (yields_executedWhere fits _).bind fun _ fills => .ite (fun _ => applies_decline) fun some =>
    edits_onOneRolled fun a mem => edits_pick some fun _ callable =>
      edits_retype (fills a mem) (Action.playable_call callable)

theorem edits_selfCallsConvertExecuted (fits : c.Fits) :
    c.Edits (selfCallsConvertExecuted c : Repair σ Bool) := by
  refine (yields_executedWhere fits _).bind fun _ fills => edits_onOneRolled fun a mem => ?_
  obtain ⟨s, i, rfl, filled⟩ := fills a mem
  have has := Program.hasSlot_of_at? filled
  have call : Action.ofName s.routine.name = .call s.routine :=
    Action.ofName_name (a := .call s.routine) rfl
  exact edits_place has (call ▸ playable_selfCall fits has) _

theorem edits_selfCallsFillUnexecuted (fits : c.Fits) :
    c.Edits (selfCallsFillUnexecuted c : Repair σ Bool) :=
  edits_onOneRolled fun _ mem => edits_placeSelfCall fits (hasSlot_of_mem_unexecuted mem)

theorem edits_selfCallsRecolor : c.Edits (selfCallsRecolor c : Repair σ Bool) :=
  edits_onOne fun _ mem =>
    edits_recondition_slot (hasSlot_of_mem_unexecuted (List.mem_filter.mp mem).1) _

theorem edits_paintsReplace (fits : c.Fits) : c.Edits (paintsReplace c : Repair σ Bool) := by
  refine (yields_executedWhere fits _).bind fun _ fills => .ite (fun _ => applies_decline) fun some => ?_
  have retyped (action : Action) (playable : action.Playable c.config) :=
    edits_pick (σ := σ) some fun a mem => edits_retype (fills a mem) playable
  refine applies_onRoll ((Always.drawn _).yields.bind fun _ _ => ?_) _
  exact .ite (fun _ => (Yields.pure (Action.playable_forward _)).bind retyped) fun _ =>
    (yields_drawTurn _).bind retyped

theorem edits_paintsDependOnPaint (fits : c.Fits) :
    c.Edits (paintsDependOnPaint c : Repair σ Bool) :=
  (yields_executedWhere fits _).bind fun _ fills => .ite (fun _ => applies_decline) fun some =>
    edits_onOneRolled fun a mem => edits_pick some fun _ _ => edits_recondition (fills a mem) _

theorem paints_ne (action : Action) : ¬ (Action.paints.filter (· != action)).isEmpty = true := by
  rcases action with _ | _ | _ | (_ | _ | _) | _ | _ <;> simp [Action.paints, Color.all]

theorem edits_paintsRecolor (fits : c.Fits) : c.Edits (paintsRecolor c : Repair σ Bool) := by
  refine (yields_executedWhere fits _).bind fun _ fills => edits_onOne fun a mem => ?_
  obtain ⟨s, i, rfl, filled⟩ := fills a mem
  refine (yields_of_ok (P := fun _ => True) (Program.readFilled_ofSlot filled) trivial).bind fun i _ => ?_
  refine edits_pick (paints_ne i.action) fun _ paint => ?_
  exact edits_retype (fills _ mem) (Action.playable_paint (List.mem_filter.mp paint).1)

theorem hasSlot_callerBefore {p : Program} {r : Routine} {n : Nat} {caller : Slot}
    (found : p.callerBefore? r n = some caller) : p.HasSlot caller := by
  induction n with
  | zero => cases found
  | succ n ih =>
    unfold Program.callerBefore? at found
    split at found
    · rename_i calls
      cases found
      obtain ⟨i, filled, -⟩ := (Option.any_eq_true _ _).mp calls
      exact Program.hasSlot_of_at? filled
    · exact ih found

theorem edits_genericUnblockCall : c.Edits (genericUnblockCall c : Repair σ Bool) := by
  refine edits_onOneRolled fun s _ => .get ?_
  cases found : c.program.callerBefore? s.routine s.index with
  | none => exact applies_decline
  | some caller => exact edits_recondition_slot (hasSlot_callerBefore found) _

theorem edits_genericDropCondition : c.Edits (genericDropCondition c : Repair σ Bool) := by
  refine edits_onOneRolled fun s mem => .get ?_
  split
  · exact edits_recondition_slot (hasSlot_of_mem_unexecuted mem) none
  · exact applies_decline

theorem edits_genericCallUncalled (fits : c.Fits) :
    c.Edits (genericCallUncalled c : Repair σ Bool) := by
  refine edits_onOneRolled fun r callable => .ite (fun _ => edits_onOne fun a executed => ?_) fun _ =>
    edits_onOne fun s guarded => ?_
  · obtain ⟨s, i, rfl, filled⟩ := fits.executed a executed
    exact edits_place (Program.hasSlot_of_at? filled)
      (Action.playable_call (List.mem_filter.mp callable).1) none
  · exact edits_recondition_slot (Program.mem_slots.mp (List.mem_filter.mp guarded).1) none

theorem edits_genericRecolor : c.Edits (genericRecolor c : Repair σ Bool) := by
  refine edits_onOneRolled fun s mem => .get ?_
  split
  · exact .ite (fun _ => applies_decline) fun _ => edits_recondition_slot (hasSlot_of_mem_unexecuted mem) _
  · exact applies_decline

theorem edits_fillAtRandom {pool : Case → List Slot} (has : ∀ s ∈ pool c, c.program.HasSlot s) :
    c.Edits (fillAtRandom pool c : Repair σ Bool) :=
  .ite (fun _ => applies_decline) fun some => (yields_drawAction c).bind fun _ playable =>
    (Always.drawn _).yields.bind fun condition _ =>
      edits_pick some fun s mem => edits_place (has s mem) playable condition

end Strategy

/-! ## Repairs -/

namespace Case

inductive ReplacesPair (c : Case) : Program → Prop
  | put {s : Slot} (first : s ∈ c.unexecuted)
      (second : { s with index := s.index + 1 } ∈ c.unexecuted) (t : Turn) :
      ReplacesPair c ((c.program.put s (some ⟨.forward, none⟩)).put { s with index := s.index + 1 }
        (some ⟨.turn t, none⟩))

def Mends (c : Case) (failure : Option Failure) (p : Program) : Prop :=
  c.Replaces p ∨ failure = some .minTiles ∧ c.ReplacesPair p

def Tries (c : Case) (failure : Option Failure) (s : Strategy σ) : Prop :=
  Applies c.program (s c) (c.Mends failure)

omit [RandomSource σ] in
theorem Edits.tries {c : Case} {s : Strategy σ} (edits : c.Edits (s c)) (failure : Option Failure) :
    c.Tries failure s :=
  edits.mono fun _ _ ⟨applied, declined⟩ => ⟨fun yes => .inl (applied yes), declined⟩

end Case

namespace Strategy

open Case

variable {c : Case}

theorem tries_tilesForwardTurnPair :
    c.Tries (some .minTiles) (tilesForwardTurnPair : Strategy σ) := by
  refine Makes.ite (fun _ => applies_decline) fun _ => applies_onRoll ?_ _
  cases found : unexecutedPair? c with
  | none => exact applies_decline
  | some s =>
    have first := List.mem_of_find?_eq_some found
    have second := List.find?_some found
    rw [List.contains_iff_mem] at second
    have moved := (Program.hasSlot_put (s := s) (i := some ⟨.forward, none⟩)).mpr
      (hasSlot_of_mem_unexecuted second)
    intro source
    obtain ⟨_, _, after, drew, rfl, t, rfl⟩ :=
      yields_turn (p := c.program.put s (some ⟨.forward, none⟩)) source
    have placed := place_apply (hasSlot_of_mem_unexecuted first) .forward none source
    refine ⟨true, _, after, ?_, fun _ => .inr ⟨rfl, .put first second t⟩, nofun⟩
    exact (repair_bind_of_ok placed).trans ((repair_bind_of_ok drew).trans (place_apply moved _ none after))

theorem tries_family (fits : c.Fits) (f : Failure) :
    ∀ s ∈ family (σ := σ) f, c.Tries (some f) s := by
  have lengthens (f : Failure) : ∀ s ∈ lengthenPath (σ := σ), c.Tries (some f) s := by
    simp only [lengthenPath, List.forall_mem_cons]
    exact ⟨(edits_plainToForward fits _).tries _, (edits_dropConditionWhere _ _).tries _,
      edits_fillWithForward.tries _, nofun⟩
  cases f with
  | boundary =>
    simp only [family, List.forall_mem_cons]
    exact ⟨(edits_boundaryOffender fits).tries _, (edits_boundaryEarlierForward fits).tries _, nofun⟩
  | minPaintRevisits =>
    simp only [family, List.forall_mem_cons]
    exact ⟨(edits_revisitsAddPaint fits).tries _, edits_revisitsConditionalMove.tries _,
      (edits_revisitsTurnAfterPaint fits).tries _, (edits_revisitsSelfCall fits).tries _,
      (edits_conditionExecuted fits _).tries _, nofun⟩
  | minConditionals =>
    simp only [family, List.forall_mem_cons]
    exact ⟨(edits_conditionExecuted fits _).tries _, edits_conditionalsRecolorUnexecuted.tries _,
      edits_conditionalsFillUnexecuted.tries _, nofun⟩
  | minTiles =>
    simp only [family, List.forall_mem_cons]
    exact ⟨(edits_plainToForward fits _).tries _, (edits_tilesForwardToTurn fits).tries _,
      (edits_dropConditionWhere _ _).tries _, edits_tilesExtendCall.tries _,
      tries_tilesForwardTurnPair, edits_fillWithForward.tries _, nofun⟩
  | pathTraceRatio =>
    simp only [family, List.forall_mem_cons]
    exact ⟨(edits_traceToForward fits).tries _, (edits_traceToTurn fits).tries _,
      edits_traceFillUnexecuted.tries _, nofun⟩
  | minPathLength | minBoundingBox => exact lengthens _
  | minTurns =>
    simp only [family, List.forall_mem_cons]
    exact ⟨(edits_turnsForwardToTurn fits).tries _, edits_turnsAdjacentTurn.tries _,
      (edits_dropConditionWhere _ _).tries _, (edits_anyToTurn fits).tries _, nofun⟩
  | minStackDepth =>
    simp only [family, List.forall_mem_cons]
    exact ⟨(edits_depthAddCall fits).tries _, (edits_dropConditionWhere _ _).tries _,
      edits_fillWithCall.tries _, nofun⟩
  | minSelfCalls =>
    simp only [family, List.forall_mem_cons]
    exact ⟨(edits_selfCallsConvertExecuted fits).tries _,
      (edits_selfCallsFillUnexecuted fits).tries _, edits_selfCallsRecolor.tries _, nofun⟩
  | unnecessaryPaint =>
    simp only [family, List.forall_mem_cons]
    exact ⟨(edits_paintsReplace fits).tries _, (edits_paintsDependOnPaint fits).tries _,
      (edits_paintsRecolor fits).tries _, nofun⟩
  | coverage | loop | density | other => exact nofun

theorem tries_generic (fits : c.Fits) (failure : Option Failure) :
    ∀ s ∈ generic (σ := σ), c.Tries failure s := by
  simp only [generic, List.forall_mem_cons]
  exact ⟨edits_genericUnblockCall.tries _, edits_genericDropCondition.tries _,
    (edits_genericCallUncalled fits).tries _, edits_genericRecolor.tries _,
    (edits_fillAtRandom fun _ mem => hasSlot_of_mem_unexecuted mem).tries _,
    (edits_fillAtRandom fun _ mem => Program.mem_slots.mp mem).tries _, nofun⟩

end Strategy

namespace Case

inductive Declined (c : Case) : List (Strategy σ) → σ → σ → Prop
  | nil {source : σ} : Declined c [] source source
  | cons {s : Strategy σ} {rest : List (Strategy σ)} {source between after : σ}
      (declined : s c c.program source = (.ok (false, c.program), between))
      (later : Declined c rest between after) : Declined c (s :: rest) source after

/-- The first strategies declined, and the one after them applied: this is what became of the program. -/
inductive Applied (c : Case) (offered : List (Strategy σ)) (source : σ) : Program → σ → Prop
  | intro {declined rest : List (Strategy σ)} {s : Strategy σ} {p : Program} {between after : σ}
      (split : offered = declined ++ s :: rest) (before : Declined c declined source between)
      (applied : s c c.program between = (.ok (true, p), after)) : Applied c offered source p after

variable {c : Case} {failure : Option Failure} {offered : List (Strategy σ)}

omit [RandomSource σ]

theorem Applied.later {s : Strategy σ} {source between after : σ} {p : Program}
    (declined : s c c.program source = (.ok (false, c.program), between))
    (applied : c.Applied offered between p after) : c.Applied (s :: offered) source p after := by
  obtain ⟨split, before, applied⟩ := applied
  exact ⟨congrArg (s :: ·) split, .cons declined before, applied⟩

theorem firstApplying_cases (tries : ∀ s ∈ offered, c.Tries failure s) (source : σ) :
    ∃ applied p after, firstApplying c offered c.program source = (.ok (applied, p), after) ∧
      if applied then c.Applied offered source p after ∧ c.Mends failure p
      else c.Declined offered source after ∧ p = c.program := by
  induction offered generalizing source with
  | nil => exact ⟨false, c.program, source, rfl, .nil, rfl⟩
  | cons s rest ih =>
    obtain ⟨applied, p, between, ran, mended, kept⟩ := tries s List.mem_cons_self source
    cases applied with
    | true =>
      refine ⟨true, p, between, repair_bind_of_ok ran, ?_, mended rfl⟩
      exact .intro (List.nil_append _).symm .nil ran
    | false =>
      obtain rfl := kept rfl
      obtain ⟨applied, p, after, went, ended⟩ :=
        ih (fun s mem => tries s (List.mem_cons_of_mem _ mem)) between
      refine ⟨applied, p, after, (repair_bind_of_ok ran).trans went, ?_⟩
      cases applied with
      | true => exact ⟨ended.1.later ran, ended.2⟩
      | false => exact ⟨.cons ran ended.1, ended.2⟩

end Case

theorem always_strategies {c : Case} (fits : c.Fits) (failure : Option Failure) :
    Always (strategies c failure : StateM σ (List (Strategy σ))) fun offered =>
      ∀ s ∈ offered, c.Tries failure s := by
  have generic := Strategy.tries_generic (σ := σ) fits failure
  cases failure with
  | none => exact .pure generic
  | some f =>
    refine .ite (fun _ => .pure generic) fun _ => ?_
    refine (Always.drawn _).bind fun _ _ => .ite (fun _ => .pure ?_) fun _ => .pure generic
    intro s mem
    rcases List.mem_append.mp mem with aimed | mem
    · exact Strategy.tries_family fits f s aimed
    · exact generic s mem

theorem repair_of_firstApplying {c : Case} {failure : Option Failure}
    {offered : List (Strategy σ)} {source start after : σ} {applied : Bool} {p : Program}
    (drew : strategies c failure source = (offered, start))
    (tried : firstApplying c offered c.program start = (.ok (applied, p), after)) :
    repair c failure source = (.ok p, after) := by
  have opened : repair c failure source =
      ExceptT.bindCont (m := StateM σ) (fun result : Bool × Program => pure result.2)
        (firstApplying c (strategies c failure source).1 c.program (strategies c failure source).2).1
        (firstApplying c (strategies c failure source).1 c.program (strategies c failure source).2).2 :=
    rfl
  rw [opened, drew, tried]
  rfl

theorem repair_cases {c : Case} (fits : c.Fits) (failure : Option Failure) (source : σ) :
    ∃ offered start p after, strategies c failure source = (offered, start) ∧
      repair c failure source = (.ok p, after) ∧
      (c.Applied offered start p after ∧ c.Mends failure p ∨
        c.Declined offered start after ∧ p = c.program) := by
  have tries := always_strategies (σ := σ) fits failure source
  obtain ⟨applied, p, after, tried, ended⟩ :=
    Case.firstApplying_cases tries (strategies c failure source).2
  refine ⟨_, _, p, after, rfl, repair_of_firstApplying rfl tried, ?_⟩
  cases applied with
  | true => exact .inl ended
  | false => exact .inr ended

namespace Case

variable {c : Case}

theorem playable_put {config : Config} {p : Program} (playable : p.Playable config) {s : Slot}
    {i : Instruction} (has : p.HasSlot s) (action : i.action.Playable config) :
    (p.put s (some i)).Playable config where
  lengths := (p.lengths_put s _).trans playable.lengths
  filled t there := by
    rw [p.at?_put s t _ has]
    split
    · exact ⟨i, rfl, action⟩
    · exact playable.filled t (Program.hasSlot_put.mp there)

theorem Mends.playable {failure : Option Failure} {p : Program} (mends : c.Mends failure p)
    (playable : c.program.Playable c.config) : p.Playable c.config := by
  rcases mends with ⟨has, action⟩ | ⟨-, first, second, t⟩
  · refine playable_put playable has ?_
    rcases action with action | ⟨old, held, same⟩
    · exact action
    · obtain ⟨i, filled, before⟩ := playable.filled _ has
      rw [held, Option.some.injEq] at filled
      rw [same, filled]
      exact before
  · have moved := playable_put (i := ⟨.forward, none⟩) playable (hasSlot_of_mem_unexecuted first) trivial
    exact playable_put moved (Program.hasSlot_put.mpr (hasSlot_of_mem_unexecuted second)) trivial

end Case

theorem playable_repair {c : Case} (fits : c.Fits) (playable : c.program.Playable c.config)
    (failure : Option Failure) (source : σ) :
    ∃ p after, repair c failure source = (.ok p, after) ∧ p.Playable c.config := by
  obtain ⟨_, _, p, after, -, repaired, ⟨-, mends⟩ | ⟨-, rfl⟩⟩ := repair_cases fits failure source
  · exact ⟨p, after, repaired, mends.playable playable⟩
  · exact ⟨c.program, after, repaired, playable⟩

end GridRobot
