import GridRobot.Config.Basic
import GridRobot.Proofs.Draw
import GridRobot.Random

/-!
Neighbours in a drawn program. The draw of an instruction looks at the one before it: a condition is not
repeated, and an unconditional turn is not undone. What closes the root routine in place of a call that
would recurse for ever is drawn without that look, and only there neighbours can repeat or undo.
-/

namespace GridRobot

variable {σ : Type} [RandomSource σ]

namespace Instruction

def Repeats (i before : Instruction) : Prop :=
  i.condition ≠ none ∧ i.condition = before.condition

def Undoes (i before : Instruction) : Prop :=
  ∃ t, before = ⟨.turn t, none⟩ ∧ i = ⟨.turn t.reversed, none⟩

/-- Nothing is repeated or undone, unless `i` closes the root routine. A closing call to the root that
needs a condition can repeat one, and what takes the place of such a call can undo a turn. -/
structure Follows (i before : Instruction) (closes : Prop) : Prop where
  repeats : i.Repeats before → closes ∧ i.action = .call .f1
  undoes : i.Undoes before → closes ∧ i.action ≠ .call .f1

theorem Follows.imp {i before : Instruction} {closes ends : Prop} (follows : i.Follows before closes)
    (implies : closes → ends) : i.Follows before ends where
  repeats again := (follows.repeats again).imp_left implies
  undoes back := (follows.undoes back).imp_left implies

end Instruction

/-! ## One instruction -/

theorem Color.always_drawCondition (percent : Float) (exclude : Option Color) :
    Always (drawCondition percent exclude : StateM σ (Option Color))
      fun condition => condition = none ∨ condition ≠ exclude := by
  refine (Always.drawn _).bind fun unit _ => .ite (fun _ => .pure (.inl rfl)) fun _ => ?_
  refine (RandomSource.always_choose _).bind fun color other => .pure (.inr ?_)
  simpa [others] using other

theorem Action.always_draw_repeated (weights : ActionWeights) (callable : List Routine) (t : Turn) :
    Always (draw weights callable (some t) : StateM σ Action) fun a => ∀ u, a = .turn u → u = t := by
  refine (Always.drawn _).bind fun unit _ => ?_
  refine .ite (fun _ => .pure nofun) fun _ => .ite (fun _ => .pure ?_) fun _ => ?_
  · rintro u ⟨⟩
    rfl
  · refine .dite (fun _ => (Always.drawn _).bind fun r _ => .pure nofun) fun _ => ?_
    refine (RandomSource.always_choose _).mono fun a paint u turn => ?_
    obtain ⟨color, rfl⟩ := mem_paints.mp paint
    cases turn

theorem Action.ne_call_of_mem_closing {callable : List Routine} {a : Action}
    (closing : a ∈ closing callable) : a ≠ .call .f1 := by
  rintro rfl
  simp [Action.closing, paints] at closing

theorem Turn.reversed_ne (t : Turn) : t.reversed ≠ t := by
  cases t <;> decide

namespace Program

theorem always_follows (c : Config) (before : Instruction) (last : Bool) :
    Always (drawInstruction c (some before) last : StateM σ Instruction)
      fun i => i.Follows before (last = true) := by
  refine (Color.always_drawCondition _ _).bind fun condition new => ?_
  have kept : Always (Action.draw c.weights c.callable
      (if condition.isNone then repeatedTurn (some before) else none) : StateM σ Action)
      fun a => condition = none → ∀ t, before = ⟨.turn t, none⟩ → a ≠ .turn t.reversed := by
    cases condition with
    | some color => exact (Always.drawn _).mono fun _ _ => nofun
    | none =>
      by_cases turns : ∃ t, before = ⟨.turn t, none⟩
      · obtain ⟨t, rfl⟩ := turns
        refine (Action.always_draw_repeated _ _ t).mono fun a same _ u turned back => ?_
        cases turned
        exact t.reversed_ne (same _ back)
      · exact (Always.drawn _).mono fun _ _ _ t turned => absurd ⟨t, turned⟩ turns
  refine kept.bind fun action kept => .ite (fun closes => ?_) fun _ => .pure ⟨?_, ?_⟩
  · simp only [Bool.and_eq_true, beq_iff_eq] at closes
    obtain ⟨⟨closes, rfl⟩, -⟩ := closes
    refine (Always.drawn _).bind fun conditional _ => .ite (fun _ => ?_) fun _ => ?_
    · exact (Always.drawn _).bind fun _ _ => .pure ⟨fun _ => ⟨closes, rfl⟩, nofun⟩
    · exact (RandomSource.always_choose _).bind fun a closing =>
        .pure ⟨fun again => absurd rfl again.1,
          fun _ => ⟨closes, Action.ne_call_of_mem_closing closing⟩⟩
  · rintro ⟨conditional, same⟩
    exact absurd same (new.resolve_left conditional)
  · rintro ⟨t, turned, back⟩
    obtain ⟨rfl, rfl⟩ := Instruction.mk.inj back
    exact absurd rfl (kept rfl t turned)

/-! ## All slots of a routine -/

def Spaced (r : Routine) : Option Instruction → List (Option Instruction) → Prop
  | _, [] => True
  | before, slot :: rest =>
    (∃ i, slot = some i ∧ ∀ b ∈ before, i.Follows b (r = .f1 ∧ rest = [])) ∧ Spaced r slot rest

theorem always_spaced (c : Config) (r : Routine) (before : Option Instruction) (n : Nat) :
    Always (drawSlots c r before n : StateM σ (List (Option Instruction)))
      fun slots => slots.length = n ∧ Spaced r before slots := by
  induction n generalizing before with
  | zero => exact .pure ⟨rfl, trivial⟩
  | succ n ih =>
    have next : Always (drawInstruction c before (r == .f1 && n == 0) : StateM σ Instruction)
        fun i => ∀ b ∈ before, i.Follows b ((r == .f1 && n == 0) = true) := by
      cases before with
      | none => exact (Always.drawn _).mono fun _ _ => nofun
      | some b =>
        refine (always_follows c b _).mono fun i follows b' same => ?_
        cases same
        exact follows
    refine next.bind fun i follows => (ih (some i)).bind fun rest spaced => .pure ?_
    obtain ⟨rfl, spaced⟩ := spaced
    refine ⟨rfl, ⟨i, rfl, fun b here => (follows b here).imp fun last => ?_⟩, spaced⟩
    simpa using last

theorem Spaced.follows {r : Routine} {before : Option Instruction} {slots : List (Option Instruction)}
    (spaced : Spaced r before slots) {k : Nat} (within : k + 1 < slots.length) :
    ∃ a b, slots[k]? = some (some a) ∧ slots[k + 1]? = some (some b) ∧
      b.Follows a (r = .f1 ∧ k + 2 = slots.length) := by
  induction k generalizing before slots with
  | zero =>
    obtain _ | ⟨_, _ | ⟨_, rest⟩⟩ := slots
    · cases within
    · exact absurd within (Nat.lt_irrefl _)
    · obtain ⟨⟨a, rfl, -⟩, ⟨b, rfl, follows⟩, -⟩ := spaced
      refine ⟨a, b, rfl, rfl, (follows a rfl).imp ?_⟩
      rintro ⟨root, rfl⟩
      exact ⟨root, rfl⟩
  | succ k ih =>
    cases slots with
    | nil => cases within
    | cons slot rest =>
      obtain ⟨a, b, here, next, follows⟩ := ih spaced.2 (Nat.lt_of_succ_lt_succ within)
      exact ⟨a, b, here, next, follows.imp fun ⟨root, last⟩ => ⟨root, congrArg (· + 1) last⟩⟩

end Program

/-- In a drawn program no slot repeats the condition of the slot before it or undoes its turn, but for
the slot that closes the root routine. -/
theorem follows_of_draw (c : Config) (source : σ) {r : Routine} {k : Nat}
    (within : k + 1 < c.slotsPerRoutine.get r) :
    ∃ a b, (Program.draw c source).1.at? ⟨r, k⟩ = some a ∧
      (Program.draw c source).1.at? ⟨r, k + 1⟩ = some b ∧
      b.Follows a (r = .f1 ∧ k + 2 = c.slotsPerRoutine.f1) := by
  obtain ⟨lengths, spaced⟩ :=
    Program.always_routines (fun r => Program.always_spaced c r none _) source r
  obtain ⟨a, b, here, next, follows⟩ := spaced.follows (lengths ▸ within)
  refine ⟨a, b, Option.join_eq_some_iff.mpr here, Option.join_eq_some_iff.mpr next,
    follows.imp ?_⟩
  rintro ⟨rfl, last⟩
  exact ⟨rfl, last.trans lengths⟩

def turnsAndCalls : Config where
  slotsPerRoutine := ⟨2, 0, 0, 0, 0⟩
  conditionalPercent := 50
  weights := ⟨0, 1, 1, 0⟩

def redCallThenCall : Tape :=
  ⟨#[0.1, 0.0, 0.9, 0.5, 0.9, 0.9, 0.5, 0.1, 0.0], 0, false⟩

def leftThenCall : Tape :=
  ⟨#[0.9, 0.1, 0.1, 0.9, 0.9, 0.5, 0.9, 0.4], 0, false⟩

theorem drawn_redCallThenCall :
    (Program.draw turnsAndCalls redCallThenCall).1.body.f1 =
      [some ⟨.call .f1, some .red⟩, some ⟨.call .f1, some .red⟩] := by
  decide +kernel

theorem drawn_leftThenCall :
    (Program.draw turnsAndCalls leftThenCall).1.body.f1 =
      [some ⟨.turn .left, none⟩, some ⟨.turn .right, none⟩] := by
  decide +kernel

theorem follows_leftThenCall :
    0 + 1 < turnsAndCalls.slotsPerRoutine.get .f1 ∧
      ∃ a b, (Program.draw turnsAndCalls leftThenCall).1.at? ⟨.f1, 0⟩ = some a ∧
        (Program.draw turnsAndCalls leftThenCall).1.at? ⟨.f1, 1⟩ = some b ∧
        b.Undoes a ∧ ¬ b.Repeats a := by
  have within : 0 + 1 < turnsAndCalls.slotsPerRoutine.get .f1 := by decide
  obtain ⟨a, b, here, next, follows⟩ := follows_of_draw turnsAndCalls leftThenCall within
  have undoes : b.Undoes a := by
    rw [Program.at?, PerRoutine.get, drawn_leftThenCall] at here next
    cases here
    cases next
    exact ⟨.left, rfl, rfl⟩
  exact ⟨within, a, b, here, next, undoes, fun repeats =>
    (follows.undoes undoes).2 (follows.repeats repeats).2⟩

/-- A slot that closes the root routine can repeat the condition before it, and undo the turn. -/
theorem closing_can_repeat_and_undo :
    turnsAndCalls.Valid ∧
      (∃ a b, (Program.draw turnsAndCalls redCallThenCall).1.at? ⟨.f1, 0⟩ = some a ∧
        (Program.draw turnsAndCalls redCallThenCall).1.at? ⟨.f1, 1⟩ = some b ∧ b.Repeats a) ∧
      ∃ a b, (Program.draw turnsAndCalls leftThenCall).1.at? ⟨.f1, 0⟩ = some a ∧
        (Program.draw turnsAndCalls leftThenCall).1.at? ⟨.f1, 1⟩ = some b ∧ b.Undoes a := by
  refine ⟨by decide, ⟨⟨.call .f1, some .red⟩, ⟨.call .f1, some .red⟩, ?_, ?_, nofun, rfl⟩,
    ⟨⟨.turn .left, none⟩, ⟨.turn .right, none⟩, ?_, ?_, .left, rfl, rfl⟩⟩
  · rw [Program.at?, PerRoutine.get, drawn_redCallThenCall]
    rfl
  · rw [Program.at?, PerRoutine.get, drawn_redCallThenCall]
    rfl
  · rw [Program.at?, PerRoutine.get, drawn_leftThenCall]
    rfl
  · rw [Program.at?, PerRoutine.get, drawn_leftThenCall]
    rfl

end GridRobot
