import GridRobot.Draw
import GridRobot.Proofs.Run.Step
import GridRobot.Puzzle

namespace GridRobot

variable {σ : Type} [RandomSource σ]

/-- Every outcome of a draw satisfies `P`. -/
def Always (x : StateM σ α) (P : α → Prop) : Prop :=
  ∀ source, P (x source).1

namespace Always

variable {P : α → Prop} {Q : β → Prop}

omit [RandomSource σ] in
theorem pure {a : α} (holds : P a) : Always (pure a : StateM σ α) P :=
  fun _ => holds

omit [RandomSource σ] in
theorem bind {x : StateM σ α} {f : α → StateM σ β} (first : Always x P)
    (rest : ∀ a, P a → Always (f a) Q) : Always (x >>= f) Q :=
  fun source => rest _ (first source) _

omit [RandomSource σ] in
theorem drawn (x : StateM σ α) : Always x fun _ => True :=
  fun _ => trivial

omit [RandomSource σ] in
theorem mono {R : α → Prop} {x : StateM σ α} (always : Always x P) (weaker : ∀ a, P a → R a) :
    Always x R :=
  fun source => weaker _ (always source)

omit [RandomSource σ] in
theorem ite {x y : StateM σ α} {condition : Prop} [Decidable condition]
    (yes : condition → Always x P) (no : ¬ condition → Always y P) :
    Always (if condition then x else y) P := by
  split
  · exact yes ‹_›
  · exact no ‹_›

omit [RandomSource σ] in
theorem dite {condition : Prop} [Decidable condition] {x : condition → StateM σ α}
    {y : ¬ condition → StateM σ α} (yes : ∀ h, Always (x h) P) (no : ∀ h, Always (y h) P) :
    Always (if h : condition then x h else y h) P := by
  split
  · exact yes _
  · exact no _

end Always

namespace RandomSource

theorem always_chooseCons (first : α) (rest : List α) :
    Always (chooseCons first rest : StateM σ α) (· ∈ first :: rest) :=
  (Always.drawn _).bind fun _ _ => .pure (List.getElem_mem _)

theorem always_choose {xs : List α} (nonempty : xs ≠ []) :
    Always (choose xs nonempty : StateM σ α) (· ∈ xs) := by
  cases xs with
  | nil => exact absurd rfl nonempty
  | cons first rest => exact always_chooseCons first rest

end RandomSource

namespace Config

theorem mem_callable {c : Config} {r : Routine} : r ∈ c.callable ↔ 0 < c.slotsPerRoutine.get r := by
  simp [callable]

end Config

namespace Action

def Playable (c : Config) : Action → Prop
  | .forward | .turn _ | .paint _ => True
  | .call r => 0 < c.slotsPerRoutine.get r
  | .noop | .other _ => False

theorem Playable.isKnown {c : Config} {a : Action} (playable : a.Playable c) : a.isKnown = true := by
  cases a with
  | other => exact playable.elim
  | _ => rfl

theorem mem_paints {a : Action} : a ∈ paints ↔ ∃ color, a = .paint color := by
  simp [paints, eq_comm]

theorem mem_allowedActions {c : Config} {a : Action} : a ∈ c.allowedActions ↔ a.Playable c := by
  cases a with
  | turn t => cases t <;> simp [Config.allowedActions, Playable]
  | _ => simp [Config.allowedActions, Playable, paints, Config.mem_callable]

theorem playable_forward (c : Config) : forward.Playable c :=
  trivial

theorem playable_call {c : Config} {r : Routine} (callable : r ∈ c.callable) : (call r).Playable c :=
  Config.mem_callable.mp callable

theorem playable_paint {c : Config} {a : Action} (paint : a ∈ paints) : a.Playable c := by
  obtain ⟨color, rfl⟩ := mem_paints.mp paint
  trivial

theorem always_drawPaint (c : Config) : Always (drawPaint : StateM σ Action) (Playable c) :=
  (RandomSource.always_choose _).mono fun _ => playable_paint

theorem always_draw (c : Config) (repeated : Option Turn) :
    Always (draw c.weights c.callable repeated : StateM σ Action) (Playable c) := by
  refine (Always.drawn _).bind fun unit _ => ?_
  refine .ite (fun _ => .pure trivial) fun _ => .ite (fun _ => ?_) fun _ => ?_
  · cases repeated with
    | some t => exact .pure trivial
    | none => exact (Always.drawn _).bind fun t _ => .pure trivial
  · refine .dite (fun _ => ?_) fun _ => always_drawPaint c
    exact (RandomSource.always_choose _).bind fun r callable => .pure (playable_call callable)

theorem playable_closing {c : Config} {a : Action} (closing : a ∈ closing c.callable) :
    a.Playable c := by
  simp only [Action.closing, List.mem_append, List.mem_map, List.mem_filter] at closing
  rcases closing with (plain | ⟨r, ⟨callable, -⟩, rfl⟩) | paint
  · cases a with
    | forward | turn => trivial
    | _ => simp at plain
  · exact playable_call callable
  · exact playable_paint paint

end Action

namespace Program

/-- The program has the slots that the configuration gives it, and all of them hold instructions that
the puzzle allows. Conditions are colours by their type. -/
structure Playable (c : Config) (p : Program) : Prop where
  lengths : p.lengths = c.slotsPerRoutine
  filled : ∀ s, p.HasSlot s → ∃ i, p.at? s = some i ∧ i.action.Playable c

theorem always_drawInstruction (c : Config) (before : Option Instruction) (last : Bool) :
    Always (drawInstruction c before last : StateM σ Instruction) (·.action.Playable c) := by
  refine (Always.drawn _).bind fun condition _ => ?_
  refine (Action.always_draw c _).bind fun action playable => .ite (fun _ => ?_) fun _ => .pure playable
  refine (Always.drawn _).bind fun conditional _ => .ite (fun _ => ?_) fun _ => ?_
  · exact (Always.drawn _).bind fun _ _ => .pure playable
  · exact (RandomSource.always_choose _).bind fun other closing =>
      .pure (Action.playable_closing closing)

def FilledWith (c : Config) (n : Nat) (slots : List (Option Instruction)) : Prop :=
  slots.length = n ∧ ∀ slot ∈ slots, ∃ i, slot = some i ∧ i.action.Playable c

theorem always_drawSlots (c : Config) (r : Routine) (before : Option Instruction) (n : Nat) :
    Always (drawSlots c r before n : StateM σ (List (Option Instruction))) (FilledWith c n) := by
  induction n generalizing before with
  | zero => exact .pure ⟨rfl, by simp⟩
  | succ n ih =>
    refine (always_drawInstruction c before _).bind fun i playable => ?_
    refine (ih (some i)).bind fun rest filled => .pure ⟨congrArg (· + 1) filled.1, ?_⟩
    intro slot mem
    rcases List.mem_cons.mp mem with rfl | mem
    · exact ⟨i, rfl, playable⟩
    · exact filled.2 slot mem

theorem playable_of_filled {c : Config} {p : Program}
    (filled : ∀ r, FilledWith c (c.slotsPerRoutine.get r) (p.body.get r)) : p.Playable c where
  lengths := by
    ext r
    rw [Program.lengths, PerRoutine.get_ofFn]
    exact (filled r).1
  filled s has := by
    obtain ⟨i, holds, playable⟩ := (filled s.routine).2 _ (List.getElem_mem has)
    refine ⟨i, ?_, playable⟩
    rw [at?, List.getElem?_eq_getElem has, holds]
    rfl

theorem always_routines {c : Config} {P : Routine → List (Option Instruction) → Prop}
    (drawn : ∀ r, Always
      (drawSlots c r none (c.slotsPerRoutine.get r) : StateM σ (List (Option Instruction))) (P r)) :
    Always (draw c : StateM σ Program) fun p => ∀ r, P r (p.body.get r) := by
  refine (drawn .f1).bind fun f1 one => (drawn .f2).bind fun f2 two => (drawn .f3).bind fun f3 three =>
    (drawn .f4).bind fun f4 four => (drawn .f5).bind fun f5 five => .pure fun r => ?_
  cases r with
  | f1 => exact one
  | f2 => exact two
  | f3 => exact three
  | f4 => exact four
  | f5 => exact five

theorem always_drawProgram (c : Config) : Always (draw c : StateM σ Program) (Playable c) :=
  (always_routines fun r => always_drawSlots c r none _).mono fun _ => playable_of_filled

end Program

end GridRobot
