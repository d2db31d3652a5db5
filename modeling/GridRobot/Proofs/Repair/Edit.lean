import GridRobot.Proofs.Draw
import GridRobot.Proofs.Run.Record
import GridRobot.Repair.Case

namespace GridRobot

variable {σ : Type} [RandomSource σ]

/-- On the working copy `p` the computation meets no address that fails, and its outcomes, each with the
copy it leaves, satisfy `P`. -/
def Makes (p : Program) (x : Repair σ α) (P : α → Program → Prop) : Prop :=
  ∀ source, ∃ a copy after, x p source = (.ok (a, copy), after) ∧ P a copy

def Yields (p : Program) (x : Repair σ α) (P : α → Prop) : Prop :=
  Makes p x fun a copy => copy = p ∧ P a

def Applies (p : Program) (x : Repair σ Bool) (Q : Program → Prop) : Prop :=
  Makes p x fun applied copy => (applied = true → Q copy) ∧ (applied = false → copy = p)

section Makes

omit [RandomSource σ]

variable {p : Program} {P : α → Prop} {Q : Program → Prop} {R : β → Program → Prop}

theorem repair_bind_of_ok {x : Repair σ α} {f : α → Repair σ β} {copy : Program} {source between : σ}
    {a : α} (ran : x p source = (.ok (a, copy), between)) :
    (x >>= f) p source = f a copy between := by
  have opened : (x >>= f) p source =
      ExceptT.bindCont (m := StateM σ) (fun result : α × Program => f result.1 result.2)
        (x p source).1 (x p source).2 := rfl
  rw [opened, ran]
  rfl

theorem Yields.pure {a : α} (holds : P a) : Yields p (pure a : Repair σ α) P :=
  fun source => ⟨a, p, source, rfl, rfl, holds⟩

theorem Yields.bind {x : Repair σ α} {f : α → Repair σ β} (first : Yields p x P)
    (rest : ∀ a, P a → Makes p (f a) R) : Makes p (x >>= f) R := by
  intro source
  obtain ⟨a, copy, between, ran, rfl, holds⟩ := first source
  obtain ⟨b, last, after, went, done⟩ := rest a holds between
  exact ⟨b, last, after, (repair_bind_of_ok ran).trans went, done⟩

theorem Makes.mono {S : β → Program → Prop} {x : Repair σ β} (makes : Makes p x R)
    (weaker : ∀ b copy, R b copy → S b copy) : Makes p x S := by
  intro source
  obtain ⟨b, copy, after, ran, holds⟩ := makes source
  exact ⟨b, copy, after, ran, weaker b copy holds⟩

theorem Makes.ite {x y : Repair σ β} {condition : Prop} [Decidable condition]
    (yes : condition → Makes p x R) (no : ¬ condition → Makes p y R) :
    Makes p (if condition then x else y) R := by
  split
  · exact yes ‹_›
  · exact no ‹_›

theorem Always.yields {x : StateM σ α} (always : Always x P) : Yields p (Case.drawn x) P :=
  fun source => ⟨_, p, _, rfl, rfl, always source⟩

theorem liftM_apply {x : Except AddressError α} {a : α} (read : x = .ok a) (p : Program) (source : σ) :
    (liftM x : Repair σ α) p source = (.ok (a, p), source) := by
  rw [read]
  rfl

theorem yields_of_ok {x : Except AddressError α} {a : α} (read : x = .ok a) (holds : P a) :
    Yields p (liftM x : Repair σ α) P :=
  fun source => ⟨a, p, source, liftM_apply read p source, rfl, holds⟩

theorem get_apply (p : Program) (source : σ) :
    (get : Repair σ Program) p source = (.ok (p, p), source) :=
  rfl

theorem Makes.get {f : Program → Repair σ β} (rest : Makes p (f p) R) : Makes p (get >>= f) R := by
  intro source
  obtain ⟨b, copy, after, went, done⟩ := rest source
  exact ⟨b, copy, after, (repair_bind_of_ok (get_apply p source)).trans went, done⟩

theorem applies_decline : Applies p (pure false : Repair σ Bool) Q :=
  fun source => ⟨false, p, source, rfl, by simp⟩

end Makes

theorem exists_filterM {ε : Type} {α : Type} {f : α → Except ε Bool} {xs : List α}
    (reads : ∀ a ∈ xs, ∃ b, f a = .ok b) : ∃ found, xs.filterM f = .ok found ∧ found ⊆ xs := by
  have aux (kept : List α) : ∃ found, xs.filterAuxM f kept = .ok found ∧ found ⊆ xs ++ kept := by
    induction xs generalizing kept with
    | nil => exact ⟨kept, rfl, fun _ mem => mem⟩
    | cons x xs ih =>
      obtain ⟨b, read⟩ := reads x List.mem_cons_self
      obtain ⟨found, rest, within⟩ := ih (fun a mem => reads a (List.mem_cons_of_mem _ mem))
        (if b then x :: kept else kept)
      refine ⟨found, ?_, fun a mem => ?_⟩
      · rw [List.filterAuxM, read]
        cases b <;> exact rest
      · rcases List.mem_append.mp (within mem) with later | before
        · exact List.mem_append_left _ (List.mem_cons_of_mem _ later)
        · cases b with
          | false => exact List.mem_append_right _ before
          | true =>
            rcases List.mem_cons.mp before with rfl | before
            · exact List.mem_append_left _ List.mem_cons_self
            · exact List.mem_append_right _ before
  obtain ⟨found, read, within⟩ := aux []
  refine ⟨found.reverse, ?_, fun a mem => ?_⟩
  · rw [List.filterM, read]
    rfl
  · simpa using within (List.mem_reverse.mp mem)

namespace Program

def Fills (p : Program) (a : Address) : Prop :=
  ∃ s i, a = .ofSlot s ∧ p.at? s = some i

theorem readFilled_ofSlot {p : Program} {s : Slot} {i : Instruction} (filled : p.at? s = some i) :
    p.readFilled (.ofSlot s) = .ok i := by
  rw [readFilled, read_ofSlot (hasSlot_of_at? filled), filled]
  rfl

theorem hasSlot_iff {p : Program} {s : Slot} : p.HasSlot s ↔ s.index < p.lengths.get s.routine := by
  rw [HasSlot, lengths, PerRoutine.get_ofFn]

theorem hasSlot_put {p : Program} {s t : Slot} {i : Option Instruction} :
    (p.put s i).HasSlot t ↔ p.HasSlot t := by
  rw [hasSlot_iff, hasSlot_iff, lengths_put]

end Program

namespace Case

structure Fits (c : Case) : Prop where
  lengths : c.program.lengths = c.config.slotsPerRoutine
  executed : ∀ a ∈ c.evidence.executed, c.program.Fills a
  boundary : ∀ a, c.evidence.boundarySlot = some a → c.program.Fills a
  recent : ∀ a ∈ c.evidence.recentForwards, c.program.Fills a

theorem fits_ofTrace {p : Program} {t : Trace} {config : Config} (records : t.Records p)
    (lengths : p.lengths = config.slotsPerRoutine) (policy : Policy) :
    Fits ⟨p, .ofTrace t, config, policy⟩ := by
  have fills {s : Slot} (executed : s ∈ t.executed.keys) : p.Fills (.ofSlot s) := by
    obtain ⟨i, filled⟩ := records.executed.all s executed
    exact ⟨s, i, rfl, filled⟩
  refine ⟨lengths, fun a listed => ?_, fun a left => ?_, fun a listed => ?_⟩
  · obtain ⟨s, executed, rfl⟩ := List.mem_map.mp listed
    exact fills executed
  · obtain ⟨s, ended, rfl⟩ := Option.map_eq_some_iff.mp left
    exact fills (records.boundary s ended)
  · obtain ⟨s, recent, rfl⟩ := List.mem_map.mp listed
    exact fills (records.recent s recent)

/-- The program with one slot filled anew. The action is playable, or the slot had it before. -/
inductive Replaces (c : Case) : Program → Prop
  | put {s : Slot} {i : Instruction} (has : c.program.HasSlot s)
      (action : i.action.Playable c.config ∨ ∃ old, c.program.at? s = some old ∧ i.action = old.action) :
      Replaces c (c.program.put s (some i))

/-- The computation replaces one instruction, or declines. -/
def Edits (c : Case) (x : Repair σ Bool) : Prop :=
  Applies c.program x c.Replaces

section Edits

variable {c : Case}

section

omit [RandomSource σ]

variable {p : Program} {s : Slot} {i : Instruction}

theorem place_apply (has : p.HasSlot s) (action : Action) (condition : Option Color) (source : σ) :
    (place (.ofSlot s) action condition : Repair σ Bool) p source =
      (.ok (true, p.put s (some ⟨action, condition⟩)), source) := by
  have written := liftM_apply (Program.write_ofSlot has (some ⟨action, condition⟩)) p source
  exact (repair_bind_of_ok (get_apply p source)).trans (repair_bind_of_ok written)

theorem amend_apply (filled : p.at? s = some i) (f : Instruction → Instruction) (source : σ) :
    (amend (.ofSlot s) f : Repair σ Bool) p source =
      (.ok (true, p.put s (some (f i))), source) := by
  have has := Program.hasSlot_of_at? filled
  have read := liftM_apply ((Program.read_ofSlot has).trans (congrArg _ filled)) p source
  have written := liftM_apply (Program.write_ofSlot has (some (f i))) p source
  refine (repair_bind_of_ok (get_apply p source)).trans ((repair_bind_of_ok read).trans ?_)
  exact (repair_bind_of_ok (get_apply p source)).trans (repair_bind_of_ok written)

theorem amend_apply_vacant (has : p.HasSlot s) (vacant : p.at? s = none)
    (f : Instruction → Instruction) (source : σ) :
    (amend (.ofSlot s) f : Repair σ Bool) p source = (.ok (false, p), source) := by
  have read := liftM_apply ((Program.read_ofSlot has).trans (congrArg _ vacant)) p source
  exact (repair_bind_of_ok (get_apply p source)).trans (repair_bind_of_ok read)

theorem edits_place (has : c.program.HasSlot s) {action : Action} (playable : action.Playable c.config)
    (condition : Option Color) :
    c.Edits (place (.ofSlot s) action condition : Repair σ Bool) := fun source =>
  ⟨true, _, source, place_apply has action condition source, fun _ => .put has (.inl playable), nofun⟩

theorem edits_amend {a : Address} (fills : c.program.Fills a) {f : Instruction → Instruction}
    (action : ∀ i, (f i).action.Playable c.config ∨ (f i).action = i.action) :
    c.Edits (amend a f : Repair σ Bool) := by
  obtain ⟨s, i, rfl, filled⟩ := fills
  intro source
  refine ⟨true, _, source, amend_apply filled f source, fun _ => ?_, nofun⟩
  exact .put (Program.hasSlot_of_at? filled) ((action i).imp_right fun kept => ⟨i, filled, kept⟩)

theorem edits_retype {a : Address} {action : Action} (fills : c.program.Fills a)
    (playable : action.Playable c.config) : c.Edits (retype a action : Repair σ Bool) :=
  edits_amend fills fun _ => .inl playable

theorem edits_recondition {a : Address} (fills : c.program.Fills a) (condition : Option Color) :
    c.Edits (recondition a condition : Repair σ Bool) :=
  edits_amend fills fun _ => .inr rfl

theorem edits_recondition_slot (has : c.program.HasSlot s) (condition : Option Color) :
    c.Edits (recondition (.ofSlot s) condition : Repair σ Bool) := by
  cases held : c.program.at? s with
  | some i => exact edits_recondition ⟨s, i, rfl, held⟩ condition
  | none => exact fun source =>
      ⟨false, _, source, amend_apply_vacant has held _ source, nofun, fun _ => rfl⟩

end

variable {p : Program}

theorem yields_pick {candidates : List α} (some : ¬ candidates.isEmpty = true) :
    Yields p (pick candidates : Repair σ α) (· ∈ candidates) := by
  cases candidates with
  | nil => exact absurd rfl some
  | cons a rest => exact (RandomSource.always_chooseCons a rest).yields

theorem yields_roll (c : Case) (o : Odds) : Yields p (c.roll o : Repair σ Bool) fun _ => True :=
  (Always.drawn _).yields

theorem applies_onRoll {Q : Program → Prop} {next : Repair σ Bool} (applies : Applies p next Q)
    (o : Odds) : Applies p (c.onRoll o next) Q :=
  (yields_roll c o).bind fun _ _ => .ite (fun _ => applies) fun _ => applies_decline

theorem edits_pick {candidates : List α} {next : α → Repair σ Bool}
    (some : ¬ candidates.isEmpty = true) (edits : ∀ a ∈ candidates, c.Edits (next a)) :
    c.Edits (do next (← pick candidates)) :=
  (yields_pick some).bind edits

theorem edits_onOne {candidates : List α} {next : α → Repair σ Bool}
    (edits : ∀ a ∈ candidates, c.Edits (next a)) : c.Edits (onOne candidates next) :=
  .ite (fun _ => applies_decline) fun some => edits_pick some edits

theorem edits_onOneRolled {candidates : List α} {o : Odds} {next : α → Repair σ Bool}
    (edits : ∀ a ∈ candidates, c.Edits (next a)) : c.Edits (c.onOneRolled candidates o next) :=
  .ite (fun _ => applies_decline) fun some => applies_onRoll (edits_pick some edits) o

theorem yields_turn : Yields p (drawTurn : Repair σ Action) fun a => ∃ t, a = .turn t :=
  (Always.drawn _).yields.bind fun t _ => Yields.pure ⟨t, rfl⟩

theorem yields_drawTurn (config : Config) :
    Yields p (drawTurn : Repair σ Action) (Action.Playable config) :=
  yields_turn.mono fun _ _ ⟨kept, _, turn⟩ => ⟨kept, turn ▸ trivial⟩

theorem yields_drawMove (c : Case) :
    Yields p (c.drawMove : Repair σ Action) (Action.Playable c.config) :=
  (yields_roll c _).bind fun _ _ => .ite (fun _ => Yields.pure trivial) fun _ => yields_drawTurn c.config

theorem yields_drawAction (c : Case) :
    Yields p (c.drawAction : Repair σ Action) (Action.Playable c.config) :=
  (Action.always_draw c.config none).yields

theorem edits_dropConditionWhere (q : Instruction → Bool) (o : Odds) :
    c.Edits (c.dropConditionWhere q o : Repair σ Bool) := by
  have go (slots : List Slot) (there : ∀ s ∈ slots, c.program.HasSlot s) :
      c.Edits (dropConditionWhere.go c q o slots : Repair σ Bool) := by
    induction slots with
    | nil => exact applies_decline
    | cons s rest ih =>
      have later := ih fun s mem => there s (List.mem_cons_of_mem _ mem)
      refine .ite (fun _ => ?_) fun _ => later
      refine (yields_roll c o).bind fun _ _ => .ite (fun _ => ?_) fun _ => later
      exact edits_recondition_slot (there s List.mem_cons_self) none
  exact go _ fun s mem => Program.mem_slots.mp mem

end Edits

/-! ## Candidates -/

section Candidates

variable {c : Case} {p : Program}

theorem hasSlot_of_mem_unexecuted {s : Slot} (mem : s ∈ c.unexecuted) : c.program.HasSlot s :=
  Program.mem_slots.mp (List.mem_filter.mp mem).1

omit [RandomSource σ] in
theorem yields_executedWhere (fits : c.Fits) (q : Instruction → Bool) :
    Yields p (liftM (c.executedWhere q) : Repair σ (List Address))
      fun found => ∀ a ∈ found, c.program.Fills a := by
  have reads (a : Address) (executed : a ∈ c.evidence.executed) :
      ∃ b, (do return (← c.program.read a).any q : Except AddressError Bool) = .ok b := by
    obtain ⟨s, i, rfl, filled⟩ := fits.executed a executed
    rw [Program.read_ofSlot (Program.hasSlot_of_at? filled)]
    exact ⟨_, rfl⟩
  obtain ⟨found, read, within⟩ := exists_filterM reads
  exact yields_of_ok read fun a mem => fits.executed a (within mem)

end Candidates

end Case

end GridRobot
