import GridRobot.Proofs.Repair.Strategies
import GridRobot.Random

namespace GridRobot

variable {σ : Type} [RandomSource σ]

namespace Case

variable {c : Case}

omit [RandomSource σ] in
theorem Declined.of_mem {offered : List (Strategy σ)} {source after : σ}
    (declined : c.Declined offered source after) {s : Strategy σ} (mem : s ∈ offered) :
    ∃ before between, s c c.program before = (.ok (false, c.program), between) := by
  induction declined with
  | nil => cases mem
  | cons now later ih =>
    rcases List.mem_cons.mp mem with rfl | mem
    · exact ⟨_, _, now⟩
    · exact ih mem

theorem Replaces.elsewhere {p : Program} (replaces : c.Replaces p) :
    ∃ s, ∀ other, other ≠ s → p.at? other = c.program.at? other := by
  cases replaces with
  | @put s i has action =>
    refine ⟨s, fun other apart => ?_⟩
    rw [Program.at?_put _ _ _ _ has, if_neg apart]

theorem Mends.lengths {failure : Option Failure} {p : Program} (mends : c.Mends failure p) :
    p.lengths = c.program.lengths := by
  rcases mends with ⟨-, -⟩ | ⟨-, -, -⟩ <;> simp

end Case

theorem Strategy.makes_fillAtRandom {c : Case} {pool : Case → List Slot}
    (has : ∀ s ∈ pool c, c.program.HasSlot s) (some : ¬ (pool c).isEmpty = true) :
    Makes c.program (fillAtRandom pool c : Repair σ Bool) fun applied _ => applied = true := by
  refine .ite (fun none => absurd none some) fun _ => (Case.yields_drawAction c).bind fun action _ => ?_
  refine (Always.drawn _).yields.bind fun condition _ => (Case.yields_pick some).bind fun s mem => ?_
  exact fun source => ⟨true, _, source, Case.place_apply (has s mem) action condition source, rfl⟩

theorem always_generic (c : Case) (failure : Option Failure) :
    Always (strategies c failure : StateM σ (List (Strategy σ))) fun offered =>
      Strategy.generic ⊆ offered := by
  cases failure with
  | none => exact .pure (List.Subset.refl _)
  | some f =>
    refine .ite (fun _ => .pure (List.Subset.refl _)) fun _ => (Always.drawn _).bind fun _ _ => ?_
    exact .ite (fun _ => .pure (List.subset_append_right _ _)) fun _ => .pure (List.Subset.refl _)

theorem Case.Declined.no_slot {c : Case} {failure : Option Failure} {offered : List (Strategy σ)}
    {source start after : σ} (drew : strategies c failure source = (offered, start))
    (declined : c.Declined offered start after) (s : Slot) : ¬ c.program.HasSlot s := by
  intro has
  have generic := always_generic c failure source
  rw [drew] at generic
  have last : (Strategy.fillAtRandom fun c => c.program.slots : Strategy σ) ∈ offered :=
    generic (by simp [Strategy.generic])
  obtain ⟨before, between, declined⟩ := declined.of_mem last
  have some : ¬ c.program.slots.isEmpty = true := by
    rw [List.isEmpty_iff]
    exact List.ne_nil_of_mem (Program.mem_slots.mpr has)
  have applies : Makes c.program (Strategy.fillAtRandom (fun c => c.program.slots) c : Repair σ Bool)
      fun applied _ => applied = true :=
    Strategy.makes_fillAtRandom (fun s mem => Program.mem_slots.mp mem) some
  obtain ⟨applied, _, _, ran, rfl⟩ := applies before
  rw [declined] at ran
  cases ran

theorem Case.Fits.declines {c : Case} (fits : c.Fits) (s : Strategy σ)
    (mem : s ∈ Strategy.generic ∨ ∃ f, s ∈ Strategy.family f) (source : σ) :
    ∃ applied copy last, s c c.program source = (.ok (applied, copy), last) ∧
      (applied = false → copy = c.program) := by
  have tries : ∃ f, c.Tries f s := by
    rcases mem with generic | ⟨f, aimed⟩
    · exact ⟨none, Strategy.tries_generic fits none s generic⟩
    · exact ⟨some f, Strategy.tries_family fits f s aimed⟩
  obtain ⟨f, tries⟩ := tries
  obtain ⟨applied, copy, last, ran, -, kept⟩ := tries source
  exact ⟨applied, copy, last, ran, kept⟩

/-- A repair that yields `q`. It keeps the lengths and all slots but one, or but two neighbours that were
not executed. A strategy that declines leaves the copy as it is; in a program with slots the strategies
decline up to one, which applies. -/
structure Case.Local (c : Case) (failure : Option Failure) (source : σ) (offered : List (Strategy σ))
    (start : σ) (q : Program) (last : σ) : Prop where
  drew : strategies c failure source = (offered, start)
  repaired : repair c failure source = (.ok q, last)
  lengths : q.lengths = c.program.lengths
  near : (∃ s, ∀ other, other ≠ s → q.at? other = c.program.at? other) ∨
    failure = some .minTiles ∧ c.ReplacesPair q
  declines : ∀ s : Strategy σ, (s ∈ Strategy.generic ∨ ∃ f, s ∈ Strategy.family f) → ∀ source,
    ∃ applied copy last, s c c.program source = (.ok (applied, copy), last) ∧
      (applied = false → copy = c.program)
  applies : (∃ s, c.program.HasSlot s) → c.Applied offered start q last

/-- A program that was run is repaired, and the repair is local. -/
theorem repair_local {ρ : Type} [RandomSource ρ] {p : Program} {config : Config} {setting : Setting}
    {suppressed : Slot → Bool} {before after : ρ} {t : Trace}
    (lengths : p.lengths = config.slotsPerRoutine)
    (ran : execute p config setting suppressed before = (.ok t, after)) (policy : Policy)
    (failure : Option Failure) (source : σ) :
    ∃ offered start q last,
      Case.Local ⟨p, .ofTrace t, config, policy⟩ failure source offered start q last := by
  have fits := Case.fits_ofTrace (records_of_execute ran).1 lengths policy
  obtain ⟨offered, start, q, last, drew, repaired, ended⟩ := repair_cases fits failure source
  refine ⟨offered, start, q, last, drew, repaired, ?_, ?_, fits.declines, ?_⟩
  · rcases ended with ⟨-, mends⟩ | ⟨-, rfl⟩
    · exact mends.lengths
    · rfl
  · rcases ended with ⟨-, replaces | pair⟩ | ⟨-, rfl⟩
    · exact .inl replaces.elsewhere
    · exact .inr pair
    · exact .inl ⟨⟨.f1, 0⟩, fun _ _ => rfl⟩
  · rintro ⟨s, has⟩
    rcases ended with ⟨applied, -⟩ | ⟨declined, -⟩
    · exact applied
    · exact absurd has (declined.no_slot drew s)

def stayInFirst : Program :=
  ⟨⟨[some ⟨.call .f1, none⟩, none, none], [], [], [], []⟩⟩

def threeSlots : Config where
  slotsPerRoutine := ⟨3, 0, 0, 0, 0⟩
  maxSteps := 2
  gridSize := 1

def pairTape : Tape :=
  ⟨#[0.1, 0.9, 0.1, 0.9], 0, false⟩

theorem repair_local_stayInFirst :
    ∃ t after, execute stayInFirst threeSlots {} (fun _ => false) pairTape = (.ok t, after) ∧
      ∃ offered start q last,
        strategies ⟨stayInFirst, .ofTrace t, threeSlots, {}⟩ (some .minTiles) pairTape =
          (offered, start) ∧
        repair ⟨stayInFirst, .ofTrace t, threeSlots, {}⟩ (some .minTiles) pairTape = (.ok q, last) ∧
        q.at? ⟨.f1, 1⟩ = some ⟨.forward, none⟩ ∧ q.at? ⟨.f1, 2⟩ = some ⟨.turn .right, none⟩ ∧
        Case.Applied ⟨stayInFirst, .ofTrace t, threeSlots, {}⟩ offered start q last := by
  have evaluated : (execute stayInFirst threeSlots {} (fun _ => false) pairTape).1.toOption.any
      (fun t => (repair ⟨stayInFirst, .ofTrace t, threeSlots, {}⟩ (some .minTiles) pairTape).1.toOption.any
        fun q => decide (q.at? ⟨.f1, 1⟩ = some ⟨.forward, none⟩ ∧
          q.at? ⟨.f1, 2⟩ = some ⟨.turn .right, none⟩)) = true := by
    decide +kernel
  obtain ⟨t, after, ran, tested⟩ := exists_ok_of_any evaluated
  obtain ⟨r, ended, repaired, placed⟩ := exists_ok_of_any tested
  obtain ⟨offered, start, q, last, here⟩ :=
    repair_local (p := stayInFirst) rfl ran {} (some .minTiles) pairTape
  obtain ⟨first, second⟩ := of_decide_eq_true placed
  cases repaired.symm.trans here.repaired
  have hasSlot : stayInFirst.HasSlot ⟨.f1, 0⟩ := by decide
  exact ⟨t, after, ran, offered, start, r, ended, here.drew, here.repaired, first, second,
    here.applies ⟨⟨.f1, 0⟩, hasSlot⟩⟩

end GridRobot
