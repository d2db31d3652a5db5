import GridRobot.Config.Basic
import GridRobot.Config.Record
import GridRobot.Proofs.Record.Codec

namespace GridRobot

/-! ## Checked values -/

section Checked

variable {α β : Type} {a : α}

theorem Checked.map_eq_ok {x : Checked α} (f : α → β) (read : x = .ok a) :
    f <$> x = .ok (f a) := by
  rw [read]
  rfl

theorem Checked.seq_eq_ok {f : Checked (α → β)} {g : α → β} {x : Checked α} (first : f = .ok g)
    (read : x = .ok a) : f <*> x = .ok (g a) := by
  rw [first, read]
  rfl

theorem Checked.test_eq_ok {x : Checked α} (read : x = .ok a) {keeps : α → Bool}
    (kept : keeps a = true) (c : Complaint) : x.test keeps c = .ok a := by
  rw [read, test]
  simp only [Checked.ok, kept, if_true]

end Checked

namespace Reading

/-! ## Numbers -/

variable {least most : Int} {n : Int} {x : Float}

theorem integerFrom_int (low : least ≤ n) : integerFrom least (.int n) = .ok n :=
  Checked.test_eq_ok (show integer (.int n) = .ok n from rfl) (decide_eq_true low) _

theorem integerBetween_int (low : least ≤ n) (high : n ≤ most) :
    integerBetween least most (.int n) = .ok n :=
  Checked.test_eq_ok (integerFrom_int low) (decide_eq_true high) _

theorem natural_nat (n : Nat) : natural (.nat n) = .ok n :=
  Checked.map_eq_ok Int.toNat (integerFrom_int (Int.natCast_nonneg n))

theorem positive_nat {n : Nat} (pos : 1 ≤ n) : positive (.nat n) = .ok n :=
  Checked.map_eq_ok Int.toNat (integerFrom_int (Int.ofNat_le.mpr pos))

theorem integerBetween_nat {low high n : Nat} (above : low ≤ n) (below : n ≤ high) :
    (integerBetween low high (.nat n)).map Int.toNat = .ok n :=
  Checked.map_eq_ok Int.toNat (integerBetween_int (Int.ofNat_le.mpr above) (Int.ofNat_le.mpr below))

theorem weight_float (unsigned : 0 ≤ x) : weight (.float x) = .ok x :=
  Checked.test_eq_ok (show number (.float x) = .ok x from rfl) (decide_eq_true unsigned) _

theorem percent_float (within : 0 ≤ x ∧ x ≤ 100) : percent (.float x) = .ok x := by
  have number : number (.float x) = .ok x := rfl
  exact Checked.test_eq_ok (Checked.test_eq_ok number (decide_eq_true within.2) _)
    (decide_eq_true within.1) _

theorem truth_bool (b : Bool) : truth (.bool b) = .ok b :=
  rfl

/-! ## Members -/

variable {α : Type} {members : List (String × Json)}

theorem closed_names {names : List String} (own : members.map (·.1) = names) (x : Checked α) :
    closed members names x = x := by
  have used : ∀ m ∈ members, (names.filterMap fun name => (member? members name).map (·.1)).contains
      m.1 = true := by
    intro m mem
    obtain ⟨m', found⟩ : ∃ m', (members.find? fun m' => m'.1 == m.1) = some m' :=
      Option.isSome_iff_exists.mp (List.find?_isSome.mpr ⟨m, mem, beq_self_eq_true m.1⟩)
    have same : m'.1 = m.1 := by simpa using List.find?_some found
    refine List.contains_iff_mem.mpr (List.mem_filterMap.mpr ⟨m.1, ?_, ?_⟩)
    · rw [← own]
      exact List.mem_map_of_mem mem
    · rw [member?, found, ← same]
      rfl
  have extra : (members.filter fun m =>
      !(names.filterMap fun name => (member? members name).map (·.1)).contains m.1) = [] :=
    List.filter_eq_nil_iff.mpr fun m mem => by rw [used m mem]; decide
  rw [closed]
  simp only [extra]
  rfl

theorem field_eq_ok {name : String} {v : Json} {a : α} {read : Json → Checked α}
    (held : Json.lookup? members name = some v) (reads : read v = .ok a) (absent : α) :
    field members name absent read = .ok a := by
  obtain ⟨m, found, rfl⟩ := Option.map_eq_some_iff.mp held
  have own : member? members name = some m := by
    rw [member?, found]
    rfl
  rw [field, own]
  simp only [reads]
  rfl

end Reading

/-! ## Records -/

open Reading Checked

theorem ColorRatios.ofRecord_toRecord {c : ColorRatios}
    (unsigned : 0 ≤ c.red ∧ 0 ≤ c.green ∧ 0 ≤ c.blue) : ofRecord c.toRecord = .ok c := by
  obtain ⟨red, green, blue⟩ := unsigned
  rw [toRecord, ofRecord]
  refine (closed_names (by rfl) _).trans ?_
  exact seq_eq_ok (seq_eq_ok (map_eq_ok mk (field_eq_ok rfl (weight_float red) _))
    (field_eq_ok rfl (weight_float green) _)) (field_eq_ok rfl (weight_float blue) _)

theorem ActionWeights.ofRecord_toRecord {w : ActionWeights}
    (unsigned : 0 ≤ w.forward ∧ 0 ≤ w.turn ∧ 0 ≤ w.call ∧ 0 ≤ w.paint) :
    ofRecord w.toRecord = .ok w := by
  obtain ⟨forward, turn, call, paint⟩ := unsigned
  rw [toRecord, ofRecord]
  refine (closed_names (by rfl) _).trans ?_
  exact seq_eq_ok (seq_eq_ok (seq_eq_ok
    (map_eq_ok mk (field_eq_ok rfl (weight_float forward) _))
    (field_eq_ok rfl (weight_float turn) _))
    (field_eq_ok rfl (weight_float call) _))
    (field_eq_ok rfl (weight_float paint) _)

namespace Config

theorem slotsOfRecord_toRecord {slots : PerRoutine Nat} (bounded : ∀ r, slots.get r ≤ maxSlots) :
    slotsOfRecord slots.toRecord = .ok slots := by
  obtain ⟨members, written, names, held⟩ : ∃ members, slots.toRecord = .object members ∧
      members.map (·.1) = Routine.all.map Routine.name ∧
      ∀ r : Routine, Json.lookup? members r.name = some (.nat (slots.get r)) :=
    ⟨_, rfl, rfl, lookup?_entries Json.nat slots⟩
  have length (r : Routine) : field members r.name 10
      (fun v => (integerBetween 0 maxSlots v).map Int.toNat) = .ok (slots.get r) :=
    field_eq_ok (held r) (integerBetween_nat (Nat.zero_le _) (bounded r)) _
  rw [written, slotsOfRecord]
  refine (closed_names names _).trans ?_
  exact seq_eq_ok (seq_eq_ok (seq_eq_ok (seq_eq_ok (map_eq_ok PerRoutine.mk (length .f1)) (length .f2))
    (length .f3)) (length .f4)) (length .f5)

theorem ofRecord_toRecord {c : Config} (valid : c.Valid) : ofRecord c.toRecord = .ok c := by
  rw [toRecord, ofRecord]
  refine (closed_names (by rfl) _).trans ?_
  cases c
  -- the last member of the record is the last argument and comes first
  refine seq_eq_ok ?_ (field_eq_ok rfl (integerFrom_int valid.unneededPaints) _)
  refine seq_eq_ok ?_ (field_eq_ok rfl (natural_nat _) _)
  refine seq_eq_ok ?_ (field_eq_ok rfl (natural_nat _) _)
  refine seq_eq_ok ?_ (field_eq_ok rfl (natural_nat _) _)
  refine seq_eq_ok ?_ (field_eq_ok rfl (truth_bool _) _)
  refine seq_eq_ok ?_ (field_eq_ok rfl (weight_float valid.retraceRatio) _)
  refine seq_eq_ok ?_ (field_eq_ok rfl (positive_nat valid.restart) _)
  refine seq_eq_ok ?_ (field_eq_ok rfl (natural_nat _) _)
  refine seq_eq_ok ?_ (field_eq_ok rfl (natural_nat _) _)
  refine seq_eq_ok ?_ (field_eq_ok rfl (weight_float valid.averageExecutions) _)
  refine seq_eq_ok ?_ (field_eq_ok rfl (natural_nat _) _)
  refine seq_eq_ok ?_ (field_eq_ok rfl (natural_nat _) _)
  refine seq_eq_ok ?_ (field_eq_ok rfl (natural_nat _) _)
  refine seq_eq_ok ?_ (field_eq_ok rfl (natural_nat _) _)
  refine seq_eq_ok ?_ (field_eq_ok rfl (ActionWeights.ofRecord_toRecord valid.weights) _)
  refine seq_eq_ok ?_ (field_eq_ok rfl (percent_float valid.conditional) _)
  refine seq_eq_ok ?_ (field_eq_ok rfl (percent_float valid.coverage) _)
  refine seq_eq_ok ?_ (field_eq_ok rfl (ColorRatios.ofRecord_toRecord valid.ratios) _)
  refine seq_eq_ok ?_ (field_eq_ok rfl (integerBetween_nat valid.grid.1 valid.grid.2) _)
  refine seq_eq_ok ?_ (field_eq_ok rfl (positive_nat valid.steps) _)
  exact map_eq_ok mk (field_eq_ok rfl (slotsOfRecord_toRecord valid.slots) _)

end Config

/-! ## Bounds -/

section Yields

variable {α β : Type} {P : α → Prop}

def Checked.Yields (x : Checked α) (P : α → Prop) : Prop :=
  ∀ a, x.result = .ok a → P a

namespace Checked.Yields

theorem any (x : Checked α) : x.Yields fun _ => True :=
  fun _ _ => trivial

theorem fail (c : Complaint) : (Checked.fail c : Checked α).Yields P := by
  intro a read
  cases read

theorem map {x : Checked α} {f : α → β} {R : β → Prop} (value : x.Yields P)
    (keeps : ∀ a, P a → R (f a)) : (f <$> x).Yields R := by
  intro b read
  obtain ⟨result⟩ := x
  cases result with
  | error issues => cases read
  | ok a =>
    cases read
    exact keeps a (value a rfl)

theorem seq {f : Checked (α → β)} {x : Checked α} {R : β → Prop}
    (first : f.Yields fun g => ∀ a, P a → R (g a)) (value : x.Yields P) : (f <*> x).Yields R := by
  intro b read
  obtain ⟨function⟩ := f
  obtain ⟨result⟩ := x
  cases function with
  | error issues => cases result <;> cases read
  | ok g =>
    cases result with
    | error issues => cases read
    | ok a =>
      cases read
      exact first g rfl a (value a rfl)

theorem test {x : Checked α} {keeps : α → Bool} (value : x.Yields P) (c : Complaint) :
    (x.test keeps c).Yields fun a => P a ∧ keeps a = true := by
  intro a read
  obtain ⟨result⟩ := x
  cases result with
  | error issues => cases read
  | ok b =>
    simp only [Checked.test] at read
    split at read
    · rename_i kept
      cases read
      exact ⟨value a rfl, kept⟩
    · cases read

theorem closed {members : List (String × Json)} {names : List String} {x : Checked α}
    (value : x.Yields P) : (closed members names x).Yields P := by
  unfold Reading.closed
  dsimp only
  split
  · exact value
  · intro a read
    cases read

theorem field {members : List (String × Json)} {name : String} {absent : α} {read : Json → Checked α}
    (default : P absent) (value : ∀ v, (read v).Yields P) :
    (field members name absent read).Yields P := by
  unfold Reading.field
  split
  · rename_i key v _
    intro a found
    refine value v a ?_
    generalize read v = x at found
    obtain ⟨result⟩ := x
    cases result with
    | error issues => cases found
    | ok b => exact found
  · intro a found
    cases found
    exact default

end Checked.Yields

end Yields

namespace Reading

variable (v : Json)

theorem yields_integerFrom (least : Int) : (integerFrom least v).Yields (least ≤ ·) := by
  intro n read
  obtain ⟨-, low⟩ := (Yields.any _).test _ n read
  exact of_decide_eq_true low

theorem yields_integerBetween (least most : Int) :
    (integerBetween least most v).Yields fun n => least ≤ n ∧ n ≤ most := by
  intro n read
  obtain ⟨low, high⟩ := (yields_integerFrom v least).test _ n read
  exact ⟨low, of_decide_eq_true high⟩

theorem yields_between (low high : Nat) :
    ((integerBetween low high v).map Int.toNat).Yields fun n => low ≤ n ∧ n ≤ high :=
  (yields_integerBetween v low high).map fun _ _ => by omega

theorem yields_positive : (positive v).Yields (1 ≤ ·) :=
  (yields_integerFrom v 1).map fun _ _ => by omega

theorem yields_weight : (weight v).Yields (0 ≤ ·) := by
  intro x read
  obtain ⟨-, unsigned⟩ := (Yields.any _).test _ x read
  exact of_decide_eq_true unsigned

theorem yields_percent : (percent v).Yields fun x => 0 ≤ x ∧ x ≤ 100 := by
  intro x read
  obtain ⟨⟨-, within⟩, unsigned⟩ := ((Yields.any _).test _).test _ x read
  exact ⟨of_decide_eq_true unsigned, of_decide_eq_true within⟩

end Reading

open Yields

theorem ColorRatios.yields_ofRecord (v : Json) :
    (ofRecord v).Yields fun c => 0 ≤ c.red ∧ 0 ≤ c.green ∧ 0 ≤ c.blue := by
  cases v with
  | object members =>
    refine closed (seq (seq ?_ (field (by decide) yields_weight)) (field (by decide) yields_weight))
    refine (field (by decide) yields_weight).map ?_
    intro red unsignedRed green unsignedGreen blue unsignedBlue
    exact ⟨unsignedRed, unsignedGreen, unsignedBlue⟩
  | _ => exact fail _

theorem ActionWeights.yields_ofRecord (v : Json) :
    (ofRecord v).Yields fun w => 0 ≤ w.forward ∧ 0 ≤ w.turn ∧ 0 ≤ w.call ∧ 0 ≤ w.paint := by
  cases v with
  | object members =>
    refine closed (seq (seq (seq ?_ (field (by decide) yields_weight))
      (field (by decide) yields_weight)) (field (by decide) yields_weight))
    refine (field (by decide) yields_weight).map ?_
    intro forward unsignedForward turn unsignedTurn call unsignedCall paint unsignedPaint
    exact ⟨unsignedForward, unsignedTurn, unsignedCall, unsignedPaint⟩
  | _ => exact fail _

namespace Config

theorem yields_slotsOfRecord (v : Json) :
    (slotsOfRecord v).Yields fun slots => ∀ r, slots.get r ≤ maxSlots := by
  cases v with
  | object members =>
    have length (r : Routine) : (Reading.field members r.name 10
        fun v => (integerBetween 0 maxSlots v).map Int.toNat).Yields fun n => 0 ≤ n ∧ n ≤ maxSlots :=
      field (by decide) fun v => yields_between v 0 maxSlots
    refine closed (seq (seq (seq (seq ?_ (length .f2)) (length .f3)) (length .f4)) (length .f5))
    refine (length .f1).map ?_
    intro n₁ short₁ n₂ short₂ n₃ short₃ n₄ short₄ n₅ short₅ r
    cases r
    exacts [short₁.2, short₂.2, short₃.2, short₄.2, short₅.2]
  | _ => exact fail _

theorem yields_ofRecord (v : Json) : (ofRecord v).Yields Valid := by
  have standard : Valid {} := Preset.standard.valid
  cases v with
  | object members =>
    refine closed ?_
    refine seq ?_ (field standard.unneededPaints fun v => yields_integerFrom v (-1))
    refine seq ?_ (any _)
    refine seq ?_ (any _)
    refine seq ?_ (any _)
    refine seq ?_ (any _)
    refine seq ?_ (field standard.retraceRatio yields_weight)
    refine seq ?_ (field standard.restart yields_positive)
    refine seq ?_ (any _)
    refine seq ?_ (any _)
    refine seq ?_ (field standard.averageExecutions yields_weight)
    refine seq ?_ (any _)
    refine seq ?_ (any _)
    refine seq ?_ (any _)
    refine seq ?_ (any _)
    refine seq ?_ (field standard.weights ActionWeights.yields_ofRecord)
    refine seq ?_ (field standard.conditional yields_percent)
    refine seq ?_ (field standard.coverage yields_percent)
    refine seq ?_ (field standard.ratios ColorRatios.yields_ofRecord)
    refine seq ?_ (field standard.grid fun v => yields_between v 1 maxGridSize)
    refine seq ?_ (field standard.steps yields_positive)
    refine (field standard.slots yields_slotsOfRecord).map ?_
    -- each member's value is followed by its bound, and most of the whole numbers have none
    rintro _ slots _ steps _ grid _ ratios _ coverage _ conditional _ weights _ - _ - _ - _ - _ average
      _ - _ - _ restart _ retrace _ - _ - _ - _ - _ paints
    exact ⟨slots, steps, grid, ratios, coverage, conditional, weights, average, restart, retrace, paints⟩
  | _ => exact fail _

/-- The configurations that records can hold are the valid ones. -/
theorem valid_iff_read (c : Config) : c.Valid ↔ ∃ v, (ofRecord v).result = .ok c := by
  constructor
  · intro valid
    exact ⟨c.toRecord, congrArg Checked.result (ofRecord_toRecord valid)⟩
  · rintro ⟨v, read⟩
    exact yields_ofRecord v c read

end Config

end GridRobot
