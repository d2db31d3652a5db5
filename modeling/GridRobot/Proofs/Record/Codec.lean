import Mathlib.Data.List.Basic
import GridRobot.Record.Puzzle

namespace GridRobot

/-! ## Readers -/

section Readers

variable {ε α β : Type}

theorem bind_eq_ok {x : Except ε α} {f : α → Except ε β} {b : β} :
    (x >>= f) = .ok b ↔ ∃ a, x = .ok a ∧ f a = .ok b := by
  cases x with
  | error e => exact ⟨nofun, fun ⟨_, read, _⟩ => nomatch read⟩
  | ok a => exact ⟨fun read => ⟨a, rfl, read⟩, fun ⟨_, read, next⟩ => by cases read; exact next⟩

theorem bind_eq_error {x : Except ε α} {f : α → Except ε β} {e : ε} :
    (x >>= f) = .error e ↔ x = .error e ∨ ∃ a, x = .ok a ∧ f a = .error e := by
  cases x with
  | error e' =>
    constructor
    · intro failed
      cases failed
      exact .inl rfl
    · rintro (failed | ⟨_, read, _⟩)
      · cases failed
        rfl
      · cases read
  | ok a =>
    constructor
    · exact fun failed => .inr ⟨a, rfl, failed⟩
    · rintro (failed | ⟨_, read, next⟩)
      · cases failed
      · cases read
        exact next

theorem mapM_map_eq_ok {write : α → β} {read : β → Except ε α} {xs : List α}
    (exact' : ∀ x ∈ xs, read (write x) = .ok x) : (xs.map write).mapM read = .ok xs := by
  induction xs with
  | nil => rfl
  | cons x xs ih =>
    rw [List.map_cons, List.mapM_cons, exact' x List.mem_cons_self,
      ih fun y mem => exact' y (List.mem_cons_of_mem x mem)]
    rfl

theorem forall_mem_of_mapM_eq_ok {read : β → Except ε α} {xs : List β} {ys : List α} {P : α → Prop}
    (kept : ∀ x y, read x = .ok y → P y) (ran : xs.mapM read = .ok ys) : ∀ y ∈ ys, P y := by
  induction xs generalizing ys with
  | nil =>
    cases ran
    exact nofun
  | cons x xs ih =>
    rw [List.mapM_cons] at ran
    simp only [bind_eq_ok] at ran
    obtain ⟨y, first, ys, later, same⟩ := ran
    cases same
    exact List.forall_mem_cons.mpr ⟨kept x y first, ih later⟩

theorem length_of_mapM_eq_ok {read : β → Except ε α} {xs : List β} {ys : List α}
    (ran : xs.mapM read = .ok ys) : ys.length = xs.length := by
  induction xs generalizing ys with
  | nil =>
    cases ran
    rfl
  | cons x xs ih =>
    rw [List.mapM_cons] at ran
    simp only [bind_eq_ok] at ran
    obtain ⟨y, -, ys, later, same⟩ := ran
    cases same
    exact congrArg Nat.succ (ih later)

theorem PerRoutine.collect_eq_ok {read : Routine → Except ε α} {v : PerRoutine α} :
    collect read = .ok v ↔ ∀ r, read r = .ok (v.get r) := by
  simp only [collect, bind_eq_ok]
  constructor
  · rintro ⟨f1, h1, f2, h2, f3, h3, f4, h4, f5, h5, same⟩
    cases same
    intro r
    cases r with
    | f1 => exact h1
    | f2 => exact h2
    | f3 => exact h3
    | f4 => exact h4
    | f5 => exact h5
  · intro reads
    exact ⟨_, reads .f1, _, reads .f2, _, reads .f3, _, reads .f4, _, reads .f5, rfl⟩

theorem lookup?_entries (write : α → Json) (v : PerRoutine α) (r : Routine) :
    Json.lookup? (v.entries.map fun (r, a) => (r.name, write a)) r.name = some (write (v.get r)) := by
  cases r <;> rfl

end Readers

/-! ## Grids -/

theorem Color.ofRecord_toRecord (c : Option Color) : ofRecord (toRecord c) = .ok c := by
  cases c with
  | none => rfl
  | some c => cases c <;> rfl

theorem Tile.ofRecord_toRecord (t : Option Tile) : ofRecord (Json.ofOption toRecord t) = .ok t := by
  cases t with
  | none => rfl
  | some t =>
    change (Color.ofRecord (Color.toRecord t.color) >>= fun color =>
      Except.ok (some (Tile.mk color t.hasStar))) = _
    rw [Color.ofRecord_toRecord]
    rfl

namespace Grid

def aligned (width : Nat) (rows : List (List (Option Tile))) : List (Vector (Option Tile) width) :=
  rows.filterMap fun row =>
    if h : row.length = width then some (⟨row.toArray, by simp [h]⟩ : Vector (Option Tile) width)
    else none

def ofVectors {width : Nat} (rows : List (Vector (Option Tile) width)) : Grid :=
  ⟨width, rows.length, ⟨rows.toArray, rfl⟩⟩

theorem ofRows?_eq {rows : List (List (Option Tile))} {width : Nat}
    (first : (rows.head?.getD []).length = width) :
    ofRows? rows =
      if (aligned width rows).length = rows.length then some (ofVectors (aligned width rows))
      else none := by
  -- The width is in the type of the rows, so it is replaced while it still is a variable.
  subst first
  rfl

theorem aligned_map {width : Nat} (rows : List (Vector (Option Tile) width)) :
    aligned width (rows.map (·.toList)) = rows := by
  induction rows with
  | nil => rfl
  | cons row rest ih =>
    rw [aligned, List.map_cons, List.filterMap_cons]
    simp only [Vector.length_toList, dite_true]
    exact congrArg _ ih

theorem ofVectors_toList (g : Grid) : ofVectors g.rows.toList = g := by
  obtain ⟨width, height, ⟨rows, rfl⟩⟩ := g
  rfl

theorem exists_toRows_cons {g : Grid} (filled : 0 < g.height) :
    ∃ row rest, g.toRows = row :: rest ∧ row.length = g.width := by
  obtain ⟨row, rest, rows⟩ :=
    List.exists_cons_of_length_pos (Nat.lt_of_lt_of_eq filled g.rows.length_toList.symm)
  exact ⟨row.toList, rest.map (·.toList), by rw [toRows, rows, List.map_cons], row.length_toList⟩

theorem ofRows?_toRows {g : Grid} (filled : 0 < g.height) : ofRows? g.toRows = some g := by
  obtain ⟨row, rest, rows, wide⟩ := exists_toRows_cons filled
  have first : (g.toRows.head?.getD []).length = g.width := by
    rw [rows]
    exact wide
  rw [ofRows?_eq first, toRows, aligned_map, ofVectors_toList, List.length_map, if_pos rfl]

theorem height_of_ofRows? {rows : List (List (Option Tile))} {g : Grid} (made : ofRows? rows = some g) :
    g.height = rows.length := by
  unfold ofRows? at made
  dsimp only at made
  split at made
  · rename_i aligned
    cases made
    exact aligned
  · cases made

theorem rowOfRecord_write {width : Nat} {row : List (Option Tile)} (wide : row.length = width) :
    rowOfRecord width (.array (row.map (Json.ofOption Tile.toRecord))) = .ok row := by
  rw [rowOfRecord, List.length_map, if_pos wide]
  exact mapM_map_eq_ok fun t _ => Tile.ofRecord_toRecord t

theorem ofRecord_toRecord {g : Grid} (filled : 0 < g.height) : ofRecord g.toRecord = .ok g := by
  have wide : ∀ row ∈ g.toRows, row.length = g.width := by
    intro row mem
    obtain ⟨cells, -, rfl⟩ := List.mem_map.mp mem
    exact cells.length_toList
  have read := mapM_map_eq_ok fun row mem => rowOfRecord_write (wide row mem)
  have made := ofRows?_toRows filled
  obtain ⟨row, rest, rows, first⟩ := exists_toRows_cons filled
  rw [rows] at read made
  rw [toRecord, rows]
  simp only [List.map_cons] at read ⊢
  refine bind_eq_ok.mpr ⟨g.width, ?_, bind_eq_ok.mpr ⟨_, read, ?_⟩⟩
  · rw [extent, List.length_map, first]
  · simp only [made]
    rfl

theorem height_pos_of_ofRecord {v : Json} {g : Grid} (read : ofRecord v = .ok g) : 0 < g.height := by
  unfold ofRecord at read
  split at read
  · rename_i first rest
    simp only [bind_eq_ok] at read
    obtain ⟨width, -, rows, ran, made⟩ := read
    split at made
    · rename_i g' found
      cases made
      rw [height_of_ofRows? found, length_of_mapM_eq_ok ran]
      exact Nat.succ_pos _
    · cases made
  · cases read

end Grid

theorem Pose.ofRecord_toRecord (p : Pose) : ofRecord p.toRecord = .ok p := by
  obtain ⟨⟨x, y⟩, h⟩ := p
  cases h <;> rfl

/-! ## Programs -/

theorem Action.ofRecord?_name {a : Action} (known : a.isKnown = true) :
    ofRecord? (.string a.name) = some a := by
  rw [ofRecord?, ofName_name known, if_pos known]

theorem Action.isKnown_of_ofRecord? {v : Json} {a : Action} (read : ofRecord? v = some a) :
    a.isKnown = true := by
  unfold ofRecord? at read
  split at read
  · split at read
    · rename_i known
      cases read
      exact known
    · cases read
  · cases read

def Program.WellFormed (p : Program) : Prop :=
  ∀ r i, some i ∈ p.body.get r → i.action.isKnown = true

theorem Program.wellFormed_of_at? {p : Program}
    (known : ∀ s i, p.at? s = some i → i.action.isKnown = true) : p.WellFormed := by
  intro r i mem
  obtain ⟨n, inside, held⟩ := List.mem_iff_getElem.mp mem
  refine known ⟨r, n⟩ i ?_
  rw [at?, List.getElem?_eq_getElem inside, held]
  rfl

theorem Instruction.ofRecord_toRecord (r : Routine) {slot : Option Instruction}
    (known : ∀ i, slot = some i → i.action.isKnown = true) :
    ofRecord r (Json.ofOption toRecord slot) = .ok slot := by
  cases slot with
  | none => rfl
  | some i =>
    have kind : Action.ofRecord? (((toRecord i).get? "type").getD .null) = some i.action :=
      Action.ofRecord?_name (known i rfl)
    have condition : Color.ofRecord (((toRecord i).get? "condition").getD .null) = .ok i.condition :=
      Color.ofRecord_toRecord i.condition
    rw [Json.ofOption, ofRecord]
    · simp only [kind]
      exact bind_eq_ok.mpr ⟨i.condition, condition, rfl⟩
    · simp [toRecord]

theorem Instruction.isKnown_of_ofRecord {r : Routine} {v : Json} {slot : Option Instruction}
    (read : ofRecord r v = .ok slot) : ∀ i, slot = some i → i.action.isKnown = true := by
  unfold ofRecord at read
  split at read
  · cases read
    exact nofun
  · dsimp only at read
    split at read
    · rename_i action found
      simp only [bind_eq_ok] at read
      obtain ⟨condition, -, same⟩ := read
      cases same
      rintro _ ⟨⟩
      exact Action.isKnown_of_ofRecord? found
    · cases read

namespace Program

variable {p : Program}

theorem ofRecord_eq_ok {members : List (String × Json)} :
    ofRecord (.object members) = .ok p ↔ ∀ r, routineOfRecord members r = .ok (p.body.get r) := by
  rw [← PerRoutine.collect_eq_ok]
  simp only [ofRecord, bind_eq_ok]
  constructor
  · rintro ⟨body, read, same⟩
    cases same
    exact read
  · exact fun read => ⟨p.body, read, rfl⟩

theorem ofRecord_toRecord (formed : p.WellFormed) : ofRecord p.toRecord = .ok p := by
  refine ofRecord_eq_ok.mpr fun r => ?_
  rw [routineOfRecord]
  refine bind_eq_ok.mpr ⟨(p.body.get r).map (Json.ofOption Instruction.toRecord), ?_, ?_⟩
  · have held := lookup?_entries
      (fun slots : List (Option Instruction) => .array (slots.map (Json.ofOption Instruction.toRecord)))
      p.body r
    exact congrArg (fun slots => sequence (slots.getD (.array []))) held
  · refine mapM_map_eq_ok fun slot mem => Instruction.ofRecord_toRecord r fun i filled => ?_
    exact formed r i (filled ▸ mem)

theorem wellFormed_of_ofRecord {v : Json} (read : ofRecord v = .ok p) : p.WellFormed := by
  cases v with
  | object members =>
    intro r i mem
    have slots := ofRecord_eq_ok.mp read r
    simp only [routineOfRecord, bind_eq_ok] at slots
    obtain ⟨entries, -, slots⟩ := slots
    exact forall_mem_of_mapM_eq_ok (fun _ _ => Instruction.isKnown_of_ofRecord) slots _ mem i rfl
  | _ => cases read

end Program

/-! ## Puzzles -/

namespace Puzzle

/-- The world has a row, the start is on a tile, and all that is allowed is in the vocabulary. -/
structure WellFormed (q : Puzzle) : Prop where
  filled : 0 < q.grid.height
  grounded : (q.grid.tile? q.start.position).isSome = true
  known : ∀ a ∈ q.allowed, a.isKnown = true

theorem allowedOfRecord_write {allowed : List Action} (known : ∀ a ∈ allowed, a.isKnown = true) :
    allowedOfRecord ((some (Json.array (allowed.map fun a => .string a.name))).filter Json.isTruthy) =
      .ok allowed := by
  have taken : ∀ a ∈ allowed, Action.ofRecord? (.string a.name) = some a :=
    fun a mem => Action.ofRecord?_name (known a mem)
  cases allowed with
  | nil => rfl
  | cons a rest =>
    refine bind_eq_ok.mpr ⟨_, rfl, ?_⟩
    have unknown : ((a :: rest).map fun a => Json.string a.name).filter
        (fun k => (Action.ofRecord? k).isNone) = [] := by
      rw [List.filter_eq_nil_iff, List.forall_mem_map]
      intro b mem
      simp [taken b mem]
    have read : ((a :: rest).map fun a => Json.string a.name).filterMap Action.ofRecord? = a :: rest := by
      rw [List.filterMap_map]
      exact (List.filterMap_congr taken).trans List.filterMap_some
    simp only [unknown, read]
    rfl

theorem known_of_allowedOfRecord {v : Option Json} {allowed : List Action}
    (read : allowedOfRecord v = .ok allowed) : ∀ a ∈ allowed, a.isKnown = true := by
  cases v with
  | none =>
    cases read
    exact nofun
  | some v =>
    simp only [allowedOfRecord, bind_eq_ok] at read
    obtain ⟨kinds, -, read⟩ := read
    split at read
    · cases read
      intro a mem
      obtain ⟨k, -, taken⟩ := List.mem_filterMap.mp mem
      exact Action.isKnown_of_ofRecord? taken
    · cases read

theorem countOfRecord_of_lookup? {members : List (String × Json)} {key : String} {n : Int}
    (held : Json.lookup? members key = some (.int n)) : Record.countOfRecord members key = .ok n := by
  rw [Record.countOfRecord, held]
  rfl

theorem lengthsOfRecord_write (lengths : PerRoutine Int) :
    Program.lengthsOfRecord (.object (lengths.entries.map fun (r, n) => (r.name, .int n))) =
      .ok lengths := by
  rw [Program.lengthsOfRecord, PerRoutine.collect_eq_ok]
  intro r
  exact countOfRecord_of_lookup? (lookup?_entries Json.int lengths r)

theorem ofRecord_toRecord {q : Puzzle} (formed : q.WellFormed) : ofRecord q.toRecord = .ok q := by
  refine bind_eq_ok.mpr ⟨q.grid, Grid.ofRecord_toRecord formed.filled, ?_⟩
  refine bind_eq_ok.mpr ⟨q.start, Pose.ofRecord_toRecord q.start, ?_⟩
  rw [if_pos formed.grounded]
  refine bind_eq_ok.mpr ⟨q.allowed, allowedOfRecord_write formed.known, ?_⟩
  refine bind_eq_ok.mpr ⟨q.lengths, lengthsOfRecord_write q.lengths, ?_⟩
  refine bind_eq_ok.mpr ⟨q.steps, countOfRecord_of_lookup? rfl, ?_⟩
  refine bind_eq_ok.mpr ⟨q.quality, countOfRecord_of_lookup? rfl, ?_⟩
  exact bind_eq_ok.mpr ⟨q.instructionCount, countOfRecord_of_lookup? rfl, rfl⟩

theorem wellFormed_of_ofRecord {v : Json} {q : Puzzle} (read : ofRecord v = .ok q) :
    q.WellFormed := by
  cases v with
  | object members =>
    simp only [ofRecord, bind_eq_ok] at read
    obtain ⟨grid, world, start, pose, read⟩ := read
    split at read
    · rename_i onTile
      simp only [ofWorld, bind_eq_ok] at read
      obtain ⟨allowed, kinds, lengths, -, steps, -, quality, -, count, -, same⟩ := read
      cases same
      exact ⟨Grid.height_pos_of_ofRecord world, onTile, known_of_allowedOfRecord kinds⟩
    · cases read
  | _ => cases read

end Puzzle

/-! ## There and back -/

/-- A record holds all of a well-formed program or puzzle, and what is read is well-formed, so that it
is the same after it is written and read once more. -/
theorem records_exact :
    (∀ p : Program, p.WellFormed → Program.ofRecord p.toRecord = .ok p) ∧
      (∀ q : Puzzle, q.WellFormed → Puzzle.ofRecord q.toRecord = .ok q) ∧
      (∀ v p, Program.ofRecord v = .ok p → p.WellFormed ∧ Program.ofRecord p.toRecord = .ok p) ∧
      ∀ v q, Puzzle.ofRecord v = .ok q → q.WellFormed ∧ Puzzle.ofRecord q.toRecord = .ok q := by
  refine ⟨fun p => Program.ofRecord_toRecord, fun q => Puzzle.ofRecord_toRecord,
    fun v p read => ?_, fun v q read => ?_⟩
  · have formed := Program.wellFormed_of_ofRecord read
    exact ⟨formed, Program.ofRecord_toRecord formed⟩
  · have formed := Puzzle.wellFormed_of_ofRecord read
    exact ⟨formed, Puzzle.ofRecord_toRecord formed⟩

def looseRecord : Json :=
  .object [
    ("grid", .array [.array [.object [("hasStar", .int 7)], .null]]),
    ("robotStart", .object [
      ("position", .object [("x", .bool false), ("y", .int 0)]), ("direction", .string "right")]),
    ("allowedInstructions", .object [("forward", .null), ("paint_blue", .int 1)]),
    ("functionLengths", .array []),
    ("stepCount", .bool true)]

def looseProgram : Program :=
  ⟨⟨[some ⟨.call .f2, some .green⟩, none], [some ⟨.turn .left, none⟩], [], [], []⟩⟩

theorem records_exact_loose :
    Program.ofRecord looseProgram.toRecord = .ok looseProgram ∧
      ∃ q, Puzzle.ofRecord looseRecord = .ok q ∧ q.WellFormed ∧ q.allowed = [.forward, .paint .blue] ∧
        q.steps = 1 ∧ Puzzle.ofRecord q.toRecord = .ok q := by
  obtain ⟨programs, -, -, puzzles⟩ := records_exact
  have read : Puzzle.ofRecord looseRecord = .ok {
      grid := ⟨2, 1, #v[#v[some ⟨none, true⟩, none]]⟩
      start := ⟨⟨0, 0⟩, .right⟩
      lengths := ⟨0, 0, 0, 0, 0⟩
      allowed := [.forward, .paint .blue]
      steps := 1 } := rfl
  refine ⟨programs looseProgram ?_, _, read, (puzzles _ _ read).1, rfl, rfl, (puzzles _ _ read).2⟩
  intro r i mem
  cases r <;> simp_all [looseProgram, PerRoutine.get, Action.isKnown]

end GridRobot
