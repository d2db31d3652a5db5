import GridRobot.Proofs.Record.Codec

/-!
Records that make a reader fail without a complaint about their format. Each reader looks at some
values without asking for their shape first: this says at which, in which order, and how it fails.
-/

namespace GridRobot

def Json.isSizable : Json → Bool
  | .string _ | .array _ | .object _ => true
  | _ => false

/-- Of these, the first that does not pass fails. -/
inductive FirstFails {ι : Type} (passes fails : ι → Prop) : List ι → Prop
  | here {i : ι} {later : List ι} (failed : fails i) : FirstFails passes fails (i :: later)
  | there {i : ι} {later : List ι} (passed : passes i) (first : FirstFails passes fails later) :
      FirstFails passes fails (i :: later)

theorem firstFails_nil {ι : Type} {passes fails : ι → Prop} : ¬ FirstFails passes fails [] :=
  nofun

theorem firstFails_cons {ι : Type} {passes fails : ι → Prop} {i : ι} {later : List ι} :
    FirstFails passes fails (i :: later) ↔ fails i ∨ passes i ∧ FirstFails passes fails later := by
  constructor
  · rintro (failed | ⟨passed, first⟩)
    · exact .inl failed
    · exact .inr ⟨passed, first⟩
  · rintro (failed | ⟨passed, first⟩)
    · exact .here failed
    · exact .there passed first

theorem firstFails_and {ι : Type} {passes fails : ι → Prop} {c : Prop} {order : List ι} :
    FirstFails passes (fun i => fails i ∧ c) order ↔ FirstFails passes fails order ∧ c := by
  induction order with
  | nil => simp only [firstFails_nil, false_and]
  | cons i later ih =>
    rw [firstFails_cons, firstFails_cons, ih]
    tauto

namespace Record

variable {α β : Type}

def Escapes (x : Except Fault α) (f : Fault) : Prop :=
  x = .error f ∧ f.isMalformed = false

def Complains (x : Except Fault α) : Prop :=
  ∀ f, x = .error f → f.isMalformed = true

theorem Complains.not_escapes {x : Except Fault α} {f : Fault} (complains : Complains x) :
    ¬ Escapes x f := by
  rintro ⟨failed, escaped⟩
  cases (complains f failed).symm.trans escaped

theorem complains_pure (a : α) : Complains (pure a) :=
  nofun

theorem complains_error {e : Fault} (malformed : e.isMalformed = true) :
    Complains (.error e : Except Fault α) := by
  rintro _ ⟨⟩
  exact malformed

theorem not_escapes_error {e f : Fault} (malformed : e.isMalformed = true) :
    ¬ Escapes (.error e : Except Fault α) f :=
  (complains_error malformed).not_escapes

theorem Complains.bind {x : Except Fault α} {next : α → Except Fault β} (first : Complains x)
    (later : ∀ a, Complains (next a)) : Complains (x >>= next) := by
  intro f failed
  obtain failed | ⟨a, -, failed⟩ := bind_eq_error.mp failed
  · exact first f failed
  · exact later a f failed

theorem Complains.mapM {read : β → Except Fault α} (complains : ∀ x, Complains (read x)) (xs : List β) :
    Complains (xs.mapM read) := by
  induction xs with
  | nil => exact complains_pure []
  | cons x xs ih =>
    rw [List.mapM_cons]
    exact (complains x).bind fun y => ih.bind fun ys => complains_pure (y :: ys)

theorem escapes_bind {x : Except Fault α} {next : α → Except Fault β} {f : Fault} :
    Escapes (x >>= next) f ↔ Escapes x f ∨ ∃ a, x = .ok a ∧ Escapes (next a) f := by
  simp only [Escapes, bind_eq_error]
  constructor
  · rintro ⟨failed | ⟨a, read, failed⟩, escaped⟩
    · exact .inl ⟨failed, escaped⟩
    · exact .inr ⟨a, read, failed, escaped⟩
  · rintro (⟨failed, escaped⟩ | ⟨a, read, failed, escaped⟩)
    · exact ⟨.inl failed, escaped⟩
    · exact ⟨.inr ⟨a, read, failed⟩, escaped⟩

theorem escapes_bind_of_complains {x : Except Fault α} {next : α → Except Fault β} {f : Fault}
    (complains : ∀ a, Complains (next a)) : Escapes (x >>= next) f ↔ Escapes x f := by
  rw [escapes_bind]
  exact ⟨fun escaped => escaped.resolve_right fun ⟨a, _, later⟩ => (complains a).not_escapes later, .inl⟩

theorem not_escapes_ok (a : α) (f : Fault) : ¬ Escapes (.ok a : Except Fault α) f :=
  (complains_pure a).not_escapes

theorem escapes_ite {p : Prop} [Decidable p] {e f : Fault} {x : Except Fault α}
    (malformed : e.isMalformed = true) :
    Escapes (if p then x else .error e) f ↔ p ∧ Escapes x f := by
  split
  · rename_i holds
    exact ⟨fun escaped => ⟨holds, escaped⟩, And.right⟩
  · rename_i fails
    exact iff_of_false (not_escapes_error malformed) fun escaped => fails escaped.1

theorem escapes_collect {read : Routine → Except Fault α} {f : Fault} :
    Escapes (PerRoutine.collect read) f ↔
      FirstFails (fun r => ∃ a, read r = .ok a) (fun r => Escapes (read r) f) Routine.all := by
  have written (v : PerRoutine α) : ¬ Escapes (pure v) f := not_escapes_ok v f
  simp only [PerRoutine.collect, escapes_bind, Routine.all, firstFails_cons, firstFails_nil, written,
    and_false, exists_false, or_false, exists_and_right]

/-! ## Complaints -/

theorem complains_color (v : Json) : Complains (Color.ofRecord v) := by
  unfold Color.ofRecord
  split
  · exact complains_pure none
  · split
    · exact complains_pure _
    · exact complains_error rfl
  · exact complains_error rfl

theorem complains_heading (v : Json) : Complains (Heading.ofRecord v) := by
  unfold Heading.ofRecord
  split
  · split
    · exact complains_pure _
    · exact complains_error rfl
  · exact complains_error rfl

theorem complains_tile (v : Json) : Complains (Tile.ofRecord v) := by
  unfold Tile.ofRecord
  split
  · exact complains_pure none
  · exact (complains_color _).bind fun color => complains_pure _
  · exact complains_error rfl

theorem complains_row (width : Nat) (v : Json) : Complains (Grid.rowOfRecord width v) := by
  unfold Grid.rowOfRecord
  split
  · split
    · exact .mapM complains_tile _
    · exact complains_error rfl
  · exact complains_error rfl

theorem complains_instruction (r : Routine) (v : Json) : Complains (Instruction.ofRecord r v) := by
  unfold Instruction.ofRecord
  split
  · exact complains_pure none
  · dsimp only
    split
    · exact (complains_color _).bind fun condition => complains_pure _
    · exact complains_error rfl

/-! ## Values taken for granted -/

theorem escapes_error {e f : Fault} (foreign : e.isMalformed = false) :
    Escapes (.error e : Except Fault α) f ↔ f = e := by
  constructor
  · rintro ⟨failed, -⟩
    cases failed
    rfl
  · rintro rfl
    exact ⟨rfl, foreign⟩

theorem escapes_extent {v : Json} {f : Fault} :
    Escapes (Grid.extent v) f ↔ v.isSizable = false ∧ f = .notSizable := by
  cases v with
  | string | array | object => simp [Grid.extent, Json.isSizable, not_escapes_ok]
  | _ => exact (escapes_error rfl).trans ⟨fun same => ⟨rfl, same⟩, And.right⟩

theorem escapes_sequence {v : Json} {f : Fault} :
    Escapes (Program.sequence v) f ↔ v.isSizable = false ∧ f = .notSizable := by
  cases v with
  | string | array | object => simp [Program.sequence, Json.isSizable, not_escapes_ok]
  | _ => exact (escapes_error rfl).trans ⟨fun same => ⟨rfl, same⟩, And.right⟩

theorem escapes_count {members : List (String × Json)} {key : String} {f : Fault} :
    Escapes (countOfRecord members key) f ↔
      ∃ n, integer ((Json.lookup? members key).getD (.int 0)) = .error n ∧ f = .number n := by
  unfold countOfRecord
  cases integer ((Json.lookup? members key).getD (.int 0)) with
  | ok n => simp [Except.mapError, not_escapes_ok]
  | error n =>
    rw [Except.mapError, escapes_error rfl]
    simp

theorem integer_eq_infinite {v : Json} :
    integer v = .error .infinite ↔
      ∃ x negative, v = .float x ∧ Decimal.Value.ofFloat x = .infinite negative := by
  cases v with
  | float x =>
    simp only [integer, Decimal.truncated?]
    cases value : Decimal.Value.ofFloat x with
    | notANumber => simp [value]
    | infinite negative => simp [value]
    | finite negative mantissa exponent => simp [value]
  | string s =>
    simp only [integer]
    split
    · simp
    · split <;> simp
  | _ => simp [integer]

theorem escapes_coordinate {record v : Json} {f : Fault} :
    Escapes (Pose.coordinate record v) f ↔
      (∃ x negative, v = .float x ∧ Decimal.Value.ofFloat x = .infinite negative) ∧
        f = .number .infinite := by
  rw [← integer_eq_infinite]
  unfold Pose.coordinate
  cases integer v with
  | ok n => simp [not_escapes_ok]
  | error e =>
    cases e with
    | infinite => exact (escapes_error rfl).trans ⟨fun same => ⟨rfl, same⟩, And.right⟩
    | _ => exact ⟨fun escaped => absurd escaped (not_escapes_error rfl), fun ⟨read, _⟩ => nomatch read⟩

end Record

open Record

namespace Grid

def Unforeseen (v : Json) : Prop :=
  ∃ first rest, v = .array (first :: rest) ∧ first.isSizable = false

theorem escapes_ofRecord {v : Json} {f : Record.Fault} :
    Escapes (ofRecord v) f ↔ Unforeseen v ∧ f = .notSizable := by
  unfold ofRecord
  split
  · rename_i first rest
    rw [escapes_bind_of_complains, escapes_extent]
    · constructor
      · rintro ⟨flat, same⟩
        exact ⟨⟨first, rest, rfl, flat⟩, same⟩
      · rintro ⟨⟨_, _, same, flat⟩, failed⟩
        cases same
        exact ⟨flat, failed⟩
    · refine fun width => (Complains.mapM (complains_row width) _).bind fun rows => ?_
      split
      · exact complains_pure _
      · exact complains_error rfl
  · rename_i other
    refine iff_of_false (not_escapes_error rfl) ?_
    rintro ⟨⟨first, rest, same, -⟩, -⟩
    exact other first rest same

end Grid

namespace Pose

def Unforeseen (v : Json) : Prop :=
  ∃ position, v.get? "position" = some position ∧
    FirstFails (fun key => ∃ w n, position.get? key = some w ∧ coordinate v w = .ok n)
      (fun key => ∃ x negative, position.get? key = some (.float x) ∧
        Decimal.Value.ofFloat x = .infinite negative) ["x", "y"]

theorem escapes_bind_member {α : Type} {record v : Json} {key : String}
    {next : Json → Except Record.Fault α} {f : Record.Fault} :
    Escapes (member record v key >>= next) f ↔ ∃ m, v.get? key = some m ∧ Escapes (next m) f := by
  unfold member
  cases v.get? key with
  | none => exact iff_of_false (not_escapes_error rfl) nofun
  | some m =>
    refine ⟨fun escaped => ⟨m, rfl, escaped⟩, ?_⟩
    rintro ⟨_, ⟨⟩, escaped⟩
    exact escaped

theorem escapes_bind_coordinate {α : Type} {record v : Json} {next : Int → Except Record.Fault α}
    {f : Record.Fault} :
    Escapes (coordinate record v >>= next) f ↔
      (∃ x negative, v = .float x ∧ Decimal.Value.ofFloat x = .infinite negative) ∧
          f = .number .infinite ∨
        ∃ n, coordinate record v = .ok n ∧ Escapes (next n) f := by
  rw [escapes_bind, escapes_coordinate]

theorem escapes_ofRecord {v : Json} {f : Record.Fault} :
    Escapes (ofRecord v) f ↔ Unforeseen v ∧ f = .number .infinite := by
  have posed (x y : Int) (w : Json) :
      ¬ Escapes (Heading.ofRecord w >>= fun h => pure (Pose.mk ⟨x, y⟩ h)) f :=
    ((complains_heading w).bind fun h => complains_pure _).not_escapes
  unfold ofRecord
  simp only [escapes_bind_member, escapes_bind_coordinate, posed, and_false, exists_false, or_false,
    Unforeseen, firstFails_cons, firstFails_nil]
  constructor
  · rintro ⟨position, held, w, across, ⟨⟨x, negative, rfl, infinite⟩, same⟩ | ⟨n, read, down⟩⟩
    · exact ⟨⟨position, held, .inl ⟨x, negative, across, infinite⟩⟩, same⟩
    · obtain ⟨_, down, ⟨y, negative, rfl, infinite⟩, same⟩ := down
      exact ⟨⟨position, held, .inr ⟨⟨w, n, across, read⟩, y, negative, down, infinite⟩⟩, same⟩
  · rintro ⟨⟨position, held, ⟨x, negative, across, infinite⟩ | ⟨⟨w, n, across, read⟩, down⟩⟩, same⟩
    · exact ⟨position, held, _, across, .inl ⟨⟨x, negative, rfl, infinite⟩, same⟩⟩
    · obtain ⟨y, negative, down, infinite⟩ := down
      exact ⟨position, held, w, across,
        .inr ⟨n, read, _, down, ⟨y, negative, rfl, infinite⟩, same⟩⟩

end Pose

namespace Program

def Unforeseen (v : Json) : Prop :=
  ∃ members, v = .object members ∧
    FirstFails (fun r => ∃ slots, routineOfRecord members r = .ok slots)
      (fun r => ∃ w, Json.lookup? members r.name = some w ∧ w.isSizable = false) Routine.all

theorem escapes_routine {members : List (String × Json)} {r : Routine} {f : Record.Fault} :
    Escapes (routineOfRecord members r) f ↔
      (∃ w, Json.lookup? members r.name = some w ∧ w.isSizable = false) ∧ f = .notSizable := by
  rw [routineOfRecord, escapes_bind_of_complains fun entries => .mapM (complains_instruction r) entries,
    escapes_sequence]
  cases Json.lookup? members r.name with
  | none => simp [Json.isSizable]
  | some w => simp

theorem escapes_ofRecord {v : Json} {f : Record.Fault} :
    Escapes (ofRecord v) f ↔ Unforeseen v ∧ f = .notSizable := by
  cases v with
  | object members =>
    rw [ofRecord, escapes_bind_of_complains fun body => complains_pure _, escapes_collect]
    simp only [escapes_routine, firstFails_and]
    constructor
    · rintro ⟨first, same⟩
      exact ⟨⟨members, rfl, first⟩, same⟩
    · rintro ⟨⟨_, ⟨⟩, first⟩, same⟩
      exact ⟨first, same⟩
  | _ =>
    refine iff_of_false (not_escapes_error rfl) ?_
    rintro ⟨⟨_, same, -⟩, -⟩
    cases same

end Program

namespace Puzzle

def Uncounted (members : List (String × Json)) (f : Record.Fault) (key : String) : Prop :=
  ∃ n, Record.integer ((Json.lookup? members key).getD (.int 0)) = .error n ∧ f = .number n

def countKeys : List String :=
  ["stepCount", "qualityScore", "solutionInstructionCount"]

theorem escapes_allowed {v : Option Json} {f : Record.Fault} :
    Escapes (allowedOfRecord v) f ↔ (∃ w, v = some w ∧ w.isSizable = false) ∧ f = .notSizable := by
  cases v with
  | none => exact iff_of_false (not_escapes_ok [] f) nofun
  | some w =>
    rw [allowedOfRecord, escapes_bind_of_complains, escapes_sequence]
    · simp
    · intro kinds
      dsimp only
      split
      · exact complains_pure _
      · exact complains_error rfl

theorem escapes_lengths {v : Option Json} {f : Record.Fault} :
    Escapes (lengthsOfRecord v) f ↔ ∃ w, v = some w ∧
      ((∀ members, w ≠ .object members) ∧ f = .noMembers ∨
        ∃ members, w = .object members ∧
          FirstFails (fun r => ∃ n, Record.countOfRecord members r.name = .ok n)
            (fun r => Uncounted members f r.name) Routine.all) := by
  cases v with
  | none => exact iff_of_false (not_escapes_ok _ f) nofun
  | some w =>
    cases w with
    | object members =>
      rw [lengthsOfRecord, Program.lengthsOfRecord, escapes_collect]
      simp [escapes_count, Uncounted]
    | _ =>
      refine (escapes_error rfl).trans ⟨fun same => ⟨_, rfl, .inl ⟨fun _ given => ?_, same⟩⟩, ?_⟩
      · cases given
      · rintro ⟨_, ⟨⟩, ⟨-, same⟩ | ⟨_, same, -⟩⟩
        · exact same
        · cases same

theorem escapes_counts {members : List (String × Json)} {f : Record.Fault}
    {make : Int → Int → Int → Puzzle} :
    Escapes (do
      let steps ← Record.countOfRecord members "stepCount"
      let quality ← Record.countOfRecord members "qualityScore"
      let instructionCount ← Record.countOfRecord members "solutionInstructionCount"
      return make steps quality instructionCount) f ↔
      FirstFails (fun key => ∃ n, Record.countOfRecord members key = .ok n) (Uncounted members f)
        countKeys := by
  have written (q : Puzzle) : ¬ Escapes (pure q) f := not_escapes_ok q f
  simp only [escapes_bind, escapes_count, written, and_false, exists_false, or_false, countKeys,
    firstFails_cons, firstFails_nil, Uncounted, exists_and_right]

/-- After the grid and the start: what is allowed cannot be gone through, the lengths are no object, or
one of the numbers is none, whatever comes before being read. -/
inductive Unreadable (members : List (String × Json)) : Record.Fault → Prop
  | allowed {w : Json} (held : given? members "allowedInstructions" = some w)
      (unsizable : w.isSizable = false) : Unreadable members .notSizable
  | lengths {kinds : List Action} {w : Json}
      (allowed : allowedOfRecord (given? members "allowedInstructions") = .ok kinds)
      (held : given? members "functionLengths" = some w) (other : ∀ inner, w ≠ .object inner) :
      Unreadable members .noMembers
  | length {kinds : List Action} {inner : List (String × Json)} {f : Record.Fault}
      (allowed : allowedOfRecord (given? members "allowedInstructions") = .ok kinds)
      (held : given? members "functionLengths" = some (.object inner))
      (first : FirstFails (fun r => ∃ n, Record.countOfRecord inner r.name = .ok n)
        (fun r => Uncounted inner f r.name) Routine.all) : Unreadable members f
  | count {kinds : List Action} {lengths : PerRoutine Int} {f : Record.Fault}
      (allowed : allowedOfRecord (given? members "allowedInstructions") = .ok kinds)
      (lengths : lengthsOfRecord (given? members "functionLengths") = .ok lengths)
      (first : FirstFails (fun key => ∃ n, Record.countOfRecord members key = .ok n)
        (Uncounted members f) countKeys) : Unreadable members f

/-- A value that a puzzle's reader takes for granted, with the failure it leads to. -/
inductive Unforeseen (members : List (String × Json)) : Record.Fault → Prop
  | grid (flat : Grid.Unforeseen ((Json.lookup? members "grid").getD .null)) :
      Unforeseen members .notSizable
  | start {g : Grid} (grid : Grid.ofRecord ((Json.lookup? members "grid").getD .null) = .ok g)
      (infinite : Pose.Unforeseen ((Json.lookup? members "robotStart").getD .null)) :
      Unforeseen members (.number .infinite)
  | rest {g : Grid} {p : Pose} {f : Record.Fault}
      (grid : Grid.ofRecord ((Json.lookup? members "grid").getD .null) = .ok g)
      (start : Pose.ofRecord ((Json.lookup? members "robotStart").getD .null) = .ok p)
      (onTile : (g.tile? p.position).isSome = true) (unreadable : Unreadable members f) :
      Unforeseen members f

theorem escapes_ofWorld {grid : Grid} {start : Pose} {members : List (String × Json)}
    {f : Record.Fault} : Escapes (ofWorld grid start members) f ↔ Unreadable members f := by
  constructor
  · intro escaped
    obtain escaped | ⟨kinds, allowed, escaped⟩ := escapes_bind.mp escaped
    · obtain ⟨⟨w, held, unsizable⟩, rfl⟩ := escapes_allowed.mp escaped
      exact .allowed held unsizable
    obtain escaped | ⟨lengths, read, escaped⟩ := escapes_bind.mp escaped
    · obtain ⟨w, held, ⟨other, rfl⟩ | ⟨inner, rfl, first⟩⟩ := escapes_lengths.mp escaped
      · exact .lengths allowed held other
      · exact .length allowed held first
    · exact .count allowed read (escapes_counts.mp escaped)
  · intro unreadable
    cases unreadable with
    | allowed held unsizable =>
      exact escapes_bind.mpr (.inl (escapes_allowed.mpr ⟨⟨_, held, unsizable⟩, rfl⟩))
    | lengths allowed held other =>
      have escaped := escapes_lengths.mpr ⟨_, held, .inl ⟨other, rfl⟩⟩
      exact escapes_bind.mpr (.inr ⟨_, allowed, escapes_bind.mpr (.inl escaped)⟩)
    | length allowed held first =>
      have escaped := escapes_lengths.mpr ⟨_, held, .inr ⟨_, rfl, first⟩⟩
      exact escapes_bind.mpr (.inr ⟨_, allowed, escapes_bind.mpr (.inl escaped)⟩)
    | count allowed lengths first =>
      refine escapes_bind.mpr (.inr ⟨_, allowed, escapes_bind.mpr (.inr ⟨_, lengths, ?_⟩)⟩)
      exact escapes_counts.mpr first

theorem escapes_ofRecord {members : List (String × Json)} {f : Record.Fault} :
    Escapes (ofRecord (.object members)) f ↔ Unforeseen members f := by
  constructor
  · intro escaped
    obtain escaped | ⟨g, grid, escaped⟩ := escapes_bind.mp escaped
    · obtain ⟨flat, rfl⟩ := Grid.escapes_ofRecord.mp escaped
      exact .grid flat
    obtain escaped | ⟨p, start, escaped⟩ := escapes_bind.mp escaped
    · obtain ⟨infinite, rfl⟩ := Pose.escapes_ofRecord.mp escaped
      exact .start grid infinite
    · obtain ⟨onTile, escaped⟩ := (escapes_ite rfl).mp escaped
      exact .rest grid start onTile (escapes_ofWorld.mp escaped)
  · intro unforeseen
    cases unforeseen with
    | grid flat => exact escapes_bind.mpr (.inl (Grid.escapes_ofRecord.mpr ⟨flat, rfl⟩))
    | start grid infinite =>
      have escaped := Pose.escapes_ofRecord.mpr ⟨infinite, rfl⟩
      exact escapes_bind.mpr (.inr ⟨_, grid, escapes_bind.mpr (.inl escaped)⟩)
    | rest grid start onTile unreadable =>
      refine escapes_bind.mpr (.inr ⟨_, grid, escapes_bind.mpr (.inr ⟨_, start, ?_⟩)⟩)
      exact (escapes_ite rfl).mpr ⟨onTile, escapes_ofWorld.mpr unreadable⟩

end Puzzle

/-- A reader gives a value or complains about the format, unless it comes upon a value whose shape it
takes for granted; then, and only then, it fails otherwise. -/
theorem ofRecord_foreseen (v : Json) :
    (∀ f, Program.ofRecord v = .error f ∧ f.isMalformed = false ↔
      Program.Unforeseen v ∧ f = .notSizable) ∧
      ∀ f, Puzzle.ofRecord v = .error f ∧ f.isMalformed = false ↔
        ∃ members, v = .object members ∧ Puzzle.Unforeseen members f := by
  refine ⟨fun f => Program.escapes_ofRecord, fun f => ?_⟩
  cases v with
  | object members =>
    refine Puzzle.escapes_ofRecord.trans ⟨fun unforeseen => ⟨members, rfl, unforeseen⟩, ?_⟩
    rintro ⟨_, ⟨⟩, unforeseen⟩
    exact unforeseen
  | _ =>
    refine iff_of_false (not_escapes_error rfl) ?_
    rintro ⟨_, same, -⟩
    cases same

theorem ofRecord_can_escape :
    ¬ ∀ v, ((∃ p, Program.ofRecord v = .ok p) ∨
        ∃ f, Program.ofRecord v = .error f ∧ f.isMalformed = true) ∧
      ((∃ q, Puzzle.ofRecord v = .ok q) ∨ ∃ f, Puzzle.ofRecord v = .error f ∧ f.isMalformed = true) := by
  intro claim
  have read : Puzzle.ofRecord (.object [("grid", .array [.null])]) = .error .notSizable := rfl
  obtain ⟨-, ⟨q, same⟩ | ⟨f, same, malformed⟩⟩ := claim (.object [("grid", .array [.null])])
  · cases read.symm.trans same
  · cases read.symm.trans same
    cases malformed

end GridRobot
