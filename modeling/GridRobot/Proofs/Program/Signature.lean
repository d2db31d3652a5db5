import GridRobot.Proofs.Record.Codec

namespace GridRobot

/-! ## Parts -/

theorem Action.plain_name {a : Action} (known : a.isKnown = true) :
    ∀ c ∈ a.name.toList, c ≠ ':' ∧ c ≠ ',' := by
  cases a with
  | forward | noop => simp [name]
  | turn t => cases t <;> simp [name, Turn.name]
  | call r => cases r <;> simp [name, Routine.name]
  | paint c => cases c <;> simp [name, Color.name]
  | other => cases known

def Instruction.ofShorthand (s : String) : Instruction :=
  let cs := s.toList
  let name := cs.takeWhile (· != ':')
  ⟨.ofName (String.ofList name), Color.ofName? (String.ofList (cs.drop (name.length + 1)))⟩

theorem Instruction.ofShorthand_append {a : Action} (known : a.isKnown = true) (condition : String) :
    ofShorthand (a.name ++ ":" ++ condition) = ⟨a, Color.ofName? condition⟩ := by
  have named : (a.name ++ ":" ++ condition).toList.takeWhile (· != ':') = a.name.toList := by
    simp only [String.toList_append, List.append_assoc]
    rw [List.takeWhile_append_of_pos fun c mem => by simpa using (Action.plain_name known c mem).1]
    exact List.append_nil _
  have dropped : (a.name ++ ":" ++ condition).toList.drop (a.name.toList.length + 1) =
      condition.toList := by
    simp only [String.toList_append, List.append_assoc, List.drop_length_add_append]
    rfl
  simp only [ofShorthand, named, dropped, String.ofList_toList, Action.ofName_name known]

namespace Program

def ofSignaturePart (part : String) : Option Instruction :=
  if part = "empty" then none else some (.ofShorthand part)

def KnownSlot (slot : Option Instruction) : Prop :=
  ∀ i, slot = some i → i.action.isKnown = true

theorem exists_signaturePart (i : Instruction) :
    ∃ condition, signaturePart (some i) = i.action.name ++ ":" ++ condition ∧
      Color.ofName? condition = i.condition ∧ ∀ c ∈ condition.toList, c ≠ ',' := by
  refine ⟨_, rfl, ?_⟩
  cases i.condition with
  | none => exact ⟨rfl, by simp⟩
  | some c =>
    refine ⟨Color.ofName?_name c, ?_⟩
    cases c <;> simp [Color.name]

theorem colon_mem_signaturePart (i : Instruction) : ':' ∈ (signaturePart (some i)).toList := by
  simp [signaturePart]

variable {slot : Option Instruction}

theorem ofSignaturePart_signaturePart (known : KnownSlot slot) :
    ofSignaturePart (signaturePart slot) = slot := by
  cases slot with
  | none => rfl
  | some i =>
    have filled : signaturePart (some i) ≠ "empty" := by
      intro same
      have colon := colon_mem_signaturePart i
      simp [same] at colon
    obtain ⟨condition, part, read, -⟩ := exists_signaturePart i
    rw [ofSignaturePart, if_neg filled, part, Instruction.ofShorthand_append (known i rfl), read]

theorem comma_not_mem_signaturePart (known : KnownSlot slot) :
    ',' ∉ (signaturePart slot).toList := by
  cases slot with
  | none => simp [signaturePart]
  | some i =>
    obtain ⟨condition, part, -, plain⟩ := exists_signaturePart i
    rw [part]
    simp only [String.toList_append, List.mem_append, not_or]
    exact ⟨⟨fun mem => (Action.plain_name (known i rfl) _ mem).2 rfl, by simp⟩,
      fun mem => plain _ mem rfl⟩

theorem signaturePart_ne_bar (slot : Option Instruction) : signaturePart slot ≠ "|" := by
  cases slot with
  | none => simp [signaturePart]
  | some i =>
    intro same
    have colon := colon_mem_signaturePart i
    simp [same] at colon

/-! ## Signatures -/

def closed {α : Type} (bar : α) (groups : List (List α)) : List α :=
  groups.flatMap fun group => group ++ [bar]

theorem splitOn_closed {α : Type} [BEq α] [LawfulBEq α] {bar : α} {groups : List (List α)}
    (bare : ∀ group ∈ groups, bar ∉ group) : (closed bar groups).splitOn bar = groups ++ [[]] := by
  induction groups with
  | nil => rfl
  | cons group groups ih =>
    rw [List.forall_mem_cons] at bare
    have first : closed bar (group :: groups) = group ++ bar :: closed bar groups := by
      simp [closed]
    rw [first, List.splitOn_append_cons_self_of_not_mem bare.1, ih bare.2, List.cons_append]

def signatureParts (p : Program) : List (List String) :=
  p.body.toList.map fun slots => slots.map signaturePart

variable {a b : Program}

theorem signature_eq (p : Program) : p.signature = ",".intercalate (closed "|" p.signatureParts) := by
  rw [signature, closed, signatureParts, List.flatMap_map]

theorem mem_signatureParts {p : Program} {parts : List String} (mem : parts ∈ p.signatureParts) :
    ∃ r, parts = (p.body.get r).map signaturePart := by
  obtain ⟨slots, routine, rfl⟩ := List.mem_map.mp mem
  obtain ⟨r, -, rfl⟩ := List.mem_map.mp routine
  exact ⟨r, rfl⟩

theorem splitOn_signature (formed : a.WellFormed) :
    a.signature.toList.splitOn ',' = (closed "|" a.signatureParts).map String.toList := by
  rw [signature_eq, String.toList_intercalate]
  refine List.splitOn_intercalate ',' ?_ ?_
  · rintro _ listed comma
    obtain ⟨part, inside, rfl⟩ := List.mem_map.mp listed
    obtain ⟨parts, routine, mem⟩ := List.mem_flatMap.mp inside
    obtain ⟨r, rfl⟩ := mem_signatureParts routine
    rcases List.mem_append.mp mem with mem | bar
    · obtain ⟨slot, held, rfl⟩ := List.mem_map.mp mem
      exact comma_not_mem_signaturePart (fun i filled => formed r i (filled ▸ held)) comma
    · simp [List.mem_singleton.mp bar] at comma
  · simp [closed, signatureParts, PerRoutine.toList, Routine.all]

theorem splitOn_signatureParts (p : Program) :
    (closed "|" p.signatureParts).splitOn "|" = p.signatureParts ++ [[]] := by
  refine splitOn_closed fun parts mem bar => ?_
  obtain ⟨r, rfl⟩ := mem_signatureParts mem
  obtain ⟨slot, -, same⟩ := List.mem_map.mp bar
  exact signaturePart_ne_bar slot same

theorem map_ofSignaturePart (formed : a.WellFormed) (r : Routine) :
    ((a.body.get r).map signaturePart).map ofSignaturePart = a.body.get r := by
  rw [List.map_map]
  refine (List.map_congr_left fun slot held => ?_).trans (List.map_id _)
  exact ofSignaturePart_signaturePart fun i filled => formed r i (filled ▸ held)

theorem signature_inj (formed : a.WellFormed) (formed' : b.WellFormed) :
    a.signature = b.signature ↔ a = b := by
  refine ⟨fun same => ?_, congrArg signature⟩
  have parts : closed "|" a.signatureParts = closed "|" b.signatureParts := by
    have cut := splitOn_signature formed
    rw [same, splitOn_signature formed'] at cut
    exact ((List.map_inj_right fun _ _ => String.toList_injective).mp cut).symm
  have routines : a.signatureParts = b.signatureParts := by
    have cut := a.splitOn_signatureParts
    rw [parts, splitOn_signatureParts] at cut
    exact (List.append_cancel_right cut).symm
  have bodies : a.body = b.body := by
    refine PerRoutine.ext fun r => ?_
    have routine : (a.body.get r).map signaturePart = (b.body.get r).map signaturePart := by
      simp only [signatureParts, PerRoutine.toList, List.map_map, List.map_inj_left] at routines
      exact routines r (Routine.mem_all r)
    rw [← map_ofSignaturePart formed, routine, map_ofSignaturePart formed']
  cases a
  cases b
  exact congrArg mk bodies

end Program

end GridRobot
