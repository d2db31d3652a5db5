import GridRobot.Proofs.Json.Scalar

namespace GridRobot.Json

/-! ## Values -/

/-- A value that its text determines: no key of an object comes twice, and the floating-point numbers
read back from their texts. -/
inductive Legible : Json → Prop
  | null : Legible null
  | bool (b : Bool) : Legible (bool b)
  | int (n : Int) : Legible (int n)
  | float {x : Float} (exact' : readBack? x = some x) : Legible (float x)
  | string (s : String) : Legible (string s)
  | array {items : List Json} (each : ∀ v ∈ items, Legible v) : Legible (array items)
  | object {members : List (String × Json)} (once : (members.map (·.1)).Nodup)
      (each : ∀ m ∈ members, Legible m.2) : Legible (object members)

def Spacing.gap (sp : Spacing) (depth : Nat) : List Char :=
  match sp with
  | .compact => []
  | .indented step => '\n' :: List.replicate (step * depth) ' '

theorem renderItems_eq_map (sp : Spacing) (depth : Nat) (items : List Json) :
    renderItems sp depth items = items.map (render sp depth) := by
  induction items with
  | nil => rfl
  | cons v items ih => rw [renderItems, ih, List.map_cons]

def renderMember (sp : Spacing) (depth : Nat) (m : String × Json) : String :=
  storedString m.1 ++ sp.colon ++ render sp depth m.2

theorem renderMembers_eq_map (sp : Spacing) (depth : Nat) (members : List (String × Json)) :
    renderMembers sp depth members = members.map (renderMember sp depth) := by
  induction members with
  | nil => rfl
  | cons m members ih => rw [renderMembers, ih, List.map_cons, renderMember]

theorem toList_pushn (s : String) (c : Char) (n : Nat) :
    (s.pushn c n).toList = s.toList ++ List.replicate n c := by
  rw [String.pushn_eq_repeat_push]
  induction n with
  | zero => rw [Nat.repeat, List.replicate_zero, List.append_nil]
  | succ n ih => rw [Nat.repeat, String.toList_push, ih, List.replicate_succ', List.append_assoc]

def Spacing.joined (sp : Spacing) (depth : Nat) (texts : List String) : List Char :=
  (',' :: sp.gap depth).intercalate (texts.map String.toList)

theorem joined_singleton (sp : Spacing) (depth : Nat) (t : String) : sp.joined depth [t] = t.toList :=
  List.intercalate_singleton

theorem joined_cons_cons (sp : Spacing) (depth : Nat) (t u : String) (texts : List String) :
    sp.joined depth (t :: u :: texts) =
      t.toList ++ ',' :: (sp.gap depth ++ sp.joined depth (u :: texts)) := by
  rw [Spacing.joined, List.map_cons, List.map_cons, List.intercalate_cons_cons, List.append_assoc]
  rfl

theorem toList_enclose_nil (sp : Spacing) (depth : Nat) (opening closing : String) :
    (sp.enclose depth opening closing []).toList = opening.toList ++ closing.toList :=
  String.toList_append

theorem toList_enclose (sp : Spacing) (depth : Nat) (opening closing : String) {texts : List String}
    (filled : texts ≠ []) :
    (sp.enclose depth opening closing texts).toList =
      opening.toList ++ (sp.gap (depth + 1) ++ (sp.joined (depth + 1) texts ++
        (sp.gap depth ++ closing.toList))) := by
  have nonempty : texts.isEmpty = false := List.isEmpty_eq_false_iff.mpr filled
  cases sp with
  | compact => simp [Spacing.enclose, Spacing.joined, Spacing.gap, nonempty]
  | indented step => simp [Spacing.enclose, Spacing.joined, Spacing.gap, nonempty, toList_pushn]

theorem skipBlank_gap (sp : Spacing) (depth : Nat) (rest : List Char) :
    skipBlank (sp.gap depth ++ rest) = skipBlank rest := by
  cases sp with
  | compact => rfl
  | indented step =>
    refine List.dropWhile_append_of_pos fun c among => ?_
    rcases List.mem_cons.mp among with rfl | space
    · rfl
    · rw [List.eq_of_mem_replicate space]
      rfl

theorem stops_gap (sp : Spacing) (depth : Nat) {rest : List Char} (stops : Stops rest) :
    Stops (sp.gap depth ++ rest) := by
  cases sp with
  | compact => exact stops
  | indented step => exact .line _

/-- The text of the value is read as the value, whatever stands behind it. An opening bracket takes
two of the fuel, one for the value and one for what it holds. -/
def Reads (sp : Spacing) (v : Json) : Prop :=
  ∀ (depth fuel : Nat) (rest : List Char), Stops rest → 2 * (render sp depth v).toList.length ≤ fuel →
    value? fuel ((render sp depth v).toList ++ rest) = some (v, rest)

theorem value?_of_scalar? {cs : List Char} {v : Json} (read : scalar? cs = some (v, [])) {fuel : Nat}
    (enough : 0 < fuel) {rest : List Char} (stops : Stops rest) :
    value? fuel (cs ++ rest) = some (v, rest) := by
  obtain ⟨fuel, rfl⟩ := Nat.exists_eq_add_one_of_ne_zero (Nat.ne_of_gt enough)
  have whole := scalar?_append stops cs
  rw [read] at whole
  cases cs with
  | nil => cases read
  | cons c cs =>
    have other : c ∉ '"' :: '[' :: '{' :: closers := by
      intro among
      rw [scalar?_eq_none among] at read
      cases read
    rw [List.cons_append, value?]
    · exact whole
    all_goals
      intro more same
      obtain ⟨rfl, -⟩ := List.cons.inj same
      exact other (by decide)

theorem value?_eq_none {c : Char} (closing : c ∈ closers) (fuel : Nat) (cs : List Char) :
    value? fuel (c :: cs) = none := by
  cases fuel with
  | zero => rfl
  | succ fuel =>
    have none := scalar?_eq_none (List.mem_cons_of_mem _ (List.mem_cons_of_mem _
      (List.mem_cons_of_mem _ closing))) cs
    simp only [closers, List.mem_cons, List.not_mem_nil, or_false] at closing
    rcases closing with rfl | rfl | rfl | rfl | rfl | rfl <;> exact none

def Opens (t : String) : Prop :=
  ∃ c cs, t.toList = c :: cs ∧ c ∉ closers

theorem skipBlank_cons {c : Char} (opens : c ∉ closers) (cs : List Char) :
    skipBlank (c :: cs) = c :: cs := by
  refine List.dropWhile_cons_of_neg fun blank => opens ?_
  simp only [isBlank, Bool.or_eq_true, beq_iff_eq] at blank
  rcases blank with ((rfl | rfl) | rfl) | rfl <;> decide

theorem Opens.joined {t : String} (opens : Opens t) (sp : Spacing) (depth : Nat) (texts : List String)
    (rest : List Char) :
    ∃ c cs, sp.joined depth (t :: texts) ++ rest = c :: cs ∧ c ∉ closers := by
  obtain ⟨c, cs, text, solid⟩ := opens
  cases texts with
  | nil =>
    rw [joined_singleton, text]
    exact ⟨c, cs ++ rest, rfl, solid⟩
  | cons u texts =>
    rw [joined_cons_cons, text]
    exact ⟨c, _, rfl, solid⟩

theorem Opens.skipBlank_joined {sp : Spacing} {depth : Nat} {t : String} (opens : Opens t)
    (texts : List String) (rest : List Char) :
    skipBlank (sp.joined depth (t :: texts) ++ rest) = sp.joined depth (t :: texts) ++ rest := by
  obtain ⟨c, cs, text, solid⟩ := opens.joined sp depth texts rest
  rw [text, skipBlank_cons solid]

theorem Opens.inside {t : String} (opens : Opens t) (sp : Spacing) (depth : Nat) (texts : List String)
    (rest : List Char) :
    ∃ c cs, c ∉ closers ∧
      skipBlank (sp.gap depth ++ (sp.joined depth (t :: texts) ++ rest)) = c :: cs ∧
      skipBlank (c :: cs) = sp.joined depth (t :: texts) ++ rest := by
  obtain ⟨c, cs, text, solid⟩ := opens.joined sp depth texts rest
  rw [skipBlank_gap, text, skipBlank_cons solid]
  exact ⟨c, cs, solid, rfl, skipBlank_cons solid cs⟩

theorem Reads.opens {sp : Spacing} {v : Json} (reads : Reads sp v) (depth : Nat) :
    Opens (render sp depth v) := by
  have read := reads depth _ [] .nil (Nat.le_refl _)
  cases text : (render sp depth v).toList with
  | nil =>
    rw [text] at read
    cases read
  | cons c cs =>
    refine ⟨c, cs, text, fun closing => ?_⟩
    rw [text, List.cons_append, value?_eq_none closing] at read
    cases read

theorem items?_joined {sp : Spacing} {depth : Nat} {items : List Json} {v : Json}
    (reads : ∀ w ∈ v :: items, Reads sp w) {fuel : Nat} {cs rest : List Char} (read : List Json)
    (front : skipBlank cs = sp.joined (depth + 1) ((v :: items).map (render sp (depth + 1))) ++
      (sp.gap depth ++ ']' :: rest))
    (enough : 2 * (sp.joined (depth + 1) ((v :: items).map (render sp (depth + 1)))).length < fuel) :
    items? fuel read cs = some (array (read.reverse ++ v :: items), rest) := by
  -- on the items behind the first one, which has no comma in front
  induction items generalizing v read cs fuel with
  | nil =>
    obtain ⟨fuel, rfl⟩ := Nat.exists_eq_add_one_of_ne_zero (Nat.ne_of_gt (Nat.zero_lt_of_lt enough))
    have first := reads v List.mem_cons_self (depth + 1) fuel
    rw [List.map_cons, List.map_nil, joined_singleton] at front enough
    rw [items?, front, first _ (stops_gap sp depth (.bracket rest)) (by omega)]
    simp only [Option.bind_eq_bind, Option.bind_some, skipBlank_gap]
    rw [List.reverse_cons]
    rfl
  | cons w items ih =>
    obtain ⟨fuel, rfl⟩ := Nat.exists_eq_add_one_of_ne_zero (Nat.ne_of_gt (Nat.zero_lt_of_lt enough))
    have first := reads v List.mem_cons_self (depth + 1) fuel
    have others := (List.forall_mem_cons.mp reads).2
    have opens := (others w List.mem_cons_self).opens (depth + 1)
    rw [List.map_cons, List.map_cons, joined_cons_cons, ← List.map_cons] at front enough
    simp only [List.length_append, List.length_cons] at enough
    rw [items?, front, List.append_assoc, List.cons_append, first _ (.comma _) (by omega)]
    simp only [Option.bind_eq_bind, Option.bind_some, List.append_assoc]
    refine (ih others (v :: read) ?_ (by omega)).trans ?_
    · rw [skipBlank_gap, List.map_cons, opens.skipBlank_joined]
    · rw [List.reverse_cons, List.append_assoc]
      rfl

theorem assign_new {members : List (String × Json)} {key : String} (new : key ∉ members.map (·.1))
    (v : Json) : assign members key v = members ++ [(key, v)] := by
  have absent : (members.any fun m => m.1 == key) = false :=
    List.any_eq_false.mpr fun m among same => new (List.mem_map.mpr ⟨m, among, eq_of_beq same⟩)
  rw [assign, absent]
  rfl

theorem toList_renderMember (sp : Spacing) (depth : Nat) (m : String × Json) :
    (renderMember sp depth m).toList =
      '"' :: (m.1.toList.flatMap (fun c => (storedChar c).toList) ++
        '"' :: (sp.colon.toList ++ (render sp depth m.2).toList)) := by
  rw [renderMember, String.toList_append, String.toList_append, List.append_assoc, toList_storedString]

theorem opens_renderMember (sp : Spacing) (depth : Nat) (m : String × Json) :
    Opens (renderMember sp depth m) :=
  ⟨'"', _, toList_renderMember sp depth m, by decide⟩

theorem Reads.colon {sp : Spacing} {v : Json} (reads : Reads sp v) (depth : Nat) (rest : List Char) :
    ∃ more, sp.colon.toList = ':' :: more ∧
      skipBlank (more ++ ((render sp depth v).toList ++ rest)) = (render sp depth v).toList ++ rest := by
  obtain ⟨c, cs, text, solid⟩ := reads.opens depth
  rw [text]
  cases sp with
  | compact => exact ⟨[], rfl, skipBlank_cons solid _⟩
  | indented step => exact ⟨[' '], by rw [Spacing.colon]; rfl, skipBlank_cons solid _⟩

theorem members?_cons {sp : Spacing} {depth : Nat} {m : String × Json} (reads : Reads sp m.2) {fuel : Nat}
    (enough : 2 * (renderMember sp depth m).toList.length ≤ fuel) {cs rest : List Char} (stops : Stops rest)
    (front : skipBlank cs = (renderMember sp depth m).toList ++ rest) (read : List (String × Json)) :
    members? (fuel + 1) read cs =
      match skipBlank rest with
      | ',' :: rest => members? fuel (assign read m.1 m.2) rest
      | '}' :: rest => some (object (assign read m.1 m.2), rest)
      | _ => none := by
  obtain ⟨more, colon, skipped⟩ := reads.colon depth rest
  rw [toList_renderMember, colon] at front enough
  simp only [List.length_cons, List.length_append] at enough
  have value := reads depth fuel rest stops (by omega)
  have step := members?.eq_def (fuel + 1) read cs
  simp only [front, List.cons_append, List.append_assoc, stringBody?_storedString,
    Option.bind_eq_bind, Option.bind_some, skipBlank_cons (show ':' ∉ closers by decide), skipped,
    value] at step
  exact step

theorem not_mem_of_once {read members : List (String × Json)} {m : String × Json}
    (once : ((read ++ m :: members).map (·.1)).Nodup) : m.1 ∉ read.map (·.1) := by
  rw [List.map_append, List.map_cons] at once
  exact fun among => (List.nodup_append.mp once).2.2 _ among _ List.mem_cons_self rfl

theorem members?_joined {sp : Spacing} {depth : Nat} {members : List (String × Json)} {m : String × Json}
    (reads : ∀ w ∈ m :: members, Reads sp w.2) {fuel : Nat} {cs rest : List Char}
    {read : List (String × Json)} (once : ((read ++ m :: members).map (·.1)).Nodup)
    (front : skipBlank cs = sp.joined (depth + 1) ((m :: members).map (renderMember sp (depth + 1))) ++
      (sp.gap depth ++ '}' :: rest))
    (enough : 2 * (sp.joined (depth + 1) ((m :: members).map (renderMember sp (depth + 1)))).length < fuel) :
    members? fuel read cs = some (object (read ++ m :: members), rest) := by
  induction members generalizing m read cs fuel with
  | nil =>
    obtain ⟨fuel, rfl⟩ := Nat.exists_eq_add_one_of_ne_zero (Nat.ne_of_gt (Nat.zero_lt_of_lt enough))
    rw [List.map_cons, List.map_nil, joined_singleton] at front enough
    rw [members?_cons (reads m List.mem_cons_self) (by omega) (stops_gap sp depth (.brace rest)) front,
      skipBlank_gap, assign_new (not_mem_of_once once)]
    rfl
  | cons n members ih =>
    obtain ⟨fuel, rfl⟩ := Nat.exists_eq_add_one_of_ne_zero (Nat.ne_of_gt (Nat.zero_lt_of_lt enough))
    have others := (List.forall_mem_cons.mp reads).2
    have opens := opens_renderMember sp (depth + 1) n
    rw [List.map_cons, List.map_cons, joined_cons_cons, ← List.map_cons, List.append_assoc,
      List.cons_append] at front
    rw [List.map_cons, List.map_cons, joined_cons_cons, ← List.map_cons] at enough
    simp only [List.length_append, List.length_cons] at enough
    rw [members?_cons (reads m List.mem_cons_self) (by omega) (.comma _) front,
      assign_new (not_mem_of_once once), skipBlank_cons (show ',' ∉ closers by decide)]
    -- the key is new, so that the member has come last among those that were read
    rw [List.append_cons read m (n :: members)] at once ⊢
    have front : skipBlank (sp.gap (depth + 1) ++ sp.joined (depth + 1)
        ((n :: members).map (renderMember sp (depth + 1))) ++ (sp.gap depth ++ '}' :: rest)) =
          sp.joined (depth + 1) ((n :: members).map (renderMember sp (depth + 1))) ++
            (sp.gap depth ++ '}' :: rest) := by
      rw [List.append_assoc, skipBlank_gap, List.map_cons, opens.skipBlank_joined]
    have less : 2 * (sp.joined (depth + 1) ((n :: members).map (renderMember sp (depth + 1)))).length < fuel := by
      omega
    exact ih others once front less

theorem value?_bracket {cs inner : List Char} {c : Char} (front : skipBlank inner = c :: cs)
    (solid : c ∉ closers) (fuel : Nat) : value? (fuel + 1) ('[' :: inner) = items? fuel [] (c :: cs) := by
  have other : c ≠ ']' := fun same => solid (by rw [same]; decide)
  simp [value?, front, other]

theorem value?_brace {cs inner : List Char} {c : Char} (front : skipBlank inner = c :: cs)
    (solid : c ∉ closers) (fuel : Nat) : value? (fuel + 1) ('{' :: inner) = members? fuel [] (c :: cs) := by
  have other : c ≠ '}' := fun same => solid (by rw [same]; decide)
  simp [value?, front, other]

theorem reads_array {sp : Spacing} {items : List Json} (each : ∀ v ∈ items, Reads sp v) :
    Reads sp (array items) := by
  intro depth fuel rest stops enough
  rw [render, renderItems_eq_map] at enough ⊢
  cases items with
  | nil =>
    rw [List.map_nil, toList_enclose_nil] at enough ⊢
    obtain ⟨fuel, rfl⟩ := Nat.exists_eq_add_one_of_ne_zero (show fuel ≠ 0 by rintro rfl; simp at enough)
    rfl
  | cons v items =>
    obtain ⟨c, cs, solid, front, kept⟩ := ((each v List.mem_cons_self).opens (depth + 1)).inside sp
      (depth + 1) (items.map (render sp (depth + 1))) (sp.gap depth ++ ']' :: rest)
    rw [← List.map_cons] at front kept
    have filled : (v :: items).map (render sp (depth + 1)) ≠ [] := List.cons_ne_nil _ _
    rw [toList_enclose _ _ _ _ filled] at enough ⊢
    simp only [List.length_append] at enough
    have bracket : "[".toList.length = 1 := rfl
    obtain ⟨fuel, rfl⟩ := Nat.exists_eq_add_one_of_ne_zero (show fuel ≠ 0 by omega)
    simp only [List.append_assoc]
    exact (value?_bracket front solid fuel).trans (items?_joined each [] kept (by omega))

theorem reads_object {sp : Spacing} {members : List (String × Json)} (once : (members.map (·.1)).Nodup)
    (each : ∀ m ∈ members, Reads sp m.2) : Reads sp (object members) := by
  intro depth fuel rest stops enough
  rw [render, renderMembers_eq_map] at enough ⊢
  cases members with
  | nil =>
    rw [List.map_nil, toList_enclose_nil] at enough ⊢
    obtain ⟨fuel, rfl⟩ := Nat.exists_eq_add_one_of_ne_zero (show fuel ≠ 0 by rintro rfl; simp at enough)
    rfl
  | cons m members =>
    obtain ⟨c, cs, solid, front, kept⟩ := (opens_renderMember sp (depth + 1) m).inside sp
      (depth + 1) (members.map (renderMember sp (depth + 1))) (sp.gap depth ++ '}' :: rest)
    rw [← List.map_cons] at front kept
    have filled : (m :: members).map (renderMember sp (depth + 1)) ≠ [] := List.cons_ne_nil _ _
    rw [toList_enclose _ _ _ _ filled] at enough ⊢
    simp only [List.length_append] at enough
    have brace : "\x7b".toList.length = 1 := rfl
    obtain ⟨fuel, rfl⟩ := Nat.exists_eq_add_one_of_ne_zero (show fuel ≠ 0 by omega)
    simp only [List.append_assoc]
    exact (value?_brace front solid fuel).trans (members?_joined each once kept (by omega))

theorem reads_string (sp : Spacing) (s : String) : Reads sp (string s) := by
  intro depth fuel rest stops enough
  rw [render] at enough ⊢
  have quoted := congrArg List.length (toList_storedString s [])
  rw [List.append_nil, List.length_cons] at quoted
  obtain ⟨fuel, rfl⟩ := Nat.exists_eq_add_one_of_ne_zero (show fuel ≠ 0 by omega)
  rw [toList_storedString]
  simp only [value?, stringBody?_storedString, Option.bind_eq_bind, Option.bind_some]

theorem reads_of_legible (sp : Spacing) {v : Json} (legible : Legible v) : Reads sp v := by
  have scalar {v : Json} (same : ∀ depth, scalar? (render sp depth v).toList = some (v, [])) :
      Reads sp v := by
    intro depth fuel rest stops enough
    have filled : (render sp depth v).toList ≠ [] := by
      intro empty
      have read := same depth
      rw [empty] at read
      cases read
    have length := List.length_pos_iff.mpr filled
    exact value?_of_scalar? (same depth) (by omega) stops
  induction legible with
  | null => exact scalar fun _ => by rw [render]; rfl
  | bool b => exact scalar fun _ => by cases b <;> (rw [render]; rfl)
  | int n => exact scalar fun _ => scalar?_int n
  | float exact' => exact scalar fun _ => scalar?_storedFloat exact'
  | string s => exact reads_string sp s
  | array each ih => exact reads_array ih
  | object once each ih => exact reads_object once ih

/-- A legible value is read back from its text. -/
theorem parse?_render (sp : Spacing) {v : Json} (legible : Legible v) (depth : Nat) :
    parse? (v.render sp depth) = some v := by
  have reads := reads_of_legible sp legible
  obtain ⟨c, cs, text, solid⟩ := reads.opens depth
  have read := reads depth (2 * (v.render sp depth).toList.length + 2) [] .nil (by omega)
  rw [List.append_nil, text] at read
  simp only [parse?, text, skipBlank_cons solid, read]
  rfl

end GridRobot.Json
