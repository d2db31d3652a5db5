import GridRobot.Program.Address
import GridRobot.Proofs.Record.Codec
import GridRobot.Proofs.Run.Record

/-!
Running with every access checked. A guarded run reads cells and slots by plain indices and divides by
plain numbers; an index out of range or a divisor that is zero ends it with a refusal. Otherwise it does
what `execute` does, and nothing is refused.
-/

namespace GridRobot

inductive Refusal where
  | cell (p : Position)
  | slot (e : AddressError)
  | division
  | start (e : VoidStart)

/-! ## Accesses -/

def Grid.cell (g : Grid) (p : Position) : Except Refusal (Option Tile) :=
  match p.x, p.y with
  | .ofNat x, .ofNat y =>
    match g.toRows[y]?.bind (·[x]?) with
    | some cell => .ok cell
    | none => .error (.cell p)
  | _, _ => .error (.cell p)

def Grid.tileAt (g : Grid) (p : Position) : Except Refusal (Option Tile) :=
  if g.Contains p then g.cell p else .ok none

def Grid.write (g : Grid) (p : Position) (t : Option Tile) : Except Refusal Grid := do
  let _ ← g.cell p
  return g.put p t

def Program.slotAt (p : Program) (s : Slot) : Except Refusal (Option Instruction) :=
  (p.read (.ofSlot s)).mapError .slot

def quotient (n d : Nat) : Except Refusal Float :=
  if d = 0 then .error .division else .ok (Float.ofNat n / Float.ofNat d)

namespace Grid

variable {g : Grid} {p : Position}

theorem cell_eq (inside : g.Contains p) : g.cell p = .ok (g.tile? p) := by
  obtain ⟨x, y⟩ := p
  obtain ⟨left, right, top, bottom⟩ := id inside
  obtain ⟨x, rfl⟩ := Int.eq_ofNat_of_zero_le left
  obtain ⟨y, rfl⟩ := Int.eq_ofNat_of_zero_le top
  have wide : x < g.width := Int.ofNat_lt.mp right
  have high : y < g.height := Int.ofNat_lt.mp bottom
  have found : g.toRows[y]?.bind (·[x]?) = some (g.tile? ⟨x, y⟩) := by
    rw [tile?_of_contains inside wide high]
    simp [toRows, wide, high]
  change (match g.toRows[y]?.bind (·[x]?) with
    | some cell => Except.ok cell
    | none => Except.error (Refusal.cell ⟨x, y⟩)) = _
  rw [found]

theorem tileAt_eq (g : Grid) (p : Position) : g.tileAt p = .ok (g.tile? p) := by
  unfold tileAt
  split
  · rename_i inside
    exact cell_eq inside
  · rename_i outside
    rw [tile?_eq_none_of_not_contains outside]

theorem write_eq (inside : g.Contains p) (t : Option Tile) : g.write p t = .ok (g.put p t) := by
  rw [write, cell_eq inside]
  rfl

end Grid

theorem Program.slotAt_eq {p : Program} {s : Slot} (has : p.HasSlot s) : p.slotAt s = .ok (p.at? s) := by
  rw [slotAt, read_ofSlot has]
  rfl

theorem quotient_eq {n d : Nat} (some : d ≠ 0) :
    quotient n d = .ok (Float.ofNat n / Float.ofNat d) :=
  if_neg some

/-! ## Guarded runs -/

abbrev Guarded (σ α : Type) := ExceptT Refusal (StateM σ) α

namespace Guarded

variable {σ : Type} [RandomSource σ]

def coverage (t : Trace) (total : Nat) : Except Refusal Float :=
  if total = 0 then .ok 100 else (quotient t.executed.size total).map (· * 100)

def hasSeenEnough (t : Trace) (c : Config) : Except Refusal Bool := do
  if c.minCoverage ≤ (← coverage t c.totalSlots) then
    return c.maxAverageExecutions ≤ (← quotient t.steps t.executed.size)
  else return false

def arrive (rules : Rules) (r : Run) (target : Position) : Except Refusal Progress := do
  let heading := r.trace.final.heading
  let turning := r.entry.any fun entry => entry.isQuarterTurn heading
  let tile ← r.trace.world.cell target
  let t := r.trace
  return Run.unlessBack { r with entry := some heading } rules.config { t with
    turnPositions := if turning then t.turnPositions.push t.final.position else t.turnPositions
    final := { t.final with position := target }
    path := t.path.push target
    visited := t.visited ++ (tile.bind (·.color)).toList.toArray }

def forward (rules : Rules) (r : Run) (slot : Slot) : Guarded σ Progress := do
  let r := r.departing rules slot
  let target := r.trace.final.position.step r.trace.final.heading
  if ¬ r.trace.world.Contains target then
    return .ended { r.trace with terminal := .boundary, boundarySlot := some slot }
  else if (← r.trace.world.cell target).isSome then arrive rules r target
  else
    let color ← (Color.drawWeighted rules.config.colorRatios : StateM σ Color)
    let world ← r.trace.world.write target (some ⟨some color, false⟩)
    -- the colours that tiles had are kept by position, not in rows
    let unpainted := r.trace.unpainted.put target (some ⟨some color, false⟩)
    arrive rules { r with trace := { r.trace with world, unpainted } } target

def paint (rules : Rules) (r : Run) (slot : Slot) (tile : Option Tile) (c : Color) : Run :=
  match tile with
  | some tile =>
    if rules.suppressed slot || tile.color == some c then r
    else
      let here := r.trace.final.position
      { r with
        trace :=
          { r.trace with
            world := r.trace.world.put here (some { tile with color := some c })
            visited := r.trace.visited.push c
            painted := r.trace.painted.insert here c } }
  | none => r

def act (rules : Rules) (r : Run) (slot : Slot) (tile : Option Tile) (action : Action) :
    Guarded σ Progress :=
  match action with
  | .forward => forward rules r slot
  | .turn t => return r.turn rules t
  | .call callee => return .running (r.call slot callee)
  | .paint c => return .running (paint rules r slot tile c)
  | .noop | .other _ => return .running r

def advance (rules : Rules) (r : Run) : Guarded σ Progress := do
  let (stack, slot?) := r.stack.fetch rules.program
  let r := { r with stack }
  match slot? with
  | none => return .running r
  | some slot =>
    match ← rules.program.slotAt slot with
    | none => return .running r
    | some i =>
      let tile ← r.trace.world.tileAt r.trace.final.position
      if !i.runsOn tile then return .running r
      else
        let t := r.trace.record slot i r.departed
        if ← hasSeenEnough t rules.config then return .ended { t with terminal := .earlyExit }
        else act rules { r with trace := t } slot tile i.action

def finish (rules : Rules) : Nat → Run → Guarded σ Trace
  | 0, r => return r.trace
  | fetches + 1, r => do
    if rules.config.maxSteps ≤ r.trace.steps then return r.trace
    else
      match ← advance rules r with
      | .running r => finish rules fetches r
      | .ended t => return t

def execute (p : Program) (c : Config) (world : Grid) (start : Pose) (window : Nat)
    (suppressed : Slot → Bool) : Guarded σ Trace := do
  match ← world.tileAt start.position with
  | none => throw (.start ⟨start.position⟩)
  | some tile =>
    finish ⟨p, c, suppressed, window⟩ (c.maxSteps * Run.fetchesPerStep) { trace := {
      world
      unpainted := world
      start
      final := start
      path := #[start.position]
      visited := tile.color.toList.toArray } }

/-! ## The same runs -/

section Agrees

variable {σ α β : Type}

/-- Nothing is refused, and the value and the source are those of a computation that is not guarded. -/
def Agrees (x : Guarded σ α) (y : StateM σ α) : Prop :=
  ∀ source, x source = (.ok (y source).1, (y source).2)

theorem Agrees.pure (a : α) : Agrees (Pure.pure a : Guarded σ α) (Pure.pure a) :=
  fun _ => rfl

theorem Agrees.drawn (x : StateM σ α) : Agrees (liftM x : Guarded σ α) x :=
  fun _ => rfl

theorem Agrees.granted {x : Except Refusal α} {a : α} (same : x = .ok a) :
    Agrees (liftM x : Guarded σ α) (Pure.pure a) := by
  rw [same]
  exact Agrees.pure a

theorem bind_of_ok {x : Guarded σ α} {f : α → Guarded σ β} {source between : σ} {a : α}
    (went : x source = (.ok a, between)) : (x >>= f) source = f a between := by
  change ExceptT.bindCont f (x source).1 (x source).2 = _
  rw [went]
  rfl

theorem Agrees.bind {x : Guarded σ α} {y : StateM σ α} {f : α → Guarded σ β} {g : α → StateM σ β}
    (first : Agrees x y) (next : ∀ a, Agrees (f a) (g a)) : Agrees (x >>= f) (y >>= g) :=
  fun source => (bind_of_ok (first source)).trans (next _ _)

theorem Agrees.grant {x : Except Refusal α} {a : α} {f : α → Guarded σ β} {y : StateM σ β}
    (same : x = .ok a) (next : Agrees (f a) y) : Agrees (liftM x >>= f) y :=
  fun source => (bind_of_ok (granted same source)).trans (next source)

end Agrees

theorem hasSeenEnough_eq {t : Trace} (begun : t.executed.size ≠ 0) (c : Config) :
    hasSeenEnough t c = .ok (t.hasSeenEnough c) := by
  have covered : coverage t c.totalSlots = .ok (t.coverage c.totalSlots) := by
    unfold coverage Trace.coverage
    split
    · rfl
    · rename_i some
      rw [quotient_eq some]
      rfl
  refine bind_eq_ok.mpr ⟨_, covered, ?_⟩
  unfold Trace.hasSeenEnough
  split
  · rename_i reached
    refine bind_eq_ok.mpr ⟨_, quotient_eq begun, ?_⟩
    simp only [reached, decide_true, Bool.true_and]
    rfl
  · rename_i short
    simp only [short, decide_false, Bool.false_and]
    rfl

theorem size_record_ne_zero (t : Trace) (slot : Slot) (i : Instruction) (departed : List Position) :
    (t.record slot i departed).executed.size ≠ 0 := by
  have executed : slot ∈ (t.record slot i departed).executed.keys := by
    rw [← ArrivalMap.contains_iff, Trace.executed_record, ArrivalMap.contains_alter]
    exact .inl rfl
  rw [ArrivalMap.keys] at executed
  have some := List.length_pos_of_mem executed
  rw [List.length_map] at some
  exact Nat.ne_of_gt some

variable {rules : Rules} {r : Run}

theorem arrive_eq {target : Position} (inside : r.trace.world.Contains target) :
    arrive rules r target = .ok (r.arrive rules target) :=
  bind_eq_ok.mpr ⟨_, Grid.cell_eq inside, rfl⟩

theorem agrees_forward (slot : Slot) :
    Agrees (forward rules r slot : Guarded σ Progress) (r.forward rules slot) := by
  unfold forward Run.forward
  dsimp only
  generalize r.departing rules slot = r
  split
  · exact .pure _
  rename_i inside
  have inside := not_not.mp inside
  refine .grant (Grid.cell_eq inside) ?_
  split
  · exact .granted (arrive_eq inside)
  · refine (Agrees.drawn _).bind fun color => ?_
    exact .grant (Grid.write_eq inside _) (.granted (arrive_eq inside))

theorem paint_eq (slot : Slot) (c : Color) :
    paint rules r slot (r.trace.world.tile? r.trace.final.position) c = r.paint rules slot c := by
  unfold paint Run.paint Trace.paint
  dsimp only
  cases r.trace.world.tile? r.trace.final.position with
  | none => exact (ite_self r).symm
  | some tile =>
    by_cases spared : rules.suppressed slot = true
    · simp [spared]
    · by_cases there : tile.color = some c <;> simp [spared, there]

theorem agrees_act (slot : Slot) (action : Action) :
    Agrees (act rules r slot (r.trace.world.tile? r.trace.final.position) action : Guarded σ Progress)
      (r.act rules slot action) := by
  cases action with
  | forward => exact agrees_forward slot
  | paint c =>
    rw [act, paint_eq]
    exact .pure _
  | turn | call | noop | other => exact .pure _

theorem agrees_advance (rules : Rules) (r : Run) :
    Agrees (advance rules r : Guarded σ Progress) (r.advance rules) := by
  unfold advance Run.advance
  cases fetched : r.stack.fetch rules.program with
  | mk stack slot? =>
    cases slot? with
    | none => exact .pure _
    | some slot =>
      refine .grant (Program.slotAt_eq (CallStack.hasSlot_of_fetch fetched)) ?_
      dsimp only
      cases rules.program.at? slot with
      | none => exact .pure _
      | some i =>
        refine .grant (Grid.tileAt_eq _ _) ?_
        dsimp only
        split
        · exact .pure _
        refine .grant (hasSeenEnough_eq (size_record_ne_zero _ _ _ _) _) ?_
        split
        · exact .pure _
        -- the guarded run looked at its tile before the slot was recorded
        have seen : (r.trace.record slot i r.departed).world.tile?
            (r.trace.record slot i r.departed).final.position =
              r.trace.world.tile? r.trace.final.position := by
          rw [Trace.world_record, Trace.final_record]
        rw [← seen]
        exact agrees_act (r := { r with stack, trace := r.trace.record slot i r.departed }) slot i.action

theorem agrees_finish (rules : Rules) (fetches : Nat) (r : Run) :
    Agrees (finish rules fetches r : Guarded σ Trace) (r.finish rules fetches) := by
  induction fetches generalizing r with
  | zero => exact .pure _
  | succ fetches ih =>
    unfold finish Run.finish
    split
    · exact .pure _
    refine (agrees_advance rules r).bind fun progress => ?_
    cases progress with
    | running r => exact ih r
    | ended t => exact .pure t

theorem execute_eq (p : Program) (c : Config) {world : Grid} {start : Pose}
    (grounded : (world.tile? start.position).isSome = true) (window : Nat) (suppressed : Slot → Bool)
    (source : σ) :
    ∃ t after, execute p c world start window suppressed source = (.ok t, after) ∧
      GridRobot.execute p c { grid := some world, start := some start, window } suppressed source =
        (.ok t, after) := by
  obtain ⟨begun, begins⟩ : ∃ begun, Trace.begin? world start = some begun :=
    Option.isSome_iff_exists.mp (by rwa [Trace.begin?, Option.isSome_map])
  have agrees : Agrees (execute p c world start window suppressed : Guarded σ Trace)
      (Run.finish ⟨p, c, suppressed, window⟩ (c.maxSteps * Run.fetchesPerStep) { trace := begun }) := by
    refine .grant (Grid.tileAt_eq world start.position) ?_
    obtain ⟨tile, here, rfl⟩ := Trace.begin?_eq_some begins
    rw [here]
    exact agrees_finish _ _ _
  refine ⟨_, _, agrees source, execute_eq_ok.mpr ?_⟩
  change runFrom? ⟨p, c, suppressed, window⟩ world start source = _
  rw [runFrom?, begins]
  rfl

end Guarded

end GridRobot
