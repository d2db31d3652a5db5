import GridRobot.Proofs.Run.Calls

/-!
Slots that are never reached. A routine that always calls itself from some slot does not go on behind
it: the frame that has made the call stays below the one that it has entered, and that one comes to
the same slot before it is spent (`CallStack.Held`).
-/

namespace GridRobot

namespace CallStack

/-- A frame of `r` that is past slot `j` lies right below another frame of `r`. -/
structure Held (s : CallStack) (r : Routine) (j : Nat) : Prop where
  top : ∀ f, s.head? = some f → f.routine = r → f.next ≤ j
  covered : s.IsChain fun upper lower => lower.routine = r → j < lower.next → upper.routine = r

namespace Held

variable {p : Program} {tile : Option Tile} {s t rest : CallStack} {f : Frame} {r : Routine} {j : Nat}

theorem root (r : Routine) (j : Nat) : root.Held r j where
  top f first := by
    cases first
    exact fun _ => Nat.zero_le j
  covered := .singleton _

theorem rooted (held : s.Held r j) : s.rooted.Held r j := by
  cases s with
  | nil => exact root r j
  | cons f rest => exact held

theorem pop (held : Held (f :: rest) r j) (left : j < (p.body.get r).length)
    (spent : (p.body.get f.routine).length ≤ f.next) : rest.Held r j := by
  have covered := List.isChain_cons.mp held.covered
  refine ⟨fun g first same => ?_, covered.2⟩
  -- the frame that is taken off would have to be past the slot itself
  by_contra past
  have above := covered.1 g first same (Nat.not_le.mp past)
  have top := held.top f rfl above
  rw [above] at spent
  omega

theorem read (held : Held (f :: rest) r j) (before : f.routine = r → f.next ≠ j) :
    Held ({ f with next := f.next + 1 } :: rest) r j where
  top g first same := by
    cases first
    exact Nat.lt_of_le_of_ne (held.top f rfl same) (before same)
  covered := by
    have covered := held.covered
    rw [List.isChain_cons] at covered ⊢
    exact covered

theorem call (held : Held (f :: rest) r j) {callee : Routine}
    (again : f.routine = r → f.next = j → callee = r) :
    Held (⟨callee, 0⟩ :: { f with next := f.next + 1 } :: rest) r j where
  top g first := by
    cases first
    exact fun _ => Nat.zero_le j
  covered := by
    have covered := held.covered
    rw [List.isChain_cons] at covered
    refine .cons_cons (fun same past => again same ?_) (List.isChain_cons.mpr covered)
    exact Nat.le_antisymm (held.top f rfl same) (Nat.le_of_lt_succ past)

theorem passed (held : s.Held r j) (selfCall : p.at? ⟨r, j⟩ = some ⟨.call r, none⟩)
    (fetched : s.next p tile = (t, none)) : t.Held r j := by
  have held := held.rooted
  have reads := reads_of_next fetched
  generalize s.rooted = u at reads held
  cases reads with
  | spent past => exact held.pop (Program.hasSlot_of_at? selfCall) past
  | passed _ idle =>
    refine held.read fun same here => ?_
    have waits := idle ⟨.call r, none⟩ (by rw [same, here]; exact selfCall)
    cases waits

variable {slot : Slot} {i : Instruction} {u : CallStack}

theorem index_le (held : s.Held r j) (fetched : s.next p tile = (t, some (slot, i)))
    (same : slot.routine = r) : slot.index ≤ j := by
  have held := held.rooted
  have reads := reads_of_next fetched
  generalize s.rooted = u at reads held
  cases reads with
  | found => exact held.top _ rfl same

theorem act (held : s.Held r j) (selfCall : p.at? ⟨r, j⟩ = some ⟨.call r, none⟩)
    (fetched : s.next p tile = (t, some (slot, i))) (acted : Acted i.action t u) : u.Held r j := by
  have held := held.rooted
  have reads := reads_of_next fetched
  generalize s.rooted = from_ at reads held
  cases reads with
  | @found f rest i _ filled =>
    have here (same : f.routine = r) (last : f.next = j) : i.action = .call r := by
      rw [same, last, selfCall] at filled
      cases filled
      rfl
    generalize i.action = action at acted here
    cases acted with
    | call callee =>
      refine held.call fun same last => ?_
      cases here same last
      rfl
    | other _ calls =>
      refine held.read fun same last => ?_
      cases here same last
      cases calls

end Held

end CallStack

variable {σ : Type} [RandomSource σ]

theorem Logged.index_le {rules : Rules} {n : Nat} {origin : CallStack} {skipped : Nat} {r : Run}
    {source after : σ} {log : List Event} {t : Trace} {routine : Routine} {j : Nat}
    (logged : Logged rules n origin skipped r source log t after)
    (selfCall : rules.program.at? ⟨routine, j⟩ = some ⟨.call routine, none⟩)
    (held : r.stack.Held routine j) :
    ∀ e ∈ log, e.slot.routine = routine → e.slot.index ≤ j := by
  induction logged with
  | exhausted | spent => exact List.forall_mem_nil _
  | passed _ fetched _ ih => exact ih (held.passed selfCall fetched)
  | ended _ fetched => exact List.forall_mem_singleton.mpr (held.index_le fetched)
  | executed _ fetched dispatched _ _ ih =>
    have rest := ih (held.act selfCall fetched dispatched.stack.1)
    exact List.forall_mem_cons.mpr ⟨held.index_le fetched, rest⟩

/-- Behind a slot in which a routine always calls itself no slot of it is ever executed. -/
theorem unreached_of_selfCall {p : Program} {c : Config} {s : Setting} {suppressed : Slot → Bool}
    {source after : σ} {t : Trace} (ran : execute p c s suppressed source = (.ok t, after))
    {r : Routine} {j : Nat} (selfCall : p.at? ⟨r, j⟩ = some ⟨.call r, none⟩) {i : Nat}
    (behind : j < i) : t.executed.contains ⟨r, i⟩ = false := by
  obtain ⟨begun, log, -, logged, -, tallies, -⟩ := summary_of_execute ran
  have within := logged.index_le selfCall (.root r j)
  rw [Bool.eq_false_iff]
  intro executed
  rw [ArrivalMap.contains_iff, tallies.order, List.mem_eraseDups, List.mem_map] at executed
  obtain ⟨e, mem, same⟩ := executed
  have index := within e mem (by rw [same])
  rw [same] at index
  exact absurd behind (Nat.not_lt.mpr index)

def callTwice : Program :=
  ⟨⟨[some ⟨.call .f2, none⟩, some ⟨.call .f1, none⟩, some ⟨.forward, none⟩],
    [some ⟨.turn .right, none⟩], [], [], []⟩⟩

def threeAndOne : Config where
  slotsPerRoutine := ⟨3, 1, 0, 0, 0⟩
  maxSteps := 20
  maxAverageExecutions := 1000
  ignoreLoops := true

theorem unreached_callTwice :
    ∃ t after, execute callTwice threeAndOne loneTile (fun _ => false)
        (⟨#[0.5], 0, false⟩ : Tape) = (.ok t, after) ∧
      callTwice.at? ⟨.f1, 1⟩ = some ⟨.call .f1, none⟩ ∧ t.steps = 20 ∧
      t.executed.contains ⟨.f1, 1⟩ = true ∧ t.executed.contains ⟨.f1, 2⟩ = false := by
  have evaluated : (execute callTwice threeAndOne loneTile (fun _ => false)
      (⟨#[0.5], 0, false⟩ : Tape)).1.toOption.any (fun t =>
        decide (t.steps = 20 ∧ t.executed.contains ⟨.f1, 1⟩ = true)) = true := by
    decide +kernel
  obtain ⟨t, after, ran, tested⟩ := exists_ok_of_any evaluated
  obtain ⟨steps, executed⟩ := of_decide_eq_true tested
  have selfCall : callTwice.at? ⟨.f1, 1⟩ = some ⟨.call .f1, none⟩ := by decide
  exact ⟨t, after, ran, selfCall, steps, executed, unreached_of_selfCall ran selfCall (by decide)⟩

end GridRobot
