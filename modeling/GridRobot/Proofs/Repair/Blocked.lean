import GridRobot.Proofs.Repair.Edit
import GridRobot.Random
import GridRobot.Repair.Strategy

namespace GridRobot

namespace Program

def CallsAlways (p : Program) (s : Slot) : Prop :=
  ∃ r, p.at? s = some ⟨.call r, none⟩

/-- Of the calls in the routine of `s` that are made on every tile, `caller` is the last one before
`s`. -/
structure LastCallBefore (p : Program) (s caller : Slot) : Prop where
  routine : caller.routine = s.routine
  before : caller.index < s.index
  calls : p.CallsAlways caller
  last : ∀ k, caller.index < k → k < s.index → ¬ p.CallsAlways ⟨s.routine, k⟩

variable {p : Program}

theorem isUnconditionalCall_iff {s : Slot} :
    isUnconditionalCall (p.at? s) = true ↔ p.CallsAlways s := by
  rw [CallsAlways]
  rcases p.at? s with _ | ⟨action, _ | color⟩
  · simp [isUnconditionalCall]
  · cases action <;> simp [isUnconditionalCall, Action.isCall]
  · simp [isUnconditionalCall]

/-! ## Forwards -/

theorem mem_blockedIndices {called : Bool} {i j : Nat} {slots : List (Option Instruction)} :
    j ∈ blockedIndices called i slots ↔ ∃ n < slots.length, j = i + n ∧
      (called = true ∨ ∃ k < n, isUnconditionalCall slots[k]?.join = true) := by
  induction slots generalizing called i with
  | nil => simp [blockedIndices]
  | cons slot rest ih =>
    -- The head is either the slot asked about or one more slot before it.
    rw [List.length_cons, Nat.exists_lt_succ_left]
    simp only [Nat.exists_lt_succ_left, List.getElem?_cons_zero, List.getElem?_cons_succ,
      Option.join_some, Nat.add_right_comm i _ 1, ← Nat.add_assoc]
    cases called with
    | true => simp [blockedIndices, ih]
    | false => simp [blockedIndices, ih]

theorem mem_blocked {s : Slot} :
    s ∈ p.blocked ↔ p.HasSlot s ∧ ∃ k < s.index, p.CallsAlways ⟨s.routine, k⟩ := by
  obtain ⟨r, i⟩ := s
  have listed : (⟨r, i⟩ : Slot) ∈ p.blocked ↔ i ∈ blockedIndices false 0 (p.body.get r) := by
    simp [blocked]
  rw [listed, mem_blockedIndices]
  simp only [Nat.zero_add, Bool.false_eq_true, false_or, ← isUnconditionalCall_iff]
  constructor
  · rintro ⟨n, low, rfl, called⟩
    exact ⟨low, called⟩
  · rintro ⟨low, called⟩
    exact ⟨i, low, rfl, called⟩

/-! ## Backwards -/

section Backwards

variable {r : Routine} {n : Nat} {caller : Slot}

theorem lastCallBefore_succ_of_calls (calls : p.CallsAlways ⟨r, n⟩) :
    p.LastCallBefore ⟨r, n + 1⟩ caller ↔ caller = ⟨r, n⟩ := by
  constructor
  · rintro ⟨rfl, before, -, last⟩
    have before : caller.index < n + 1 := before
    have reached : ¬ caller.index < n := fun less => last n less (Nat.lt_succ_self n) calls
    obtain rfl : caller.index = n := by omega
    rfl
  · rintro rfl
    refine ⟨rfl, Nat.lt_succ_self n, calls, fun k above below => ?_⟩
    exact absurd above (Nat.not_lt.mpr (Nat.le_of_lt_succ below))

theorem lastCallBefore_succ_of_not_calls (idle : ¬ p.CallsAlways ⟨r, n⟩) :
    p.LastCallBefore ⟨r, n + 1⟩ caller ↔ p.LastCallBefore ⟨r, n⟩ caller := by
  constructor
  · rintro ⟨rfl, before, calls, last⟩
    have other : caller.index ≠ n := by
      rintro rfl
      exact idle calls
    have before : caller.index < n + 1 := before
    have earlier : caller.index < n := by omega
    exact ⟨rfl, earlier, calls, fun k above below => last k above (Nat.lt_succ_of_lt below)⟩
  · rintro ⟨rfl, before, calls, last⟩
    refine ⟨rfl, Nat.lt_succ_of_lt before, calls, fun k above below => ?_⟩
    rcases Nat.lt_succ_iff_lt_or_eq.mp below with below | rfl
    · exact last k above below
    · exact idle

theorem callerBefore?_eq_some :
    p.callerBefore? r n = some caller ↔ p.LastCallBefore ⟨r, n⟩ caller := by
  induction n with
  | zero => exact ⟨nofun, fun last => absurd last.before (Nat.not_lt_zero _)⟩
  | succ n ih =>
    rw [callerBefore?]
    by_cases calls : p.CallsAlways ⟨r, n⟩
    · rw [if_pos (isUnconditionalCall_iff.mpr calls), lastCallBefore_succ_of_calls calls,
        Option.some.injEq, eq_comm]
    · rw [if_neg fun always => calls (isUnconditionalCall_iff.mp always), ih,
        lastCallBefore_succ_of_not_calls calls]

theorem exists_lastCallBefore :
    (∃ caller, p.LastCallBefore ⟨r, n⟩ caller) ↔ ∃ k < n, p.CallsAlways ⟨r, k⟩ := by
  constructor
  · rintro ⟨⟨_, k⟩, rfl, before, calls, -⟩
    exact ⟨k, before, calls⟩
  · rintro ⟨k, low, calls⟩
    induction n with
    | zero => cases low
    | succ n ih =>
      by_cases later : p.CallsAlways ⟨r, n⟩
      · exact ⟨_, (lastCallBefore_succ_of_calls later).mpr rfl⟩
      · have earlier : k < n := by
          rcases Nat.lt_succ_iff_lt_or_eq.mp low with earlier | rfl
          · exact earlier
          · exact absurd calls later
        obtain ⟨caller, last⟩ := ih earlier
        exact ⟨caller, (lastCallBefore_succ_of_not_calls later).mpr last⟩

end Backwards

theorem mem_blocked_iff_caller {s : Slot} (has : p.HasSlot s) :
    s ∈ p.blocked ↔ ∃ caller, p.callerBefore? s.routine s.index = some caller := by
  simp only [mem_blocked, has, true_and, callerBefore?_eq_some, exists_lastCallBefore]

end Program

/-! ## Unblocking -/

namespace Case

variable {σ : Type} [RandomSource σ] {c : Case} {p : Program}

theorem onOneRolled_apply {candidates : List α} (offered : ¬ candidates.isEmpty = true) {o : Odds}
    {source between : σ} (met : RandomSource.happens (c.chance o) source = (true, between))
    (next : α → Repair σ Bool) :
    ∃ a ∈ candidates, ∃ after, pick candidates p between = (.ok (a, p), after) ∧
      c.onOneRolled candidates o next p source = next a p after := by
  have rolled : (c.roll o : Repair σ Bool) p source = (.ok (true, p), between) := by
    have opened : (c.roll o : Repair σ Bool) p source =
        (.ok ((RandomSource.happens (c.chance o) source).1, p),
          (RandomSource.happens (c.chance o) source).2) := rfl
    rw [opened, met]
  obtain ⟨a, _, after, picked, rfl, mem⟩ := yields_pick (σ := σ) offered between
  refine ⟨a, mem, after, picked, ?_⟩
  rw [onOneRolled, if_neg offered, onRoll]
  exact (repair_bind_of_ok rolled).trans (repair_bind_of_ok picked)

end Case

/-- The blocked slots are those behind a call that is made on every tile, and they are the ones from
which the search backwards finds a call, the last one before them. So where some blocked slot was not
executed and the odds are met, unblocking applies, and all it changes is that the call before the drawn
slot waits for the common colour. -/
theorem blocked_unblocks (c : Case) :
    (∀ s, s ∈ c.program.blocked ↔
      c.program.HasSlot s ∧ ∃ k < s.index, c.program.CallsAlways ⟨s.routine, k⟩) ∧
    (∀ s, c.program.HasSlot s →
      (s ∈ c.program.blocked ↔ ∃ caller, c.program.callerBefore? s.routine s.index = some caller)) ∧
    (∀ s caller, c.program.callerBefore? s.routine s.index = some caller ↔
      c.program.LastCallBefore s caller) ∧
    ∀ {σ : Type} [RandomSource σ] (source between : σ),
      (∃ s ∈ c.unexecuted, s ∈ c.program.blocked) →
      RandomSource.happens (c.chance .genericUnblockCall) source = (true, between) →
      ∃ s caller r copy after, s ∈ c.unexecuted ∧ s ∈ c.program.blocked ∧
        Case.pick (c.unexecuted.filter c.program.blocked.contains) c.program between =
          (.ok (s, c.program), after) ∧
        c.program.LastCallBefore s caller ∧ c.program.at? caller = some ⟨.call r, none⟩ ∧
        Strategy.genericUnblockCall c c.program source = (.ok (true, copy), after) ∧
        copy.lengths = c.program.lengths ∧
        copy.at? caller = some ⟨.call r, some c.commonColor⟩ ∧
        ∀ other, other ≠ caller → copy.at? other = c.program.at? other := by
  refine ⟨fun s => Program.mem_blocked, fun s => Program.mem_blocked_iff_caller,
    fun s caller => Program.callerBefore?_eq_some, ?_⟩
  rintro σ _ source between ⟨t, idle, behind⟩ met
  have offered : ¬ (c.unexecuted.filter c.program.blocked.contains).isEmpty = true := by
    rw [List.isEmpty_iff]
    exact List.ne_nil_of_mem (List.mem_filter.mpr ⟨idle, List.contains_iff_mem.mpr behind⟩)
  obtain ⟨s, mem, after, picked, went⟩ := Case.onOneRolled_apply (p := c.program) offered met _
  obtain ⟨idle, listed⟩ := List.mem_filter.mp mem
  have blocked := List.contains_iff_mem.mp listed
  obtain ⟨has, -⟩ := Program.mem_blocked.mp blocked
  obtain ⟨caller, found⟩ := (Program.mem_blocked_iff_caller has).mp blocked
  have last := Program.callerBefore?_eq_some.mp found
  obtain ⟨r, filled⟩ := last.calls
  have has := Program.hasSlot_of_at? filled
  refine ⟨s, caller, r, c.program.put caller (some ⟨.call r, some c.commonColor⟩), after, idle, blocked,
    picked, last, filled, went.trans ?_, c.program.lengths_put caller _, ?_, fun other apart => ?_⟩
  · refine (repair_bind_of_ok (get_apply c.program after)).trans ?_
    rw [found]
    exact Case.amend_apply filled _ after
  · rw [Program.at?_put _ _ _ _ has, if_pos rfl]
  · rw [Program.at?_put _ _ _ _ has, if_neg apart]

def twoCalls : Program :=
  ⟨⟨[some ⟨.call .f2, none⟩, none, some ⟨.call .f3, some .red⟩, some ⟨.call .f1, none⟩,
    some ⟨.paint .blue, some .green⟩, some ⟨.forward, none⟩], [none], [none], [], []⟩⟩

-- All of the root routine but its last slot was executed, mostly on green.
def upToLast : Case where
  program := twoCalls
  evidence := {
    executed := [0, 1, 2, 3, 4].map (Address.mk "f1") ++ [⟨"f2", 0⟩, ⟨"f3", 0⟩]
    visited := [.green, .red, .green]
    painted := []
    called := ⟨true, true, true, false, false⟩
    boundarySlot := none
    recentForwards := [] }
  config := {}
  policy := {}

theorem unblocks_twoCalls :
    (⟨.f1, 5⟩ ∈ upToLast.unexecuted ∧ ⟨.f1, 5⟩ ∈ twoCalls.blocked) ∧
      ∃ copy after, Strategy.genericUnblockCall upToLast twoCalls (⟨#[0.2], 0, false⟩ : Tape) =
          (.ok (true, copy), after) ∧
        copy.at? ⟨.f1, 3⟩ = some ⟨.call .f1, some .green⟩ ∧
        copy.at? ⟨.f1, 0⟩ = some ⟨.call .f2, none⟩ := by
  have behind : ⟨.f1, 5⟩ ∈ upToLast.unexecuted ∧ ⟨.f1, 5⟩ ∈ upToLast.program.blocked := by
    decide +kernel
  have only : ∀ s ∈ upToLast.unexecuted, s = ⟨.f1, 5⟩ := by
    decide +kernel
  have met : (RandomSource.happens (upToLast.chance .genericUnblockCall)
      (⟨#[0.2], 0, false⟩ : Tape)).1 = true := by
    decide +kernel
  have found : upToLast.program.callerBefore? .f1 5 = some ⟨.f1, 3⟩ := by decide
  obtain ⟨-, -, nearest, unblocks⟩ := blocked_unblocks upToLast
  obtain ⟨s, caller, r, copy, after, idle, -, -, last, filled, ran, -, put, others⟩ :=
    unblocks _ _ ⟨_, behind⟩ (Prod.ext met rfl)
  cases only s idle
  cases found.symm.trans ((nearest ⟨.f1, 5⟩ caller).mpr last)
  cases filled
  exact ⟨behind, copy, after, ran, put, others ⟨.f1, 0⟩ (by decide)⟩

end GridRobot
