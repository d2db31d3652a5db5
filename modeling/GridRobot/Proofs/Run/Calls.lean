import Mathlib.Data.List.Chain
import Mathlib.Order.Bounds.Basic
import GridRobot.Proofs.Run.Reach
import GridRobot.Proofs.Run.Summary

/-!
Calls. The routine at the bottom of a call stack is the root, and every other one is called by the slot
that its caller has just read (`CallStack.Disciplined`). Which routines are under way is also a matter
of what has been executed: `CallStack.Follows` adds that a slot executed earlier has called them.
-/

namespace GridRobot

def Frame.Calls (f : Frame) (p : Program) (callee : Routine) : Prop :=
  ∃ index, f.next = index + 1 ∧ p.calls callee ⟨f.routine, index⟩ = true

structure CallStack.Disciplined (s : CallStack) (p : Program) : Prop where
  bottom : ∀ f, s.getLast? = some f → f.routine = .f1
  within : ∀ f ∈ s, f.next ≤ (p.body.get f.routine).length
  linked : s.IsChain fun upper lower => lower.Calls p upper.routine

def Program.Enters (p : Program) (done : List Slot) (r : Routine) : Prop :=
  r = .f1 ∨ ∃ caller ∈ done, p.calls r caller = true

def Program.EntersFirst (p : Program) (done : List Slot) : Prop :=
  ∀ before slot later, done = before ++ slot :: later → p.Enters before slot.routine

/-- A stack to which executing these slots can have led. -/
structure CallStack.Follows (s : CallStack) (p : Program) (done : List Slot) : Prop
    extends s.Disciplined p where
  entered : ∀ f ∈ s, p.Enters done f.routine

/-! ## One fetch -/

namespace CallStack

theorem length_next {p : Program} {tile : Option Tile} {s t : CallStack}
    {found : Option (Slot × Instruction)} (fetched : s.next p tile = (t, found)) :
    t.length ≤ max 1 s.length := by
  have rooted : s.rooted.length ≤ max 1 s.length := by
    cases s with
    | nil => exact Nat.le_refl 1
    | cons f rest => exact Nat.le_max_right _ _
  refine Nat.le_trans ?_ rooted
  have reads := reads_of_next fetched
  generalize s.rooted = u at reads
  cases reads with
  | spent => exact Nat.le_succ _
  | passed | found => exact Nat.le_refl _

inductive Acted : Action → CallStack → CallStack → Prop
  | call (callee : Routine) (s : CallStack) : Acted (.call callee) s (⟨callee, 0⟩ :: s)
  | other {action : Action} (s : CallStack) (calls : action.isCall = false) : Acted action s s

theorem Acted.length {action : Action} {s t : CallStack} (acted : Acted action s t) :
    t.length = s.length + if action.isCall then 1 else 0 := by
  cases acted with
  | call => rfl
  | other _ calls => simp [calls]

end CallStack

theorem Program.Enters.mono {p : Program} {done more : List Slot} {r : Routine}
    (enters : p.Enters done r) (within : done ⊆ more) : p.Enters more r :=
  enters.imp_right fun ⟨caller, mem, calls⟩ => ⟨caller, within mem, calls⟩

theorem Program.EntersFirst.concat {p : Program} {done : List Slot} {slot : Slot}
    (first : p.EntersFirst done) (enters : p.Enters done slot.routine) :
    p.EntersFirst (done ++ [slot]) := by
  intro before later rest split
  rcases List.append_eq_append_iff.mp split with ⟨more, rfl, last⟩ | ⟨more, rfl, last⟩
  · cases more with
    | nil =>
      cases last
      rwa [List.append_nil]
    | cons => simp at last
  · cases more with
    | nil =>
      cases last
      rwa [List.append_nil] at enters
    | cons head tail =>
      cases last
      exact first before later tail rfl

namespace CallStack.Follows

variable {p : Program} {tile : Option Tile} {s t : CallStack} {done : List Slot}

theorem root (p : Program) : root.Follows p [] where
  bottom f last := by
    cases last
    rfl
  within := by simp [CallStack.root]
  linked := .singleton _
  entered := by simp [CallStack.root, Program.Enters]

theorem suffix (follows : s.Follows p done) (below : t <:+ s) : t.Follows p done where
  bottom f last := by
    obtain ⟨above, rfl⟩ := below
    exact follows.bottom f (by rw [List.getLast?_append, last]; rfl)
  within f mem := follows.within f (below.subset mem)
  linked := follows.linked.suffix below
  entered f mem := follows.entered f (below.subset mem)

theorem mono {more : List Slot} (follows : s.Follows p done) (within : done ⊆ more) :
    s.Follows p more where
  toDisciplined := follows.toDisciplined
  entered f mem := (follows.entered f mem).mono within

theorem rooted (follows : s.Follows p done) : s.rooted.Follows p done := by
  cases s with
  | nil => exact (root p).mono (List.nil_subset _)
  | cons f rest => exact follows

theorem read {f : Frame} {rest : CallStack} (follows : Follows (f :: rest) p done)
    (left : f.next < (p.body.get f.routine).length) :
    Follows ({ f with next := f.next + 1 } :: rest) p done where
  bottom g last := by
    cases rest with
    | nil =>
      cases last
      exact follows.bottom f rfl
    | cons => exact follows.bottom g last
  within := List.forall_mem_cons.mpr ⟨left, (List.forall_mem_cons.mp follows.within).2⟩
  linked := by
    have linked := follows.linked
    rw [List.isChain_cons] at linked ⊢
    exact linked
  entered := List.forall_mem_cons.mpr (List.forall_mem_cons.mp follows.entered)

theorem call {f : Frame} {rest : CallStack} {callee : Routine} (follows : Follows (f :: rest) p done)
    (calls : f.Calls p callee) (enters : p.Enters done callee) :
    Follows (⟨callee, 0⟩ :: f :: rest) p done where
  bottom := follows.bottom
  within := List.forall_mem_cons.mpr ⟨Nat.zero_le _, follows.within⟩
  linked := .cons_cons calls follows.linked
  entered := List.forall_mem_cons.mpr ⟨enters, follows.entered⟩

theorem next {found : Option (Slot × Instruction)} (follows : s.Follows p done)
    (fetched : s.next p tile = (t, found)) : t.Follows p done := by
  have rooted := follows.rooted
  have reads := reads_of_next fetched
  generalize s.rooted = u at reads rooted
  cases reads with
  | spent => exact rooted.suffix (List.suffix_cons _ _)
  | passed left | found left => exact rooted.read left

theorem enters {slot : Slot} {i : Instruction} (follows : s.Follows p done)
    (fetched : s.next p tile = (t, some (slot, i))) : p.Enters done slot.routine := by
  have rooted := follows.rooted
  have reads := reads_of_next fetched
  generalize s.rooted = u at reads rooted
  cases reads with
  | found => exact rooted.entered _ List.mem_cons_self

theorem act {slot : Slot} {i : Instruction} {u : CallStack} (follows : s.Follows p done)
    (fetched : s.next p tile = (t, some (slot, i))) (acted : Acted i.action t u) :
    u.Follows p (done ++ [slot]) := by
  have after := (follows.next fetched).mono (List.subset_append_left done [slot])
  have reads := reads_of_next fetched
  generalize s.rooted = from_ at reads
  cases reads with
  | @found f rest i left filled =>
    generalize action : i.action = action at acted
    cases acted with
    | other => exact after
    | call callee =>
      have calls : p.calls callee ⟨f.routine, f.next⟩ = true := by
        simp [Program.calls, filled, action]
      exact after.call ⟨f.next, rfl, calls⟩ (.inr ⟨_, by simp, calls⟩)

end CallStack.Follows

/-! ## Runs -/

section Step

variable {rules : Rules} {r next : Run} {slot : Slot} {drawn : Option Color} {t : Trace}

theorem Effect.stack {action : Action}
    (effect : Effect rules r slot action drawn (.running next)) :
    CallStack.Acted action r.stack next.stack ∧
      next.trace.stackDepth =
        if action.isCall then max r.trace.stackDepth next.stack.length else r.trace.stackDepth := by
  generalize went : Progress.running next = progress at effect
  cases effect with
  | boundary => cases went
  | move | pave | turn =>
    obtain ⟨-, rfl⟩ := Run.unlessBack_eq_running went.symm
    exact ⟨.other _ rfl, rfl⟩
  | call callee =>
    cases went
    exact ⟨.call callee _, rfl⟩
  | paint c =>
    cases went
    obtain ⟨world, visited, painted, same, -⟩ := Run.paint_frame rules r slot c
    rw [same]
    exact ⟨.other _ rfl, rfl⟩
  | noop | other =>
    cases went
    exact ⟨.other _ rfl, rfl⟩

theorem Effect.stackDepth_ended {action : Action}
    (effect : Effect rules r slot action drawn (.ended t)) : t.stackDepth = r.trace.stackDepth := by
  generalize ended : Progress.ended t = progress at effect
  cases effect with
  | boundary =>
    cases ended
    rfl
  | move | pave | turn =>
    obtain ⟨-, rfl⟩ := Run.unlessBack_eq_ended ended.symm
    rfl
  | call | paint | noop | other => cases ended

theorem Dispatch.stack {i : Instruction} (dispatched : Dispatch rules r slot i drawn (.running next)) :
    CallStack.Acted i.action r.stack next.stack ∧
      next.trace.stackDepth =
        if i.action.isCall then max r.trace.stackDepth next.stack.length
        else r.trace.stackDepth := by
  cases dispatched with
  | act _ effect =>
    have acted := effect.stack
    rwa [Trace.stackDepth_record] at acted

theorem Dispatch.stackDepth_ended {i : Instruction}
    (dispatched : Dispatch rules r slot i drawn (.ended t)) :
    t.stackDepth = r.trace.stackDepth := by
  have recorded := Trace.stackDepth_record r.trace slot i r.departed
  cases dispatched with
  | earlyExit => exact recorded
  | act _ effect => exact effect.stackDepth_ended.trans recorded

end Step

structure Run.Deep (r : Run) : Prop where
  positive : 1 ≤ r.trace.stackDepth
  within : r.stack.length ≤ r.trace.stackDepth

namespace Run

variable {σ : Type} [RandomSource σ] {rules : Rules} {r next : Run} {source after : σ} {t : Trace}

theorem Deep.fetch {stack : CallStack} {found : Option (Slot × Instruction)} (deep : r.Deep)
    (fetched : r.stack.next rules.program r.trace.here = (stack, found)) :
    Deep { r with stack } where
  positive := deep.positive
  within := Nat.le_trans (CallStack.length_next fetched) (Nat.max_le.mpr ⟨deep.positive, deep.within⟩)

theorem Deep.dispatch {slot : Slot} {i : Instruction} {drawn : Option Color} (deep : r.Deep)
    (dispatched : Dispatch rules r slot i drawn (.running next)) :
    next.Deep ∧ next.trace.stackDepth = max r.trace.stackDepth next.stack.length ∧
      next.trace.stackDepth ≤ r.trace.stackDepth + if i.action.isCall then 1 else 0 := by
  obtain ⟨acted, depth⟩ := dispatched.stack
  obtain ⟨positive, within⟩ := deep
  have length := acted.length
  by_cases calls : i.action.isCall = true
  · rw [if_pos calls] at depth length ⊢
    exact ⟨⟨by omega, by omega⟩, depth, by omega⟩
  · rw [if_neg calls] at depth length ⊢
    exact ⟨⟨by omega, by omega⟩, by omega, by omega⟩

theorem Deep.advance (deep : r.Deep) (fetched : r.advance rules source = (.running next, after)) :
    next.Deep ∧ next.trace.stackDepth = max r.trace.stackDepth next.stack.length := by
  rcases advance_cases fetched with
    ⟨stack, found, went, -⟩ | ⟨stack, slot, i, drawn, found, dispatched, -⟩
  · cases went
    have passed := deep.fetch found
    exact ⟨passed, (Nat.max_eq_left passed.within).symm⟩
  · obtain ⟨deeper, depth, -⟩ := (deep.fetch found).dispatch dispatched
    exact ⟨deeper, depth⟩

theorem stackDepth_of_advance (fetched : r.advance rules source = (.ended t, after)) :
    t.stackDepth = r.trace.stackDepth := by
  rcases advance_cases fetched with ⟨stack, -, went, -⟩ | ⟨stack, slot, i, drawn, -, dispatched, -⟩
  · cases went
  · exact dispatched.stackDepth_ended

end Run

section Whole

variable {σ : Type} [RandomSource σ] {rules : Rules} {n : Nat} {r : Run} {source after : σ} {t : Trace}

theorem Fetches.stackDepth {last : Run} (fetches : Fetches rules n r source last after)
    (deep : r.Deep) :
    last.Deep ∧ r.trace.stackDepth ≤ last.trace.stackDepth ∧
      (last.trace.stackDepth = r.trace.stackDepth ∨ ∃ k ≤ n, ∃ deepest between,
        Fetches rules k r source deepest between ∧
          deepest.stack.length = last.trace.stackDepth) := by
  induction fetches with
  | none => exact ⟨deep, Nat.le_refl _, .inl rfl⟩
  | @next n r mid last source middle after left fetched _ ih =>
    obtain ⟨deeper, depth⟩ := deep.advance fetched
    obtain ⟨deepest, grown, reached⟩ := ih deeper
    refine ⟨deepest, by omega, ?_⟩
    rcases reached with same | ⟨k, within, top, between, fetches, height⟩
    · rcases Nat.le_total mid.stack.length r.trace.stackDepth with covered | above
      · exact .inl (by omega)
      · exact .inr ⟨1, Nat.succ_pos _, mid, middle, .next left fetched (.none _ _), by omega⟩
    · exact .inr ⟨k + 1, Nat.succ_le_succ within, top, between, .next left fetched fetches, height⟩

theorem Run.stackDepth_of_finish (ran : finish rules n r source = (t, after)) :
    ∃ k ≤ n, ∃ last between, Fetches rules k r source last between ∧
      t.stackDepth = last.trace.stackDepth := by
  cases ends_of_finish ran with
  | unstopped within fetches => exact ⟨_, within, _, _, fetches, rfl⟩
  | stopped within fetches _ fetched =>
    exact ⟨_, Nat.le_of_lt within, _, _, fetches, stackDepth_of_advance fetched⟩

theorem Run.isGreatest_stackDepth (ran : finish rules n r source = (t, after)) (deep : r.Deep)
    (full : r.stack.length = r.trace.stackDepth) :
    IsGreatest {depth | ∃ k ≤ n, ∃ reached between, Fetches rules k r source reached between ∧
      reached.stack.length = depth} t.stackDepth := by
  constructor
  · obtain ⟨k, within, last, between, fetches, same⟩ := stackDepth_of_finish ran
    rcases (fetches.stackDepth deep).2.2 with start | ⟨j, before, deepest, middle, fetches, height⟩
    · exact ⟨0, Nat.zero_le n, r, source, .none _ _, by omega⟩
    · exact ⟨j, Nat.le_trans before within, deepest, middle, fetches, by omega⟩
  · rintro depth ⟨k, within, reached, between, fetches, rfl⟩
    -- what is left of the run goes on from there, and the depth on record only grows
    obtain ⟨rest, rfl⟩ := Nat.exists_eq_add_of_le' within
    rw [fetches.finish_eq] at ran
    have deeper := (fetches.stackDepth deep).1
    obtain ⟨j, -, last, middle, later, same⟩ := stackDepth_of_finish ran
    have grown := (later.stackDepth deeper).2.1
    exact Nat.le_trans deeper.within (by omega)

theorem Logged.stackDepth_le {origin : CallStack} {skipped : Nat} {log : List Event}
    (logged : Logged rules n origin skipped r source log t after) (deep : r.Deep) :
    t.stackDepth ≤ r.trace.stackDepth + log.countP (·.instruction.action.isCall) := by
  induction logged with
  | exhausted | spent => exact Nat.le_add_right _ _
  | passed _ found _ ih => exact ih (deep.fetch found)
  | ended _ _ dispatched =>
    rw [dispatched.stackDepth_ended]
    exact Nat.le_add_right _ _
  | executed _ found dispatched _ _ ih =>
    obtain ⟨deeper, -, more⟩ := (deep.fetch found).dispatch dispatched
    have rest := ih deeper
    rw [List.countP_cons]
    dsimp only at more ⊢
    omega

end Whole

/-! ## The routines of a run -/

section Routines

variable {σ : Type} [RandomSource σ] {rules : Rules} {n : Nat} {r : Run} {source after : σ}

theorem Run.follows_of_advance {next : Run} {done : List Slot}
    (fetched : r.advance rules source = (.running next, after))
    (follows : r.stack.Follows rules.program done) :
    ∃ done, next.stack.Follows rules.program done := by
  rcases advance_cases fetched with
    ⟨stack, found, went, -⟩ | ⟨stack, slot, i, drawn, found, dispatched, -⟩
  · cases went
    exact ⟨done, follows.next found⟩
  · exact ⟨_, follows.act found dispatched.stack.1⟩

theorem Fetches.disciplined {last : Run} {done : List Slot}
    (fetches : Fetches rules n r source last after) (follows : r.stack.Follows rules.program done) :
    last.stack.Disciplined rules.program := by
  obtain ⟨_, follows⟩ := fetches.maintains (P := fun r => ∃ done, r.stack.Follows rules.program done)
    (fun fetched ⟨_, follows⟩ => Run.follows_of_advance fetched follows) ⟨done, follows⟩
  exact follows.toDisciplined

theorem Logged.follows {origin : CallStack} {skipped : Nat} {log : List Event} {t : Trace}
    {done : List Slot} (logged : Logged rules n origin skipped r source log t after)
    (follows : r.stack.Follows rules.program done) (first : rules.program.EntersFirst done) :
    (∀ e ∈ log, e.before.stack.Disciplined rules.program) ∧
      rules.program.EntersFirst (done ++ log.map (·.slot)) := by
  induction logged generalizing done with
  | exhausted | spent => exact ⟨List.forall_mem_nil _, (List.append_nil done).symm ▸ first⟩
  | passed _ found _ ih => exact ih (follows.next found) first
  | ended _ found dispatched =>
    exact ⟨List.forall_mem_singleton.mpr (follows.next found).toDisciplined,
      first.concat (follows.enters found)⟩
  | executed _ found dispatched _ _ ih =>
    obtain ⟨disciplined, rest⟩ :=
      ih (follows.act found dispatched.stack.1) (first.concat (follows.enters found))
    rw [List.append_assoc] at rest
    exact ⟨List.forall_mem_cons.mpr ⟨(follows.next found).toDisciplined, disciplined⟩, rest⟩

end Routines

/-- What the calls of a run come to that is given `n` fetches from `r` on. Its stack is in order between
two fetches, and as well while an instruction is executed, which may be the last that is fetched. -/
structure Run.NestsCalls {σ : Type} [RandomSource σ] (rules : Rules) (n : Nat) (r : Run) (source : σ)
    (log : List Event) (t : Trace) : Prop where
  between : ∀ k ≤ n, ∀ reached after, Fetches rules k r source reached after →
    reached.stack.Disciplined rules.program
  during : ∀ e ∈ log, e.before.stack.Disciplined rules.program
  first : rules.program.EntersFirst (log.map (·.slot))
  deepest : IsGreatest {depth | ∃ k ≤ n, ∃ reached after, Fetches rules k r source reached after ∧
    reached.stack.length = depth} t.stackDepth
  positive : 1 ≤ t.stackDepth
  bounded : t.stackDepth ≤ 1 + log.countP (·.instruction.action.isCall)

theorem Logged.nestsCalls {σ : Type} [RandomSource σ] {rules : Rules} {n : Nat} {begun t : Trace}
    {source after : σ} {log : List Event}
    (logged : Logged rules n .root 0 { trace := begun } source log t after)
    (shallow : begun.stackDepth = 1) :
    Run.NestsCalls rules n { trace := begun } source log t := by
  have follows := CallStack.Follows.root rules.program
  have deep : Run.Deep { trace := begun } := ⟨Nat.le_of_eq shallow.symm, Nat.le_of_eq shallow.symm⟩
  obtain ⟨during, first⟩ := logged.follows follows (by simp [Program.EntersFirst])
  have deepest := Run.isGreatest_stackDepth logged.finish_eq deep shallow.symm
  refine ⟨fun _ _ _ _ fetches => fetches.disciplined follows, during, first, deepest, ?_, ?_⟩
  · exact deepest.2 ⟨0, Nat.zero_le n, _, source, .none _ _, rfl⟩
  · rw [← shallow]
    exact logged.stackDepth_le deep

end GridRobot
