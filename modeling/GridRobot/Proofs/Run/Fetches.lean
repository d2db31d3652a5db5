import GridRobot.Proofs.Run.Path
import GridRobot.Proofs.Run.Replay

/-!
The limit on fetches. A stack weighs as many fetches as empty it, so that a search for an instruction
which has not come up within that weight and one pass over the root routine never does. Each executed
call adds at most one routine to the weight, and `execute_stuck_of_capped` concludes that the limit
stops no run that would have gone on.
-/

namespace GridRobot

variable {σ : Type} [RandomSource σ]

namespace CallStack

/-- The fetches that empty the stack if nothing is called: one for each slot to come, and one to take
each routine off. -/
def weight (p : Program) (s : CallStack) : Nat :=
  sum (s.map fun f => (p.body.get f.routine).length - f.next + 1)

theorem weight_cons (p : Program) (f : Frame) (s : CallStack) :
    weight p (f :: s) = (p.body.get f.routine).length - f.next + 1 + s.weight p :=
  rfl

theorem weight_root (p : Program) : weight p root = (p.body.get .f1).length + 1 := by
  simp [root, weight]

theorem weight_next {p : Program} {tile : Option Tile} {s t : CallStack}
    {found : Option (Slot × Instruction)} (filled : s ≠ []) (fetched : s.next p tile = (t, found)) :
    s.weight p = t.weight p + 1 := by
  have rooted : s.rooted = s := by
    cases s with
    | nil => exact absurd rfl filled
    | cons f rest => rfl
  have reads := reads_of_next fetched
  rw [rooted] at reads
  cases reads with
  | spent past =>
    rw [weight_cons]
    omega
  | passed left | found left =>
    simp only [weight_cons]
    omega

/-! ## How far a search goes -/

section Finds

variable {p : Program} {tile : Option Tile} {s t u : CallStack} {m n : Nat} {slot other : Slot}
  {i j : Instruction}

theorem Finds.unique (one : Finds p tile s m t slot i) (two : Finds p tile s n u other j) :
    m = n := by
  induction one generalizing n with
  | here fetched =>
    cases two with
    | here => rfl
    | later passed =>
      rw [fetched] at passed
      cases passed
  | later passed _ ih =>
    cases two with
    | here fetched =>
      rw [passed] at fetched
      cases fetched
    | later again rest =>
      rw [passed] at again
      cases again
      rw [ih rest]

theorem Finds.weight_eq (finds : Finds p tile s n t slot i) (soon : n < s.weight p) :
    s.weight p = t.weight p + (n + 1) := by
  have nonempty {s : CallStack} {n : Nat} (soon : n < s.weight p) : s ≠ [] := by
    rintro rfl
    cases soon
  induction finds with
  | here fetched => exact weight_next (nonempty soon) fetched
  | later passed _ ih =>
    have lighter := weight_next (nonempty soon) passed
    have rest := ih (by omega)
    omega

theorem Finds.of_empty (finds : Finds p tile s n t slot i) (late : s.weight p ≤ n) :
    Finds p tile [] (n - s.weight p) t slot i := by
  induction finds with
  | @here s t slot i fetched =>
    cases s with
    | nil => exact .here fetched
    | cons f rest =>
      rw [weight_cons] at late
      omega
  | @later s between t n slot i passed rest ih =>
    cases s with
    | nil => exact .later passed rest
    | cons f tail =>
      have lighter := weight_next (by rintro ⟨⟩) passed
      have found := ih (by omega)
      rwa [lighter, Nat.add_sub_add_right]

/-- No search goes on after a whole pass over the root routine: it would repeat itself. -/
theorem Finds.weight_le (finds : Finds p tile s n t slot i) :
    t.weight p + (n + 1) ≤ s.weight p + root.weight p := by
  by_cases soon : n < s.weight p
  · have ahead := finds.weight_eq soon
    omega
  have empty := finds.of_empty (Nat.not_lt.mp soon)
  by_cases once : n - s.weight p < root.weight p
  · have pass := empty.of_nil.weight_eq once
    omega
  · -- the stack would be empty a second time, and the same search begin again
    have again := empty.of_nil.of_empty (Nat.not_lt.mp once)
    have same := again.unique empty
    have positive := weight_root p
    omega

end Finds

end CallStack

/-! ## A limit that is high enough -/

def Program.Within (p : Program) (most : Nat) : Prop :=
  ∀ r, (p.body.get r).length ≤ most

theorem Effect.running {rules : Rules} {r next : Run} {slot : Slot} {action : Action}
    {drawn : Option Color} {most : Nat} (within : rules.program.Within most)
    (effect : Effect rules r slot action drawn (.running next)) :
    next.trace.steps = r.trace.steps ∧
      next.stack.weight rules.program ≤ r.stack.weight rules.program + (most + 1) := by
  generalize went : Progress.running next = progress at effect
  cases effect with
  | boundary => cases went
  | move | pave | turn =>
    obtain ⟨-, rfl⟩ := Run.unlessBack_eq_running went.symm
    exact ⟨rfl, Nat.le_add_right _ _⟩
  | call callee =>
    cases went
    refine ⟨rfl, ?_⟩
    have short := within callee
    simp only [Run.call, CallStack.weight_cons]
    omega
  | paint c =>
    cases went
    obtain ⟨world, visited, painted, same, -⟩ := Run.paint_frame rules r slot c
    rw [same]
    exact ⟨rfl, Nat.le_add_right _ _⟩
  | noop | other =>
    cases went
    exact ⟨rfl, Nat.le_add_right _ _⟩

theorem Dispatch.running {rules : Rules} {r next : Run} {slot : Slot} {i : Instruction}
    {drawn : Option Color} {most : Nat} (within : rules.program.Within most)
    (dispatched : Dispatch rules r slot i drawn (.running next)) :
    next.trace.steps = r.trace.steps + 1 ∧
      next.stack.weight rules.program ≤ r.stack.weight rules.program + (most + 1) := by
  cases dispatched with
  | act _ effect =>
    obtain ⟨steps, lighter⟩ := effect.running within
    exact ⟨steps.trans (Trace.steps_record _ _ _ _), lighter⟩

namespace Run

theorem finish_of_stalls {rules : Rules} {r : Run}
    (stalls : ∀ n t slot i, ¬ r.stack.Finds rules.program r.trace.here n t slot i) (n : Nat)
    (source : σ) : finish rules n r source = (r.trace, source) := by
  induction n generalizing r with
  | zero => rfl
  | succ n ih =>
    by_cases past : rules.config.maxSteps ≤ r.trace.steps
    · exact finish_spent past
    cases fetched : r.stack.next rules.program r.trace.here with
    | mk stack found =>
      cases found with
      | some found => exact absurd (.here fetched) (stalls 0 stack found.1 found.2)
      | none =>
        rw [finish_passed (Nat.not_le.mp past) fetched]
        exact ih fun n t slot i finds => stalls (n + 1) t slot i (.later fetched finds)

def afterwards (rules : Rules) (n : Nat) : Progress → StateM σ Trace
  | .running r => finish rules n r
  | .ended t => pure t

theorem finish_of_finds {rules : Rules} {r : Run} {n k : Nat} {t : CallStack} {slot : Slot}
    {i : Instruction} {source between : σ} {progress : Progress}
    (left : r.trace.steps < rules.config.maxSteps)
    (finds : r.stack.Finds rules.program r.trace.here k t slot i)
    (dispatched : dispatch rules { r with stack := t } slot i source = (progress, between)) :
    finish rules (n + 1 + k) r source = afterwards rules n progress between := by
  obtain ⟨trace, entry, departed, stack⟩ := r
  dsimp only at left finds dispatched
  induction finds with
  | @here s t slot i fetched =>
    rw [Nat.add_zero, finish_dispatch (r := ⟨trace, entry, departed, s⟩) left fetched dispatched]
    cases progress <;> rfl
  | @later s between t k slot i fetched _ ih =>
    rw [← Nat.add_assoc, finish_passed (r := ⟨trace, entry, departed, s⟩) left fetched]
    exact ih dispatched

/-- Twice the longest routine for each step that is left are fetches enough: a run that spends them and
is not spent itself is stuck. -/
theorem finish_add_of_enough {rules : Rules} {most : Nat} (within : rules.program.Within most)
    {r : Run} {n steps : Nat} {source after : σ} {t : Trace}
    (budget : rules.config.maxSteps = r.trace.steps + steps)
    (enough : r.stack.weight rules.program + 2 * steps * (most + 1) ≤ n + (most + 1))
    (ran : finish rules n r source = (t, after)) (completed : t.terminal = .completed)
    (unspent : t.steps < rules.config.maxSteps) (more : Nat) :
    finish rules (n + more) r source = (t, after) := by
  -- on the steps that are left, each of which brings two shares for its search and its call
  induction steps generalizing r n source with
  | zero =>
    rw [finish_spent (Nat.le_of_eq budget)] at ran
    cases ran
    omega
  | succ steps ih =>
    by_cases comes : ∃ k stack slot i, r.stack.Finds rules.program r.trace.here k stack slot i
    · obtain ⟨k, stack, slot, i, finds⟩ := comes
      -- one of the step's two shares pays for a pass over the root routine, the other for its call
      have reach := finds.weight_le
      rw [CallStack.weight_root] at reach
      have root := within .f1
      rw [Nat.mul_add 2 steps 1, Nat.add_mul] at enough
      obtain ⟨rest, rfl⟩ : ∃ rest, n = rest + 1 + k := ⟨n - (1 + k), by omega⟩
      have left : r.trace.steps < rules.config.maxSteps := by omega
      cases dispatched : dispatch rules { r with stack } slot i source with
      | mk progress between =>
        rw [show rest + 1 + k + more = rest + more + 1 + k by omega]
        rw [finish_of_finds left finds dispatched] at ran ⊢
        obtain ⟨drawn, known, -⟩ := dispatch_iff.mp dispatched
        cases progress with
        | running next =>
          obtain ⟨counted, lighter⟩ := known.running within
          dsimp only at counted lighter
          exact ih (by omega) (by omega) ran
        | ended u =>
          cases ran
          rcases known.ended with early | boundary | ⟨loop, -⟩
          · rw [early] at completed
            cases completed
          · rw [boundary] at completed
            cases completed
          · rw [loop] at completed
            cases completed
    · have stalls k stack slot i (finds : r.stack.Finds rules.program r.trace.here k stack slot i) :=
        comes ⟨k, stack, slot, i, finds⟩
      rw [finish_of_stalls stalls] at ran ⊢
      exact ran

end Run

theorem Program.within_of_lengths {p : Program} {c : Config} (valid : c.Valid)
    (sized : p.lengths = c.slotsPerRoutine) : p.Within Config.maxSlots := by
  intro r
  have bound := valid.slots r
  rw [← sized] at bound
  simpa [Program.lengths] using bound

/-- A run that only the limit on fetches stops is stuck: however many fetches it were given beyond the
limit, it would execute nothing more. -/
theorem execute_stuck_of_capped (c : Config) (valid : c.Valid) (p : Program)
    (sized : p.lengths = c.slotsPerRoutine) (s : Setting) (suppressed : Slot → Bool)
    {source after : σ} {t : Trace} (ran : execute p c s suppressed source = (.ok t, after))
    (completed : t.terminal = .completed) (unspent : t.steps < c.maxSteps) :
    ∃ begun, Trace.begin? (s.prepare c source).1.1 (s.prepare c source).1.2 = some begun ∧
      ∀ more, Run.finish ⟨p, c, suppressed, s.window⟩ (c.maxSteps * Run.fetchesPerStep + more)
        { trace := begun } (s.prepare c source).2 = (t, after) := by
  obtain ⟨begun, log, begins, logged⟩ := runFrom?_eq_some.mp (execute_eq_ok.mp ran)
  refine ⟨begun, begins, fun more => ?_⟩
  have budget : c.maxSteps = begun.steps + c.maxSteps := by
    obtain ⟨tile, here, rfl⟩ := Trace.begin?_eq_some begins
    exact (Nat.zero_add _).symm
  have within := Program.within_of_lengths valid sized
  refine Run.finish_add_of_enough (r := { trace := begun }) within budget ?_ logged.finish_eq
    completed unspent more
  have root := within .f1
  have steps := valid.steps
  simp only [CallStack.weight_root, Run.fetchesPerStep, Config.maxSlots] at root ⊢
  omega

def redCell : Setting where
  grid := some ⟨1, 1, #v[#v[some ⟨some .red, false⟩]]⟩
  start := some ⟨⟨0, 0⟩, .up⟩

def waitForRed : Program :=
  ⟨⟨[some ⟨.paint .green, some .red⟩, some ⟨.forward, some .red⟩], [], [], [], []⟩⟩

def twoSlots : Config where
  slotsPerRoutine := ⟨2, 0, 0, 0, 0⟩
  maxSteps := 2
  maxAverageExecutions := 1000

theorem execute_stuck_waitForRed :
    ∃ t after, execute waitForRed twoSlots redCell (fun _ => false) (⟨#[0.5], 0, false⟩ : Tape) =
        (.ok t, after) ∧ t.terminal = .completed ∧ t.steps < twoSlots.maxSteps ∧
      ∃ begun, Trace.begin? (redCell.prepare twoSlots (⟨#[0.5], 0, false⟩ : Tape)).1.1
          (redCell.prepare twoSlots (⟨#[0.5], 0, false⟩ : Tape)).1.2 = some begun ∧
        ∀ more, Run.finish ⟨waitForRed, twoSlots, fun _ => false, redCell.window⟩
          (twoSlots.maxSteps * Run.fetchesPerStep + more) { trace := begun }
            (redCell.prepare twoSlots (⟨#[0.5], 0, false⟩ : Tape)).2 = (t, after) := by
  have evaluated : (execute waitForRed twoSlots redCell (fun _ => false)
      (⟨#[0.5], 0, false⟩ : Tape)).1.toOption.any (fun t =>
        decide (t.terminal = .completed ∧ t.steps < twoSlots.maxSteps)) = true := by
    decide +kernel
  obtain ⟨t, after, ran, tested⟩ := exists_ok_of_any evaluated
  obtain ⟨completed, unspent⟩ := of_decide_eq_true tested
  have stuck := execute_stuck_of_capped twoSlots (by decide) waitForRed rfl redCell
    (fun _ => false) ran completed unspent
  exact ⟨t, after, ran, completed, unspent, stuck⟩

end GridRobot
