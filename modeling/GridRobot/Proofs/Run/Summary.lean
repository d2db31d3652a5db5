import GridRobot.Proofs.Run.Course
import GridRobot.Proofs.Run.Reach

/-!
What a trace sums up. All that a run counts and lists is a function of the slots that it executed, in
order. Steps, executions and conditionals are recorded first (`Trace.Tallies`); calls, moves and
forwards only as the instruction takes effect (`Trace.Reflects`), which it does not if with its record
the run has seen enough.
-/

namespace GridRobot

theorem eraseDups_concat [BEq α] [LawfulBEq α] (xs : List α) (a : α) :
    (xs ++ [a]).eraseDups = xs.eraseDups ++ if xs.contains a then [] else [a] := by
  rw [List.eraseDups_append]
  by_cases mem : a ∈ xs <;> simp [List.removeAll, mem, List.eraseDups_cons]

theorem lastOf_concat (n : Nat) (xs : List α) (a : α) :
    lastOf n (lastOf n xs ++ [a]) = lastOf n (xs ++ [a]) := by
  have within : xs.length - n ≤ xs.length := Nat.sub_le _ _
  simp only [lastOf]
  rw [← List.drop_append_of_le_length within, List.drop_drop]
  congr 1
  simp only [List.length_drop, List.length_append, List.length_singleton]
  omega

/-! ## Slots by what they hold -/

namespace Program

variable (p : Program)

def isConditional (s : Slot) : Bool :=
  (p.at? s).any fun i => i.condition.isSome

def isForward (s : Slot) : Bool :=
  (p.at? s).any fun i => i.action == .forward

def calls (callee : Routine) (s : Slot) : Bool :=
  (p.at? s).any fun i => i.action == .call callee

def callsItself (s : Slot) : Bool :=
  p.calls s.routine s

end Program

/-! ## What is recorded -/

/-- The trace has recorded these slots, one after the other. -/
structure Trace.Tallies (t : Trace) (p : Program) (log : List Slot) : Prop where
  steps : t.steps = log.length
  filled : ∀ s ∈ log, (p.at? s).isSome = true
  order : t.executed.keys = log.eraseDups
  counts : ∀ s, (t.executed.get? s).getD 0 = log.count s
  conditional : t.conditional.keys = t.executed.keys.filter p.isConditional

namespace Trace.Tallies

variable {t u : Trace} {p : Program} {log : List Slot} {slot : Slot} {i : Instruction}

theorem congr (tallies : t.Tallies p log) (steps : u.steps = t.steps)
    (executed : u.executed = t.executed) (conditional : u.conditional = t.conditional) :
    u.Tallies p log where
  steps := steps.trans tallies.steps
  filled := tallies.filled
  order := by rw [executed]; exact tallies.order
  counts := by rw [executed]; exact tallies.counts
  conditional := by rw [executed, conditional]; exact tallies.conditional

theorem record (tallies : t.Tallies p log) (filled : p.at? slot = some i)
    (departed : List Position) : (t.record slot i departed).Tallies p (log ++ [slot]) where
  steps := by simp [tallies.steps]
  filled s mem := by
    rcases List.mem_append.mp mem with before | now
    · exact tallies.filled s before
    · rw [List.mem_singleton.mp now, filled]
      rfl
  order := by
    rw [executed_record, ArrivalMap.keys_alter, tallies.order, eraseDups_concat]
    by_cases mem : slot ∈ log <;> simp [mem]
  counts s := by
    rw [executed_record, ArrivalMap.get?_alter, List.count_append, List.count_singleton]
    by_cases same : s = slot
    · subst same
      simp [tallies.counts]
    · have other : slot ≠ s := fun e => same e.symm
      simp [same, other, tallies.counts]
  conditional := by
    have waits : p.isConditional slot = i.condition.isSome := by
      simp [Program.isConditional, filled]
    rw [conditional_record, executed_record, ArrivalMap.keys_alter]
    -- a slot on record was listed among the conditional ones when it was first executed
    cases condition : i.condition.isSome with
    | true =>
      rw [condition] at waits
      by_cases mem : slot ∈ t.executed.keys <;>
        simp [ArrivalMap.insert, tallies.conditional, mem, waits]
    | false =>
      rw [condition] at waits
      by_cases mem : slot ∈ t.executed.keys <;> simp [tallies.conditional, mem, waits]

end Trace.Tallies

/-! ## What takes effect -/

/-- These slots have taken effect, one after the other. -/
structure Trace.Reflects (t : Trace) (p : Program) (window : Nat) (dispatched : List Slot) : Prop where
  selfCalls : t.selfCalls.keys = (dispatched.filter p.callsItself).eraseDups
  called : ∀ r, t.called.get r = true ↔ r = .f1 ∨ ∃ s ∈ dispatched, p.calls r s = true
  begun : 1 ≤ t.path.size
  /-- A forward out of the world adds nothing to the path. -/
  pathLength : t.pathLength + (if t.terminal = .boundary then 1 else 0) =
    (dispatched.filter p.isForward).length
  recent : t.recentForwards = lastOf window (dispatched.filter p.isForward)

namespace Trace.Reflects

variable {t u : Trace} {p : Program} {window : Nat} {dispatched : List Slot} {slot : Slot}

theorem congr (reflects : t.Reflects p window dispatched) (selfCalls : u.selfCalls = t.selfCalls)
    (called : u.called = t.called) (path : u.path = t.path)
    (inside : u.terminal = .boundary ↔ t.terminal = .boundary)
    (recent : u.recentForwards = t.recentForwards) : u.Reflects p window dispatched where
  selfCalls := by rw [selfCalls]; exact reflects.selfCalls
  called := by rw [called]; exact reflects.called
  begun := by rw [path]; exact reflects.begun
  pathLength := by
    simp only [Trace.pathLength, path, inside]
    exact reflects.pathLength
  recent := recent.trans reflects.recent

theorem still (reflects : t.Reflects p window dispatched) (forward : p.isForward slot = false)
    (call : ∀ callee, p.calls callee slot = false) :
    t.Reflects p window (dispatched ++ [slot]) where
  selfCalls := by
    have plain : p.callsItself slot = false := call slot.routine
    rw [reflects.selfCalls]
    simp [plain]
  called r := by
    rw [reflects.called]
    simp [call]
  begun := reflects.begun
  pathLength := by
    rw [reflects.pathLength]
    simp [forward]
  recent := by
    rw [reflects.recent]
    simp [forward]

theorem forward (reflects : t.Reflects p window dispatched) (going : t.terminal ≠ .boundary)
    (forward : p.isForward slot = true) (call : ∀ callee, p.calls callee slot = false)
    (selfCalls : u.selfCalls = t.selfCalls) (called : u.called = t.called)
    (path : u.path.size + (if u.terminal = .boundary then 1 else 0) = t.path.size + 1)
    (recent : u.recentForwards = lastOf window (t.recentForwards ++ [slot])) :
    u.Reflects p window (dispatched ++ [slot]) where
  selfCalls := by
    have plain : p.callsItself slot = false := call slot.routine
    rw [selfCalls, reflects.selfCalls]
    simp [plain]
  called r := by
    rw [called, reflects.called]
    simp [call]
  begun := by
    have begun := reflects.begun
    split at path <;> omega
  pathLength := by
    have begun := reflects.begun
    have before := reflects.pathLength
    rw [if_neg going] at before
    rw [List.filter_append, List.filter_cons_of_pos forward, List.filter_nil, List.length_append,
      ← before]
    simp only [Trace.pathLength, List.length_singleton]
    split at path <;> simp only [*, if_true, if_false] <;> omega
  recent := by
    rw [recent, reflects.recent, lastOf_concat, List.filter_append,
      List.filter_cons_of_pos forward, List.filter_nil]

end Trace.Reflects

theorem Run.reflects_call {r : Run} {slot : Slot} {callee : Routine} {p : Program} {window : Nat}
    {dispatched : List Slot} (reflects : r.trace.Reflects p window dispatched)
    (forward : p.isForward slot = false)
    (calls : ∀ other, p.calls other slot = true ↔ other = callee) :
    (r.call slot callee).trace.Reflects p window (dispatched ++ [slot]) where
  selfCalls := by
    have own : p.callsItself slot = true ↔ slot.routine = callee := calls slot.routine
    by_cases same : slot.routine = callee
    · rw [List.filter_append, List.filter_cons_of_pos (own.mpr same), List.filter_nil,
        eraseDups_concat, ← reflects.selfCalls]
      simp only [call, same, if_true, ArrivalMap.insert, ArrivalMap.keys_alter]
      rw [reflects.selfCalls]
      by_cases mem : slot ∈ dispatched.filter p.callsItself <;> simp_all
    · rw [List.filter_append, List.filter_cons_of_neg (mt own.mp same), List.filter_nil,
        List.append_nil, ← reflects.selfCalls]
      simp [call, same]
  called other := by
    have before := reflects.called other
    simp only [call, PerRoutine.get_set]
    by_cases same : other = callee
    · simp [same, (calls callee).mpr rfl]
    · have apart : p.calls other slot = false := Bool.eq_false_iff.mpr (mt (calls other).mp same)
      simp [same, before, apart]
  begun := reflects.begun
  pathLength := by
    refine reflects.pathLength.trans ?_
    simp [forward]
  recent := by
    refine reflects.recent.trans ?_
    simp [forward]

theorem Run.exists_terminal (r : Run) (c : Config) {t : Trace} (going : t.terminal = .completed) :
    ∃ terminal, terminal ≠ .boundary ∧ (r.unlessBack c t).trace = { t with terminal } := by
  rcases r.unlessBack_cases c t with goes | ⟨-, back⟩
  · exact ⟨.completed, nofun, by rw [goes, ← going]; rfl⟩
  · exact ⟨.loop, nofun, by rw [back]; rfl⟩

theorem Run.reflects_arrive {rules : Rules} {r : Run} {t : Trace} {slot : Slot} {p : Program}
    {dispatched : List Slot} (reflects : t.Reflects p rules.window dispatched)
    (going : t.terminal = .completed) (forward : p.isForward slot = true)
    (call : ∀ callee, p.calls callee slot = false) (selfCalls : r.trace.selfCalls = t.selfCalls)
    (called : r.trace.called = t.called) (path : r.trace.path = t.path)
    (terminal : r.trace.terminal = t.terminal)
    (recent : r.trace.recentForwards = lastOf rules.window (t.recentForwards ++ [slot]))
    (target : Position) :
    (r.arrive rules target).trace.Reflects p rules.window (dispatched ++ [slot]) := by
  have before : t.terminal ≠ .boundary := by
    rw [going]
    nofun
  unfold arrive
  dsimp only
  obtain ⟨terminal, inside, same⟩ := exists_terminal { r with entry := some r.trace.final.heading }
    rules.config (t := r.trace.moveTo target
      (r.entry.any fun entry => entry.isQuarterTurn r.trace.final.heading)) (terminal.trans going)
  rw [same]
  refine reflects.forward before forward call selfCalls called ?_ recent
  rw [if_neg inside, ← path]
  exact Array.size_push _

theorem Effect.reflects {rules : Rules} {r : Run} {slot : Slot} {i : Instruction}
    {drawn : Option Color} {progress : Progress} {p : Program} {dispatched : List Slot}
    (effect : Effect rules r slot i.action drawn progress) (filled : p.at? slot = some i)
    (going : r.trace.terminal = .completed)
    (reflects : r.trace.Reflects p rules.window dispatched) :
    progress.trace.Reflects p rules.window (dispatched ++ [slot]) := by
  have forward : p.isForward slot = (i.action == .forward) := by simp [Program.isForward, filled]
  have call (callee : Routine) : p.calls callee slot = (i.action == .call callee) := by
    simp [Program.calls, filled]
  generalize i.action = action at effect forward call
  cases effect with
  | boundary =>
    refine reflects.forward ?_ forward call rfl rfl rfl rfl
    rw [going]
    decide
  | move =>
    exact Run.reflects_arrive (r := r.departing rules slot) reflects going forward call rfl rfl rfl
      rfl rfl _
  | pave c =>
    exact Run.reflects_arrive (r := r.paving rules slot c) reflects going forward call rfl rfl rfl
      rfl rfl _
  | turn t =>
    have still := reflects.still forward call
    unfold Run.turn
    obtain ⟨terminal, inside, same⟩ := r.exists_terminal rules.config (t :=
      { r.trace with
        final := { r.trace.final with heading := r.trace.final.heading.turned t } }) going
    rw [same]
    exact still.congr rfl rfl rfl (iff_of_false inside (by rw [going]; nofun)) rfl
  | call callee =>
    refine Run.reflects_call reflects forward fun other => ?_
    rw [call, beq_iff_eq, Action.call.injEq, eq_comm]
  | noop | other => exact reflects.still forward call
  | paint c =>
    obtain ⟨world, visited, painted, same, -⟩ := Run.paint_frame rules r slot c
    rw [same]
    exact (reflects.still forward call).congr rfl rfl rfl Iff.rfl rfl

/-! ## Whole runs -/

def Trace.dispatched (t : Trace) (log : List Slot) : List Slot :=
  if t.terminal = .earlyExit then log.dropLast else log

theorem Trace.dispatched_eq {t : Trace} (all : t.terminal ≠ .earlyExit) (log : List Slot) :
    t.dispatched log = log :=
  if_neg all

theorem Trace.dispatched_concat {t : Trace} (early : t.terminal = .earlyExit) (log : List Slot)
    (slot : Slot) : t.dispatched (log ++ [slot]) = log := by
  rw [dispatched, if_pos early, List.dropLast_concat]

theorem Dispatch.sums {rules : Rules} {r : Run} {slot : Slot} {i : Instruction}
    {drawn : Option Color} {progress : Progress} {p : Program} {log : List Slot}
    (dispatched : Dispatch rules r slot i drawn progress) (filled : p.at? slot = some i)
    (going : r.trace.terminal = .completed) (tallies : r.trace.Tallies p log)
    (reflects : r.trace.Reflects p rules.window log) :
    progress.trace.Tallies p (log ++ [slot]) ∧
      progress.trace.Reflects p rules.window (progress.trace.dispatched (log ++ [slot])) ∧
      ∀ next, progress = .running next → next.trace.terminal = .completed := by
  have recorded := tallies.record filled r.departed
  have terminal := (Trace.terminal_record r.trace slot i r.departed).trans going
  have kept : (r.trace.record slot i r.departed).Reflects p rules.window log :=
    reflects.congr (Trace.selfCalls_record _ _ _ _) (Trace.called_record _ _ _ _)
      (Trace.path_record _ _ _ _) (by rw [terminal, going]) (Trace.recentForwards_record _ _ _ _)
  cases dispatched with
  | earlyExit =>
    refine ⟨recorded.congr rfl rfl rfl, ?_, ?_⟩
    · rw [Trace.dispatched_concat rfl]
      exact kept.congr rfl rfl rfl (iff_of_false nofun (by rw [terminal]; nofun)) rfl
    · rintro next ⟨⟩
  | act _ effect =>
    obtain ⟨-, -, steps, executed, conditional⟩ := effect.moves
    have acted := effect.reflects filled terminal kept
    refine ⟨recorded.congr steps executed conditional, ?_, ?_⟩
    · have later : progress.trace.terminal ≠ .earlyExit := by
        cases progress with
        | running next =>
          obtain ⟨-, -, -, same, -⟩ := effect.goes
          simp [same.trans terminal]
        | ended t =>
          rcases effect.ended rfl with left | ⟨back, -⟩
          · simp [left]
          · simp [back]
      rwa [Trace.dispatched_eq later]
    · rintro next rfl
      obtain ⟨-, -, -, same, -⟩ := effect.goes
      exact same.trans terminal

variable {σ : Type} [RandomSource σ]

theorem Logged.sums {rules : Rules} {n : Nat} {origin : CallStack} {skipped : Nat} {r : Run}
    {source after : σ} {log : List Event} {t : Trace} (done : List Slot)
    (logged : Logged rules n origin skipped r source log t after)
    (going : r.trace.terminal = .completed) (tallies : r.trace.Tallies rules.program done)
    (reflects : r.trace.Reflects rules.program rules.window done) :
    t.Tallies rules.program (done ++ log.map (·.slot)) ∧
      t.Reflects rules.program rules.window (t.dispatched (done ++ log.map (·.slot))) := by
  have atEnd {r : Run} {done : List Slot} (going : r.trace.terminal = .completed)
      (tallies : r.trace.Tallies rules.program done)
      (reflects : r.trace.Reflects rules.program rules.window done) :
      r.trace.Tallies rules.program (done ++ []) ∧
        r.trace.Reflects rules.program rules.window (r.trace.dispatched (done ++ [])) := by
    rw [Trace.dispatched_eq (by rw [going]; nofun), List.append_nil]
    exact ⟨tallies, reflects⟩
  induction logged generalizing done with
  | exhausted | spent => exact atEnd going tallies reflects
  | passed _ _ _ ih => exact ih _ going tallies reflects
  | ended _ found dispatched =>
    obtain ⟨tallied, reflected, -⟩ :=
      dispatched.sums (CallStack.at?_of_next found) going tallies reflects
    exact ⟨tallied, reflected⟩
  | executed _ found dispatched _ _ ih =>
    obtain ⟨tallied, reflected, goes⟩ :=
      dispatched.sums (CallStack.at?_of_next found) going tallies reflects
    have going := goes _ rfl
    rw [Trace.dispatched_eq (by rw [Progress.trace, going]; nofun)] at reflected
    have sums := ih _ going tallied reflected
    rwa [List.append_assoc] at sums

theorem Logged.sums_begin {rules : Rules} {n : Nat} {world : Grid} {start : Pose} {begun : Trace}
    {source after : σ} {log : List Event} {t : Trace} (begins : Trace.begin? world start = some begun)
    (logged : Logged rules n .root 0 { trace := begun } source log t after) :
    t.Tallies rules.program (log.map (·.slot)) ∧
      t.Reflects rules.program rules.window (t.dispatched (log.map (·.slot))) := by
  obtain ⟨tile, here, rfl⟩ := Trace.begin?_eq_some begins
  exact logged.sums [] rfl ⟨rfl, List.forall_mem_nil _, rfl, fun _ => rfl, rfl⟩
    ⟨rfl, by simp, Nat.le_refl _, rfl, by simp [lastOf]⟩

/-- What a trace sums up agrees with the log of its run, and the log is no longer than the budget. The
instruction with which the run has seen enough is recorded but takes no effect. -/
theorem summary_of_execute {p : Program} {c : Config} {s : Setting} {suppressed : Slot → Bool}
    {source after : σ} {t : Trace} (ran : execute p c s suppressed source = (.ok t, after)) :
    ∃ begun log,
      Trace.begin? (s.prepare c source).1.1 (s.prepare c source).1.2 = some begun ∧
      Logged ⟨p, c, suppressed, s.window⟩ (c.maxSteps * Run.fetchesPerStep) .root 0
        { trace := begun } (s.prepare c source).2 log t after ∧
      log.length ≤ c.maxSteps ∧ t.Tallies p (log.map (·.slot)) ∧
      t.Reflects p s.window (t.dispatched (log.map (·.slot))) := by
  obtain ⟨begun, log, begins, logged⟩ := runFrom?_eq_some.mp (execute_eq_ok.mp ran)
  have budget := (records_of_execute ran).2
  obtain ⟨tallies, reflects⟩ := logged.sums_begin begins
  have length := tallies.steps
  rw [List.length_map] at length
  exact ⟨begun, log, begins, logged, length ▸ budget, tallies, reflects⟩

def twiceEach : Config where
  slotsPerRoutine := ⟨3, 0, 0, 0, 0⟩
  minCoverage := 0
  maxAverageExecutions := 2
  ignoreLoops := true

def lastForwardOnly : Setting :=
  { fourCells with window := 1 }

def roundAgain : Program :=
  ⟨⟨[some ⟨.forward, none⟩, some ⟨.turn .right, none⟩, some ⟨.call .f1, none⟩], [], [], [], []⟩⟩

theorem summary_roundAgain :
    ∃ t after, execute roundAgain twiceEach lastForwardOnly (fun _ => false)
        (⟨#[0.5], 0, false⟩ : Tape) = (.ok t, after) ∧
      t.terminal = .earlyExit ∧ t.recentForwards = [⟨.f1, 0⟩] ∧
      ∃ log : List Slot, log.length = 6 ∧ t.Tallies roundAgain log ∧
        t.Reflects roundAgain 1 log.dropLast := by
  have evaluated : (execute roundAgain twiceEach lastForwardOnly (fun _ => false)
      (⟨#[0.5], 0, false⟩ : Tape)).1.toOption.any (fun t =>
        decide (t.terminal = .earlyExit ∧ t.steps = 6 ∧ t.recentForwards = [⟨.f1, 0⟩])) = true := by
    decide +kernel
  obtain ⟨t, after, ran, tested⟩ := exists_ok_of_any evaluated
  obtain ⟨early, steps, recent⟩ := of_decide_eq_true tested
  obtain ⟨begun, log, -, -, -, tallies, reflects⟩ := summary_of_execute ran
  rw [Trace.dispatched, if_pos early] at reflects
  exact ⟨t, after, ran, early, recent, _, tallies.steps.symm.trans steps, tallies, reflects⟩

end GridRobot
