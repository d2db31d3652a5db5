import GridRobot.Proofs.Run.Path
import GridRobot.Proofs.Run.Replay

namespace GridRobot

variable {σ : Type} [RandomSource σ]

structure ArrivalMap.Lists (m : ArrivalMap κ α) (P : κ → Prop) : Prop where
  once : m.keys.Nodup
  all : ∀ k ∈ m.keys, P k

namespace ArrivalMap.Lists

variable {κ : Type u} {α : Type v} {m : ArrivalMap κ α} {P Q : κ → Prop}

theorem empty : (∅ : ArrivalMap κ α).Lists P :=
  ⟨.nil, fun _ mem => absurd mem List.not_mem_nil⟩

theorem mono (lists : m.Lists P) (weaker : ∀ k, P k → Q k) : m.Lists Q :=
  ⟨lists.once, fun k mem => weaker k (lists.all k mem)⟩

theorem alter [DecidableEq κ] (lists : m.Lists P) {k : κ} (holds : P k) (f : Option α → α) :
    (m.alter k f).Lists P := by
  obtain ⟨once, all⟩ := lists
  constructor
  · rw [keys_alter]
    split
    · exact once
    · rename_i fresh
      refine List.nodup_append.mpr ⟨once, by simp, ?_⟩
      rintro l listed _ here rfl
      rw [List.mem_singleton.mp here] at listed
      exact fresh listed
  · intro l mem
    rw [← contains_iff, contains_alter, contains_iff] at mem
    rcases mem with rfl | mem
    · exact holds
    · exact all l mem

end ArrivalMap.Lists

namespace Trace

/-- The slots on record are filled slots of the program: conditional ones among the conditional slots,
self-calls among the self-calls, and apart from the executed ones only executed ones. -/
structure Records (t : Trace) (p : Program) : Prop where
  executed : t.executed.Lists fun s => ∃ i, p.at? s = some i
  conditional : t.conditional.Lists fun s =>
    s ∈ t.executed.keys ∧ ∃ i, p.at? s = some i ∧ i.condition.isSome = true
  selfCalls : t.selfCalls.Lists fun s =>
    s ∈ t.executed.keys ∧ ∃ i, p.at? s = some i ∧ i.action = .call s.routine
  boundary : ∀ s, t.boundarySlot = some s → s ∈ t.executed.keys
  recent : ∀ s ∈ t.recentForwards, s ∈ t.executed.keys

theorem records_begin {world : Grid} {start : Pose} {t : Trace} (begun : begin? world start = some t)
    (p : Program) : t.Records p := by
  obtain ⟨tile, here, rfl⟩ := begin?_eq_some begun
  exact ⟨.empty, .empty, .empty, by simp, by simp⟩

theorem mem_executed_record (t : Trace) (slot : Slot) (i : Instruction) (departed : List Position)
    (s : Slot) :
    s ∈ (t.record slot i departed).executed.keys ↔ s = slot ∨ s ∈ t.executed.keys := by
  rw [executed_record, ← ArrivalMap.contains_iff, ArrivalMap.contains_alter, ArrivalMap.contains_iff]

namespace Records

variable {t u : Trace} {p : Program}

theorem congr (records : t.Records p) (executed : u.executed = t.executed)
    (conditional : u.conditional = t.conditional) (selfCalls : u.selfCalls = t.selfCalls)
    (boundary : ∀ s, u.boundarySlot = some s → s ∈ t.executed.keys)
    (recent : ∀ s ∈ u.recentForwards, s ∈ t.executed.keys) : u.Records p := by
  obtain ⟨listed, conditionals, calls, -, -⟩ := records
  constructor
  · rwa [executed]
  · rwa [conditional, executed]
  · rwa [selfCalls, executed]
  · rwa [executed]
  · rwa [executed]

theorem record (records : t.Records p) {slot : Slot} {i : Instruction} (filled : p.at? slot = some i)
    (departed : List Position) : (t.record slot i departed).Records p := by
  obtain ⟨executed, conditional, selfCalls, boundary, recent⟩ := records
  have still {s : Slot} (listed : s ∈ t.executed.keys) :
      s ∈ (t.record slot i departed).executed.keys :=
    (t.mem_executed_record slot i departed s).mpr (.inr listed)
  have now : slot ∈ (t.record slot i departed).executed.keys :=
    (t.mem_executed_record slot i departed slot).mpr (.inl rfl)
  have conditional := conditional.mono fun s known => And.imp_left still known
  have selfCalls := selfCalls.mono fun s known => And.imp_left still known
  constructor
  · rw [executed_record]
    exact executed.alter ⟨i, filled⟩ _
  · rw [conditional_record]
    split
    · rename_i waits
      exact conditional.alter ⟨now, i, filled, waits⟩ _
    · exact conditional
  · rwa [selfCalls_record]
  · intro s left
    rw [boundarySlot_record] at left
    exact still (boundary s left)
  · intro s mem
    rw [recentForwards_record] at mem
    exact still (recent s mem)

end Records

end Trace

theorem mem_of_mem_lastOf {n : Nat} {xs : List α} {x : α} (mem : x ∈ lastOf n xs) : x ∈ xs :=
  List.mem_of_mem_drop mem

theorem Run.records_departing (rules : Rules) {r : Run} {slot : Slot} {p : Program}
    (records : r.trace.Records p) (executed : slot ∈ r.trace.executed.keys) :
    (r.departing rules slot).trace.Records p := by
  refine records.congr rfl rfl rfl records.boundary fun s mem => ?_
  rcases List.mem_append.mp (mem_of_mem_lastOf mem) with before | now
  · exact records.recent s before
  · rw [List.mem_singleton.mp now]
    exact executed

theorem Effect.records {rules : Rules} {r : Run} {slot : Slot} {i : Instruction}
    {drawn : Option Color} {progress : Progress} {p : Program}
    (effect : Effect rules r slot i.action drawn progress) (filled : p.at? slot = some i)
    (executed : slot ∈ r.trace.executed.keys) (records : r.trace.Records p) :
    progress.trace.Records p := by
  have departed := Run.records_departing rules records executed
  generalize acts : i.action = action at effect
  cases effect with
  | boundary =>
    refine departed.congr rfl rfl rfl ?_ departed.recent
    rintro s ⟨⟩
    exact executed
  | move =>
    obtain ⟨turning, terminal, came⟩ :=
      Run.trace_arrive rules (r.departing rules slot) r.trace.ahead
    rw [came]
    exact departed.congr rfl rfl rfl departed.boundary departed.recent
  | pave c =>
    obtain ⟨turning, terminal, came⟩ :=
      Run.trace_arrive rules (r.paving rules slot c) r.trace.ahead
    rw [came]
    exact departed.congr rfl rfl rfl departed.boundary departed.recent
  | turn t =>
    obtain ⟨terminal, same⟩ := Run.trace_turn rules r t
    rw [same]
    exact records.congr rfl rfl rfl records.boundary records.recent
  | call callee =>
    change (r.call slot callee).trace.Records p
    by_cases same : slot.routine = callee
    · refine ⟨records.executed, records.conditional, ?_, records.boundary, records.recent⟩
      rw [Run.call, if_pos same]
      exact records.selfCalls.alter ⟨executed, i, filled, by rw [acts, same]⟩ _
    · refine records.congr rfl rfl ?_ records.boundary records.recent
      rw [Run.call, if_neg same]
  | paint c =>
    obtain ⟨world, visited, painted, same, -⟩ := Run.paint_frame rules r slot c
    rw [same]
    exact records.congr rfl rfl rfl records.boundary records.recent
  | noop | other => exact records

theorem Dispatch.records {rules : Rules} {r : Run} {slot : Slot} {i : Instruction}
    {drawn : Option Color} {progress : Progress} {p : Program}
    (dispatched : Dispatch rules r slot i drawn progress) (filled : p.at? slot = some i)
    (records : r.trace.Records p) : progress.trace.Records p := by
  have recorded := records.record filled r.departed
  cases dispatched with
  | earlyExit => exact recorded.congr rfl rfl rfl recorded.boundary recorded.recent
  | act _ effect =>
    exact effect.records filled ((r.trace.mem_executed_record _ _ _ _).mpr (.inl rfl)) recorded

theorem execute_preserves {P : Trace → Prop} {p : Program} {c : Config} {s : Setting}
    {suppressed : Slot → Bool} {source after : σ} {t : Trace}
    (ran : execute p c s suppressed source = (.ok t, after))
    (start : ∀ {world pose begun}, Trace.begin? world pose = some begun → P begun)
    (step : ∀ {r : Run} {stack slot i drawn progress}, r.trace.steps < c.maxSteps →
      r.stack.next p r.trace.here = (stack, some (slot, i)) →
        Dispatch ⟨p, c, suppressed, s.window⟩ { r with stack } slot i drawn progress →
          r.trace.Grounded → r.trace.Traced → P r.trace → P progress.trace) : P t := by
  obtain ⟨begun, log, begins, logged⟩ := runFrom?_eq_some.mp (execute_eq_ok.mp ran)
  have all : t.Grounded ∧ t.Traced ∧ P t := by
    refine logged.preserves_found (P := fun t => t.Grounded ∧ t.Traced ∧ P t) ?_
      ⟨Trace.grounded_begin begins, Trace.traced_begin begins, start begins⟩
    rintro r stack slot i drawn progress left found dispatched ⟨grounded, traced, kept⟩
    exact ⟨dispatched.grounded grounded, (dispatched.extension traced).traced,
      step left found dispatched grounded traced kept⟩
  exact all.2.2

theorem records_of_execute {p : Program} {c : Config} {s : Setting} {suppressed : Slot → Bool}
    {source after : σ} {t : Trace} (ran : execute p c s suppressed source = (.ok t, after)) :
    t.Records p ∧ t.steps ≤ c.maxSteps := by
  constructor
  · exact execute_preserves ran (fun begins => Trace.records_begin begins p)
      fun _ found dispatched _ _ kept => dispatched.records (CallStack.at?_of_next found) kept
  · refine execute_preserves (P := fun t => t.steps ≤ c.maxSteps) ran ?_ ?_
    · intro world pose begun begins
      obtain ⟨tile, here, rfl⟩ := Trace.begin?_eq_some begins
      exact Nat.zero_le _
    · intro r stack slot i drawn progress left _ dispatched grounded traced _
      rw [(dispatched.extension traced).steps, Trace.steps_record]
      exact left

theorem size_of_runFrom? {rules : Rules} {world : Grid} {start : Pose} {source after : σ} {t : Trace}
    (ran : runFrom? rules world start source = (some t, after)) :
    t.Grounded ∧ t.world.width = world.width ∧ t.world.height = world.height := by
  obtain ⟨begun, log, begins, logged⟩ := runFrom?_eq_some.mp ran
  have grounded := Trace.grounded_begin begins
  have ended := logged.grounded grounded
  have precedes := logged.precedes grounded
  obtain ⟨tile, here, rfl⟩ := Trace.begin?_eq_some begins
  exact ⟨ended, ended.width.symm.trans precedes.width, ended.height.symm.trans precedes.height⟩

theorem standing_start_of_execute {p : Program} {c : Config} {s : Setting}
    {suppressed : Slot → Bool} {source after : σ} {t : Trace}
    (ran : execute p c s suppressed source = (.ok t, after)) :
    (t.unpainted.tile? t.start.position).isSome = true := by
  obtain ⟨begun, log, begins, logged⟩ := runFrom?_eq_some.mp (execute_eq_ok.mp ran)
  have precedes := logged.precedes (Trace.grounded_begin begins)
  obtain ⟨tile, here, rfl⟩ := Trace.begin?_eq_some begins
  rw [precedes.start, precedes.tiles _ tile here]
  rfl

def Trace.Walked (t : Trace) : Prop :=
  ∀ q ∈ t.path, (t.unpainted.tile? q).isSome = true

theorem Dispatch.walked {rules : Rules} {r : Run} {slot : Slot} {i : Instruction}
    {drawn : Option Color} {progress : Progress}
    (dispatched : Dispatch rules r slot i drawn progress) (grounded : r.trace.Grounded)
    (traced : r.trace.Traced) (walked : r.trace.Walked) : progress.trace.Walked := by
  intro q mem
  rcases ((dispatched.extension traced).path q).mp mem with before | rfl
  · rw [Trace.path_record] at before
    obtain ⟨tile, there⟩ := Option.isSome_iff_exists.mp (walked q before)
    have still := (dispatched.precedes grounded).tiles q tile (by rwa [Trace.unpainted_record])
    exact Option.isSome_iff_exists.mpr ⟨tile, still⟩
  · have now := dispatched.grounded grounded
    rw [now.placed]
    exact now.standing

theorem Trace.walked_begin {world : Grid} {start : Pose} {t : Trace}
    (begun : begin? world start = some t) : t.Walked := by
  obtain ⟨tile, here, rfl⟩ := begin?_eq_some begun
  intro q mem
  rw [List.mem_singleton.mp (List.mem_toArray.mp mem), here]
  rfl

theorem walked_of_execute {p : Program} {c : Config} {s : Setting} {suppressed : Slot → Bool}
    {source after : σ} {t : Trace} (ran : execute p c s suppressed source = (.ok t, after)) :
    t.Walked :=
  execute_preserves ran Trace.walked_begin fun _ _ dispatched => dispatched.walked

end GridRobot
