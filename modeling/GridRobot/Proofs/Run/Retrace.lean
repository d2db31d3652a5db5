import Mathlib.Data.List.Chain
import Mathlib.Order.Bounds.Basic
import GridRobot.Proofs.Run.Course
import GridRobot.Proofs.Run.Reach

namespace GridRobot

/-! ## Turning -/

namespace Heading

theorem turnDistance_self (h : Heading) : h.turnDistance h = 0 := by
  cases h <;> rfl

theorem turnDistance_turned (h : Heading) (t : Turn) : h.turnDistance (h.turned t) = 1 := by
  cases h <;> cases t <;> rfl

theorem turnDistance_triangle (a b c : Heading) :
    a.turnDistance c ≤ a.turnDistance b + b.turnDistance c := by
  cases a <;> cases b <;> cases c <;> decide

def turnsTo (a b : Heading) : List Turn :=
  if b = a then []
  else if b = a.turned .left then [.left]
  else if b = a.turned .right then [.right]
  else [.right, .right]

theorem foldl_turnsTo (a b : Heading) : (a.turnsTo b).foldl turned a = b := by
  cases a <;> cases b <;> rfl

theorem length_turnsTo (a b : Heading) : (a.turnsTo b).length = a.turnDistance b := by
  cases a <;> cases b <;> rfl

end Heading

namespace Position

def Adjacent (p q : Position) : Prop :=
  (q.x - p.x).natAbs + (q.y - p.y).natAbs = 1

theorem adjacent_iff {p q : Position} : p.Adjacent q ↔ ∃ h, q = p.step h := by
  obtain ⟨x, y⟩ := p
  obtain ⟨u, v⟩ := q
  constructor
  · intro adjacent
    simp only [Adjacent] at adjacent
    have side : u = x ∧ v = y - 1 ∨ u = x ∧ v = y + 1 ∨ u = x - 1 ∧ v = y ∨ u = x + 1 ∧ v = y := by
      omega
    rcases side with ⟨rfl, rfl⟩ | ⟨rfl, rfl⟩ | ⟨rfl, rfl⟩ | ⟨rfl, rfl⟩
    · exact ⟨.up, rfl⟩
    · exact ⟨.down, rfl⟩
    · exact ⟨.left, rfl⟩
    · exact ⟨.right, rfl⟩
  · rintro ⟨h, beside⟩
    cases h <;> cases beside <;> simp only [Adjacent] <;> omega

end Position

/-! ## Routes -/

namespace Pose

def after (pose : Pose) : Action → Pose
  | .forward => { pose with position := pose.position.step pose.heading }
  | .turn t => { pose with heading := pose.heading.turned t }
  | .call _ | .paint _ | .noop | .other _ => pose

def route (pose : Pose) : List Action → List Position
  | [] => [pose.position]
  | .forward :: rest => pose.position :: (pose.after .forward).route rest
  | action :: rest => (pose.after action).route rest

theorem exists_route_eq (pose : Pose) (actions : List Action) :
    ∃ later, pose.route actions = pose.position :: later := by
  induction actions generalizing pose with
  | nil => exact ⟨[], rfl⟩
  | cons action rest ih =>
    cases action with
    | forward => exact ⟨_, rfl⟩
    | turn | call | paint | noop | other => exact ih _

theorem route_append (pose : Pose) (first second : List Action) :
    pose.route (first ++ second) =
      pose.route first ++ ((first.foldl after pose).route second).tail := by
  induction first generalizing pose with
  | nil =>
    obtain ⟨later, same⟩ := pose.exists_route_eq second
    simp [route, same]
  | cons action rest ih =>
    cases action with
    | forward => exact congrArg _ (ih _)
    | turn | call | paint | noop | other => exact ih _

theorem route_turns (pose : Pose) (turns : List Turn) (rest : List Action) :
    pose.route (turns.map .turn ++ rest) =
      { pose with heading := turns.foldl Heading.turned pose.heading }.route rest := by
  induction turns generalizing pose with
  | nil => rfl
  | cons t turns ih => exact ih _

end Pose

/-! ## The shortest route -/

theorem retraceLength_le_add (a b : Heading) (path : List Position) :
    retraceLength a path ≤ a.turnDistance b + retraceLength b path := by
  rcases path with _ | ⟨p, _ | ⟨q, path⟩⟩
  · exact Nat.zero_le _
  · exact Nat.zero_le _
  · have shorter := a.turnDistance_triangle b (p.headingTo q)
    simp only [retraceLength]
    omega

theorem retraceLength_le_length (pose : Pose) (actions : List Action) :
    retraceLength pose.heading (pose.route actions) ≤ actions.length := by
  induction actions generalizing pose with
  | nil => exact Nat.zero_le _
  | cons action rest ih =>
    have known := ih (pose.after action)
    rw [List.length_cons]
    cases action with
    | forward =>
      -- the edge leads straight on, so that it costs the forward alone
      obtain ⟨later, same⟩ := (pose.after .forward).exists_route_eq rest
      rw [Pose.route, same]
      rw [same] at known
      simp only [Pose.after, retraceLength, Position.headingTo_step,
        Heading.turnDistance_self] at known ⊢
      omega
    | turn t =>
      have turning := retraceLength_le_add pose.heading (pose.heading.turned t)
        ((pose.after (.turn t)).route rest)
      rw [Heading.turnDistance_turned] at turning
      exact Nat.le_trans turning (by rw [Nat.add_comm]; exact Nat.succ_le_succ known)
    | call | paint | noop | other => exact Nat.le_succ_of_le known

theorem exists_moves {p : Position} {rest : List Position}
    (walk : (p :: rest).IsChain Position.Adjacent) (h : Heading) :
    ∃ moves : List Action, (∀ a ∈ moves, a.isMove = true) ∧
      Pose.route ⟨p, h⟩ moves = p :: rest ∧ moves.length = retraceLength h (p :: rest) := by
  induction rest generalizing p h with
  | nil => exact ⟨[], List.forall_mem_nil _, rfl, rfl⟩
  | cons q rest ih =>
    obtain ⟨adjacent, walk⟩ := List.isChain_cons_cons.mp walk
    obtain ⟨g, rfl⟩ := Position.adjacent_iff.mp adjacent
    obtain ⟨moves, all, visits, length⟩ := ih walk g
    refine ⟨(h.turnsTo g).map .turn ++ .forward :: moves, ?_, ?_, ?_⟩
    · intro a mem
      rcases List.mem_append.mp mem with turning | mem
      · obtain ⟨t, -, rfl⟩ := List.mem_map.mp turning
        rfl
      · rcases List.mem_cons.mp mem with rfl | mem
        · rfl
        · exact all a mem
    · rw [Pose.route_turns, Heading.foldl_turnsTo]
      exact congrArg _ visits
    · rw [List.length_append, List.length_map, Heading.length_turnsTo, List.length_cons, length,
        retraceLength, Position.headingTo_step, Nat.add_right_comm, Nat.add_assoc]

/-! ## The moves of a run -/

variable {σ : Type} [RandomSource σ]

structure Trace.Takes (t u : Trace) (moves : List Action) : Prop where
  start : u.start = t.start
  steps : u.steps = t.steps
  moving : ∀ a ∈ moves, a.isMove = true
  final : u.final = moves.foldl Pose.after t.final
  path : u.path.toList = t.path.toList ++ (t.final.route moves).tail

theorem Trace.Takes.still {t u : Trace} (start : u.start = t.start) (steps : u.steps = t.steps)
    (final : u.final = t.final) (path : u.path = t.path) : t.Takes u [] :=
  ⟨start, steps, List.forall_mem_nil _, final, by rw [path]; exact (List.append_nil _).symm⟩

theorem Effect.takes {rules : Rules} {r : Run} {slot : Slot} {action : Action}
    {drawn : Option Color} {progress : Progress}
    (effect : Effect rules r slot action drawn progress) :
    ∃ moves, moves.length ≤ 1 ∧ r.trace.Takes progress.trace moves := by
  obtain ⟨moves, recorded⟩ := effect.moves
  cases moves with
  | stays final path =>
    exact ⟨[], Nat.zero_le _, .still recorded.start recorded.steps final path⟩
  | turns d final path =>
    refine ⟨[.turn d], Nat.le_refl _, recorded.start, recorded.steps, ?_, final, ?_⟩
    · exact List.forall_mem_singleton.mpr rfl
    · rw [path]
      exact (List.append_nil _).symm
  | arrives turning final path =>
    refine ⟨[.forward], Nat.le_refl _, recorded.start, recorded.steps, ?_, final, ?_⟩
    · exact List.forall_mem_singleton.mpr rfl
    · rw [path]
      exact Array.toList_push

theorem Dispatch.takes {rules : Rules} {r : Run} {slot : Slot} {i : Instruction}
    {drawn : Option Color} {progress : Progress}
    (dispatched : Dispatch rules r slot i drawn progress) :
    ∃ moves, moves.length ≤ 1 ∧ (r.trace.record slot i r.departed).Takes progress.trace moves := by
  cases dispatched with
  | earlyExit => exact ⟨[], Nat.zero_le _, .still rfl rfl rfl rfl⟩
  | act _ effect => exact effect.takes

structure Trace.Routed (t : Trace) (moves : List Action) : Prop where
  moving : ∀ a ∈ moves, a.isMove = true
  steps : moves.length ≤ t.steps
  final : t.final = moves.foldl Pose.after t.start
  path : t.path.toList = t.start.route moves

theorem Trace.routed_begin {world : Grid} {start : Pose} {t : Trace}
    (begun : begin? world start = some t) : t.Routed [] := by
  obtain ⟨tile, here, rfl⟩ := begin?_eq_some begun
  exact ⟨List.forall_mem_nil _, Nat.zero_le _, rfl, rfl⟩

theorem Dispatch.routed {rules : Rules} {r : Run} {slot : Slot} {i : Instruction}
    {drawn : Option Color} {progress : Progress} {moves : List Action}
    (dispatched : Dispatch rules r slot i drawn progress) (routed : r.trace.Routed moves) :
    ∃ more, progress.trace.Routed (moves ++ more) := by
  obtain ⟨more, few, start, steps, moved, final, path⟩ := dispatched.takes
  rw [Trace.start_record] at start
  rw [Trace.steps_record] at steps
  rw [Trace.final_record] at final path
  rw [Trace.path_record] at path
  refine ⟨more, ?_, ?_, ?_, ?_⟩
  · intro a mem
    rcases List.mem_append.mp mem with before | now
    · exact routed.moving a before
    · exact moved a now
  · have before := routed.steps
    rw [List.length_append, steps]
    omega
  · rw [final, start, List.foldl_append, ← routed.final]
  · rw [path, start, Pose.route_append, ← routed.path, ← routed.final]

theorem routed_of_execute {p : Program} {c : Config} {s : Setting} {suppressed : Slot → Bool}
    {source after : σ} {t : Trace}
    (ran : execute p c s suppressed source = (.ok t, after)) : ∃ moves, t.Routed moves := by
  refine execute_preserves (P := fun t => ∃ moves, t.Routed moves) ran
    (fun begins => ⟨[], Trace.routed_begin begins⟩) ?_
  rintro r stack slot i drawn progress - - dispatched - - ⟨moves, routed⟩
  obtain ⟨more, routed⟩ := dispatched.routed routed
  exact ⟨moves ++ more, routed⟩

/-- What it takes to retrace a path is the length of the shortest sequence of forwards and turns that
visits it, and no run executes fewer instructions than its path takes. -/
theorem retraceLength_isLeast :
    (∀ (path : List Position) (p : Position) (h : Heading), path.head? = some p →
      path.IsChain Position.Adjacent →
        IsLeast {n | ∃ moves : List Action, (∀ a ∈ moves, a.isMove = true) ∧
          Pose.route ⟨p, h⟩ moves = path ∧ moves.length = n} (retraceLength h path)) ∧
      ∀ {σ : Type} [RandomSource σ] {p : Program} {c : Config} {s : Setting}
        {suppressed : Slot → Bool} {source after : σ} {t : Trace},
        execute p c s suppressed source = (.ok t, after) →
          retraceLength t.start.heading t.path.toList ≤ t.steps := by
  constructor
  · intro path p h first walk
    obtain ⟨rest, rfl⟩ := List.head?_eq_some_iff.mp first
    refine ⟨exists_moves walk h, ?_⟩
    rintro n ⟨moves, -, visits, rfl⟩
    rw [← visits]
    exact retraceLength_le_length ⟨p, h⟩ moves
  · intro σ _ p c s suppressed source after t ran
    obtain ⟨moves, routed⟩ := routed_of_execute ran
    rw [routed.path]
    exact Nat.le_trans (retraceLength_le_length _ _) routed.steps

def comeBack : Program :=
  ⟨⟨[some ⟨.forward, none⟩, some ⟨.turn .left, none⟩, some ⟨.turn .left, none⟩], [], [], [], []⟩⟩

theorem retraceLength_comeBack :
    ([⟨0, 0⟩, ⟨1, 0⟩, ⟨0, 0⟩, ⟨0, 1⟩] : List Position).IsChain Position.Adjacent ∧
      IsLeast {n | ∃ moves : List Action, (∀ a ∈ moves, a.isMove = true) ∧
        Pose.route ⟨⟨0, 0⟩, .up⟩ moves = [⟨0, 0⟩, ⟨1, 0⟩, ⟨0, 0⟩, ⟨0, 1⟩] ∧ moves.length = n} 7 ∧
      ∃ t after, execute comeBack sixMoves fourCells (fun _ => false) (⟨#[0.5], 0, false⟩ : Tape) =
          (.ok t, after) ∧
        t.path.toList = [⟨0, 0⟩, ⟨1, 0⟩, ⟨0, 0⟩, ⟨1, 0⟩, ⟨0, 0⟩] ∧
        retraceLength t.start.heading t.path.toList = 10 ∧
        retraceLength t.start.heading t.path.toList ≤ t.steps := by
  have walk : ([⟨0, 0⟩, ⟨1, 0⟩, ⟨0, 0⟩, ⟨0, 1⟩] : List Position).IsChain Position.Adjacent := by
    unfold Position.Adjacent
    decide
  have evaluated : (execute comeBack sixMoves fourCells (fun _ => false)
      (⟨#[0.5], 0, false⟩ : Tape)).1.toOption.any (fun t => decide (t.path.toList =
        [⟨0, 0⟩, ⟨1, 0⟩, ⟨0, 0⟩, ⟨1, 0⟩, ⟨0, 0⟩] ∧
          retraceLength t.start.heading t.path.toList = 10)) = true := by
    decide +kernel
  obtain ⟨t, after, ran, tested⟩ := exists_ok_of_any evaluated
  obtain ⟨path, length⟩ := of_decide_eq_true tested
  exact ⟨walk, retraceLength_isLeast.1 _ _ .up rfl walk, t, after, ran, path, length,
    retraceLength_isLeast.2 ran⟩

end GridRobot
