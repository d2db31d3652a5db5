import Mathlib.Data.List.Chain
import GridRobot.Proofs.Run.Path
import GridRobot.Proofs.Run.Replay

namespace GridRobot

namespace Heading

def isVertical : Heading → Bool
  | .up | .down => true
  | .left | .right => false

def isPerpendicular (a b : Heading) : Bool :=
  a.isVertical != b.isVertical

theorem isQuarterTurn_eq (entry exit : Heading) :
    entry.isQuarterTurn exit = entry.isPerpendicular exit := by
  cases entry <;> cases exit <;> rfl

end Heading

def corners : List Position → List Position
  | p :: q :: r :: rest =>
    (if (p.headingTo q).isPerpendicular (q.headingTo r) then [q] else []) ++ corners (q :: r :: rest)
  | _ => []

theorem length_corners (path : List Position) : (corners path).length ≤ path.length - 1 := by
  induction path using corners.induct with
  | case1 p q r rest ih =>
    rw [corners, List.length_append]
    split <;> simp only [List.length_cons, List.length_nil] at ih ⊢ <;> omega
  | case2 path => simp [corners]

def lastHeading : List Position → Option Heading
  | [p, q] => some (p.headingTo q)
  | _ :: rest => lastHeading rest
  | [] => none

theorem lastHeading_concat (path : List Position) (p q : Position) :
    lastHeading (path ++ [p, q]) = some (p.headingTo q) := by
  induction path with
  | nil => rfl
  | cons a path ih =>
    rcases path with _ | ⟨b, _ | ⟨c, path⟩⟩
    · rfl
    · rfl
    · exact ih

theorem corners_concat (path : List Position) (p q : Position) :
    corners (path ++ [p, q]) = corners (path ++ [p]) ++
      if (lastHeading (path ++ [p])).any (·.isPerpendicular (p.headingTo q)) then [p] else [] := by
  induction path with
  | nil => rfl
  | cons a path ih =>
    rcases path with _ | ⟨b, _ | ⟨c, path⟩⟩
    · simp [corners, lastHeading]
    · simp [corners, lastHeading]
    · simp only [List.cons_append, corners, lastHeading, List.append_assoc] at ih ⊢
      rw [ih]

variable {σ : Type} [RandomSource σ]

structure Trace.Course (t : Trace) (entry : Option Heading) : Prop where
  first : t.path.toList.head? = some t.start.position
  last : t.path.toList.getLast? = some t.final.position
  walk : t.path.toList.IsChain fun p q => ∃ h, q = p.step h
  inside : ∀ q ∈ t.path, t.world.Contains q
  turns : t.turnPositions.toList = corners t.path.toList
  entry : entry = lastHeading t.path.toList

namespace Trace

theorem course_begin {world : Grid} {start : Pose} {t : Trace} (begun : begin? world start = some t) :
    t.Course none := by
  obtain ⟨tile, here, rfl⟩ := begin?_eq_some begun
  refine ⟨rfl, rfl, .singleton _, fun q mem => ?_, rfl, rfl⟩
  rw [List.mem_singleton.mp (List.mem_toArray.mp mem)]
  exact Grid.contains_of_tile? here

namespace Course

variable {t u : Trace} {entry : Option Heading}

theorem congr (course : t.Course entry) (path : u.path = t.path)
    (turns : u.turnPositions = t.turnPositions) (start : u.start = t.start)
    (position : u.final.position = t.final.position)
    (contains : ∀ q, u.world.Contains q ↔ t.world.Contains q) : u.Course entry := by
  obtain ⟨first, last, walk, inside, corners, entered⟩ := course
  constructor
  · rwa [path, start]
  · rwa [path, position]
  · rwa [path]
  · intro q mem
    rw [path] at mem
    exact (contains q).mpr (inside q mem)
  · rwa [turns, path]
  · rwa [path]

theorem moveTo (course : t.Course entry) (inside : t.world.Contains t.ahead) :
    (t.moveTo t.ahead (entry.any fun entry => entry.isQuarterTurn t.final.heading)).Course
      (some t.final.heading) := by
  obtain ⟨before, path⟩ := List.getLast?_eq_some_iff.mp course.last
  have longer : (t.path.push t.ahead).toList = before ++ [t.final.position, t.ahead] := by
    rw [Array.toList_push, path, List.append_assoc]
    rfl
  have heading : t.final.position.headingTo t.ahead = t.final.heading := Position.headingTo_step _ _
  constructor
  · change (t.path.push t.ahead).toList.head? = _
    rw [Array.toList_push, List.head?_append, course.first]
    rfl
  · change (t.path.push t.ahead).toList.getLast? = _
    rw [Array.toList_push, List.getLast?_concat]
    rfl
  · change (t.path.push t.ahead).toList.IsChain _
    have walk := course.walk
    rw [path] at walk
    rw [longer]
    exact List.isChain_append_cons_cons.mpr ⟨walk, ⟨_, rfl⟩, .singleton _⟩
  · intro q mem
    rcases Array.mem_push.mp mem with before | rfl
    · exact course.inside q before
    · exact inside
  · -- the turn is judged by the remembered facing, which is that of the last edge
    change _ = corners (t.path.push t.ahead).toList
    rw [longer, corners_concat, ← path, ← course.entry, heading, ← course.turns]
    simp only [Trace.moveTo, Heading.isQuarterTurn_eq]
    split
    · exact Array.toList_push
    · exact (List.append_nil _).symm
  · change _ = lastHeading (t.path.push t.ahead).toList
    rw [longer, lastHeading_concat, heading]

end Course

end Trace

theorem Effect.course {rules : Rules} {r : Run} {slot : Slot} {action : Action}
    {drawn : Option Color} {progress : Progress}
    (effect : Effect rules r slot action drawn progress) (course : r.trace.Course r.entry) :
    progress.Keeps fun r => r.trace.Course r.entry := by
  cases effect with
  | boundary => exact .ended_of (r := r) (course.congr rfl rfl rfl rfl fun _ => Iff.rfl)
  | move tile onto =>
    have departed : (r.departing rules slot).trace.Course r.entry :=
      course.congr rfl rfl rfl rfl fun _ => Iff.rfl
    exact Run.keeps_unlessBack fun _ =>
      (departed.moveTo (Grid.contains_of_tile? onto)).congr rfl rfl rfl rfl fun _ => Iff.rfl
  | pave c inside =>
    have paved : (r.paving rules slot c).trace.Course r.entry :=
      course.congr rfl rfl rfl rfl fun _ => Iff.rfl
    exact Run.keeps_unlessBack fun _ => (paved.moveTo inside).congr rfl rfl rfl rfl fun _ => Iff.rfl
  | turn t =>
    exact Run.keeps_unlessBack fun _ => course.congr rfl rfl rfl rfl fun _ => Iff.rfl
  | call | noop | other => exact .running (course.congr rfl rfl rfl rfl fun _ => Iff.rfl)
  | paint c =>
    obtain ⟨world, visited, painted, same, contains⟩ := Run.paint_frame rules r slot c
    rw [same]
    exact .running (course.congr rfl rfl rfl rfl contains)

theorem Dispatch.course {rules : Rules} {r : Run} {slot : Slot} {i : Instruction}
    {drawn : Option Color} {progress : Progress}
    (dispatched : Dispatch rules r slot i drawn progress) (course : r.trace.Course r.entry) :
    progress.Keeps fun r => r.trace.Course r.entry := by
  have recorded : (r.trace.record slot i r.departed).Course r.entry :=
    course.congr (by simp) (by simp) (by simp) (by simp) (by simp)
  cases dispatched with
  | earlyExit => exact .ended_of (r := r) (recorded.congr rfl rfl rfl rfl fun _ => Iff.rfl)
  | act _ effect => exact effect.course recorded

theorem course_of_runFrom? {rules : Rules} {world : Grid} {start : Pose} {source after : σ}
    {t : Trace} (ran : runFrom? rules world start source = (some t, after)) :
    ∃ entry, t.Course entry := by
  obtain ⟨begun, log, begins, logged⟩ := runFrom?_eq_some.mp ran
  obtain ⟨last, course, rfl⟩ := logged.maintains (P := fun r => r.trace.Course r.entry)
    (fun _ course => course) Dispatch.course (Trace.course_begin begins)
  exact ⟨_, course⟩

/-- A run's path is a walk in the world from where it starts to where it ends, and its turning points
are the corners of the path, whatever was executed between two moves. -/
theorem path_of_execute {p : Program} {c : Config} {s : Setting} {suppressed : Slot → Bool}
    {source after : σ} {t : Trace} (ran : execute p c s suppressed source = (.ok t, after)) :
    t.path.toList.head? = some (s.prepare c source).1.2.position ∧
      t.path.toList.getLast? = some t.final.position ∧
      (t.path.toList.IsChain fun p q => ∃ h, q = p.step h) ∧
      (∀ q ∈ t.path, t.world.Contains q) ∧
      t.turnPositions.toList = corners t.path.toList := by
  have ran := execute_eq_ok.mp ran
  obtain ⟨entry, course⟩ := course_of_runFrom? ran
  rw [← runFrom?_start ran]
  exact ⟨course.first, course.last, course.walk, course.inside, course.turns⟩

def sixMoves : Config where
  slotsPerRoutine := ⟨2, 0, 0, 0, 0⟩
  maxSteps := 12
  maxAverageExecutions := 1000
  ignoreLoops := true

def fourCells : Setting where
  grid :=
    let tile : Option Tile := some ⟨none, false⟩
    some ⟨2, 2, #v[#v[tile, tile], #v[tile, tile]]⟩
  start := some ⟨⟨0, 0⟩, .right⟩

def goRound : Program :=
  ⟨⟨[some ⟨.forward, none⟩, some ⟨.turn .right, none⟩], [], [], [], []⟩⟩

theorem path_goRound :
    ∃ t after, execute goRound sixMoves fourCells (fun _ => false) (⟨#[0.5], 0, false⟩ : Tape) =
        (.ok t, after) ∧
      t.path.toList = [⟨0, 0⟩, ⟨1, 0⟩, ⟨1, 1⟩, ⟨0, 1⟩, ⟨0, 0⟩, ⟨1, 0⟩, ⟨1, 1⟩] ∧
      t.turnPositions.toList = corners t.path.toList ∧
      corners t.path.toList = [⟨1, 0⟩, ⟨1, 1⟩, ⟨0, 1⟩, ⟨0, 0⟩, ⟨1, 0⟩] := by
  have evaluated : (execute goRound sixMoves fourCells (fun _ => false)
      (⟨#[0.5], 0, false⟩ : Tape)).1.toOption.any (fun t => decide (t.path.toList =
        [⟨0, 0⟩, ⟨1, 0⟩, ⟨1, 1⟩, ⟨0, 1⟩, ⟨0, 0⟩, ⟨1, 0⟩, ⟨1, 1⟩])) = true := by
    decide +kernel
  obtain ⟨t, after, ran, tested⟩ := exists_ok_of_any evaluated
  have path := of_decide_eq_true tested
  refine ⟨t, after, ran, path, (path_of_execute ran).2.2.2.2, ?_⟩
  rw [path]
  decide

end GridRobot
