import GridRobot.Proofs.Run.Growth
import GridRobot.Proofs.Run.Log

namespace GridRobot

variable {σ : Type} [RandomSource σ]

namespace Trace

structure Traced (t : Trace) : Prop where
  final : t.final.position ∈ t.path
  turns : ∀ q ∈ t.turnPositions, q ∈ t.path

theorem Traced.congr {t u : Trace} (traced : t.Traced) (path : u.path = t.path)
    (turns : u.turnPositions = t.turnPositions) (position : u.final.position = t.final.position) :
    u.Traced := by
  obtain ⟨final, turned⟩ := traced
  constructor
  · rwa [path, position]
  · rwa [path, turns]

theorem traced_begin {world : Grid} {start : Pose} {t : Trace} (begun : begin? world start = some t) :
    t.Traced := by
  obtain ⟨tile, here, rfl⟩ := Option.map_eq_some_iff.mp begun
  exact ⟨by simp, by simp⟩

theorem Traced.moveTo {t : Trace} (traced : t.Traced) (target : Position) (turning : Bool) :
    (t.moveTo target turning).Traced := by
  constructor
  · simp [Trace.moveTo]
  · intro q turned
    have turned : q ∈ t.turnPositions ∨ q = t.final.position := by
      cases turning with
      | false => exact .inl turned
      | true => simpa [Trace.moveTo] using turned
    have before : q ∈ t.path := by
      rcases turned with turned | rfl
      · exact traced.turns q turned
      · exact traced.final
    simp [Trace.moveTo, before]

end Trace

/-! ## One instruction -/

structure Trace.Extends (t u : Trace) : Prop where
  traced : u.Traced
  path : ∀ q, q ∈ u.path ↔ q ∈ t.path ∨ q = u.final.position
  steps : u.steps = t.steps

theorem Trace.Extends.still {t u : Trace} (traced : t.Traced) (path : u.path = t.path)
    (turns : u.turnPositions = t.turnPositions) (position : u.final.position = t.final.position)
    (steps : u.steps = t.steps) : t.Extends u := by
  refine ⟨traced.congr path turns position, fun q => ?_, steps⟩
  rw [path, position]
  constructor
  · exact .inl
  · rintro (there | rfl)
    · exact there
    · exact traced.final

theorem Trace.Extends.arrive {t u : Trace} (traced : t.Traced) {target : Position} {turning : Bool}
    {terminal : Terminal} (came : u = { t.moveTo target turning with terminal }) : t.Extends u := by
  subst came
  refine ⟨(traced.moveTo target turning).congr rfl rfl rfl, fun q => ?_, rfl⟩
  simp [Trace.moveTo]

theorem Effect.extension {rules : Rules} {r : Run} {slot : Slot} {action : Action}
    {drawn : Option Color} {progress : Progress}
    (effect : Effect rules r slot action drawn progress) (traced : r.trace.Traced) :
    r.trace.Extends progress.trace := by
  cases effect with
  | boundary => exact .still traced rfl rfl rfl rfl
  | move =>
    obtain ⟨turning, terminal, came⟩ :=
      Run.trace_arrive rules (r.departing rules slot) r.trace.ahead
    obtain ⟨now, path, steps⟩ :=
      Trace.Extends.arrive (t := (r.departing rules slot).trace) (traced.congr rfl rfl rfl) came
    exact ⟨now, path, steps⟩
  | pave c =>
    obtain ⟨turning, terminal, came⟩ :=
      Run.trace_arrive rules (r.paving rules slot c) r.trace.ahead
    obtain ⟨now, path, steps⟩ :=
      Trace.Extends.arrive (t := (r.departing rules slot).trace.place r.trace.ahead c)
        (traced.congr rfl rfl rfl) came
    exact ⟨now, path, steps⟩
  | turn t =>
    obtain ⟨terminal, same⟩ := Run.trace_turn rules r t
    rw [same]
    exact .still traced rfl rfl rfl rfl
  | call | noop | other => exact .still traced rfl rfl rfl rfl
  | paint c =>
    obtain ⟨world, visited, painted, same, -⟩ := Run.paint_frame rules r slot c
    rw [same]
    exact .still traced rfl rfl rfl rfl

theorem Dispatch.extension {rules : Rules} {r : Run} {slot : Slot} {i : Instruction}
    {drawn : Option Color} {progress : Progress}
    (dispatched : Dispatch rules r slot i drawn progress) (traced : r.trace.Traced) :
    (r.trace.record slot i r.departed).Extends progress.trace := by
  have recorded : (r.trace.record slot i r.departed).Traced :=
    traced.congr (by simp) (by simp) (by simp)
  cases dispatched with
  | earlyExit => exact .still recorded rfl rfl rfl rfl
  | act _ effect =>
    exact effect.extension recorded

/-! ## Instructions that place no tile -/

def Trace.PlacesNothing (t : Trace) (action : Action) : Prop :=
  action = .forward → t.world.Contains t.ahead → (t.world.tile? t.ahead).isSome = true

@[simp]
theorem Trace.placesNothing_record (t : Trace) (slot : Slot) (i : Instruction)
    (departed : List Position) (action : Action) :
    (t.record slot i departed).PlacesNothing action ↔ t.PlacesNothing action := by
  simp [PlacesNothing, ahead]

theorem Effect.unpainted_eq {rules : Rules} {r : Run} {slot : Slot} {action : Action}
    {drawn : Option Color} {progress : Progress}
    (effect : Effect rules r slot action drawn progress) (nothing : r.trace.PlacesNothing action) :
    progress.trace.unpainted = r.trace.unpainted := by
  cases effect with
  | boundary => rfl
  | move =>
    obtain ⟨turning, terminal, came⟩ :=
      Run.trace_arrive rules (r.departing rules slot) r.trace.ahead
    rw [came]
    rfl
  | pave c inside void =>
    have there := nothing rfl inside
    rw [void] at there
    cases there
  | turn t =>
    obtain ⟨terminal, same⟩ := Run.trace_turn rules r t
    rw [same]
  | call | noop | other => rfl
  | paint c =>
    obtain ⟨world, visited, painted, same, -⟩ := Run.paint_frame rules r slot c
    rw [same]
    rfl

theorem Effect.placesNothing {rules : Rules} {r : Run} {slot : Slot} {action : Action}
    {drawn : Option Color} {progress : Progress}
    (effect : Effect rules r slot action drawn progress) (grounded : r.trace.Grounded)
    (old : ∀ q, (progress.trace.unpainted.tile? q).isSome = true →
      (r.trace.unpainted.tile? q).isSome = true) : r.trace.PlacesNothing action := by
  intro forward inside
  cases effect with
  | boundary outside => exact absurd inside outside
  | move tile onto => simp [onto]
  | pave c =>
    obtain ⟨turning, terminal, came⟩ :=
      Run.trace_arrive rules (r.paving rules slot c) r.trace.ahead
    have placed := (grounded.tile?_place inside c r.trace.ahead).2
    rw [if_pos rfl] at placed
    rw [← grounded.placed]
    apply old
    rw [came]
    exact congrArg Option.isSome placed
  | turn | call | paint | noop | other => cases forward

theorem Dispatch.unpainted_eq {rules : Rules} {r : Run} {slot : Slot} {i : Instruction}
    {drawn : Option Color} {progress : Progress}
    (dispatched : Dispatch rules r slot i drawn progress)
    (nothing : r.trace.PlacesNothing i.action) :
    progress.trace.unpainted = r.trace.unpainted := by
  cases dispatched with
  | earlyExit => exact Trace.unpainted_record _ _ _ _
  | act _ effect =>
    rw [effect.unpainted_eq (by simpa using nothing)]
    exact Trace.unpainted_record _ _ _ _

theorem Dispatch.placesNothing {rules : Rules} {r : Run} {slot : Slot} {i : Instruction}
    {drawn : Option Color} {next : Run} (dispatched : Dispatch rules r slot i drawn (.running next))
    (grounded : r.trace.Grounded)
    (old : ∀ q, (next.trace.unpainted.tile? q).isSome = true →
      (r.trace.unpainted.tile? q).isSome = true) : r.trace.PlacesNothing i.action := by
  cases dispatched with
  | act _ effect =>
    have nothing := effect.placesNothing (grounded.congr (by simp) (by simp) (by simp))
      (by simpa using old)
    simpa using nothing

/-! ## Many instructions -/

structure Trace.Onward (t u : Trace) : Prop where
  steps : t.steps ≤ u.steps
  path : ∀ q ∈ t.path, q ∈ u.path
  precedes : t.Precedes u

theorem Trace.Onward.refl (t : Trace) : t.Onward t :=
  ⟨Nat.le_refl _, fun _ there => there, .congr rfl rfl rfl⟩

theorem Trace.Onward.trans {t u v : Trace} (first : t.Onward u) (second : u.Onward v) :
    t.Onward v where
  steps := Nat.le_trans first.steps second.steps
  path q there := second.path q (first.path q there)
  precedes := first.precedes.trans second.precedes

namespace Event.Follows

variable {rules : Rules} {r : Run} {e : Event}

theorem grounded (follows : e.Follows rules r) (grounded : r.trace.Grounded) :
    e.after.trace.Grounded := by
  obtain ⟨drawn, dispatched⟩ := follows.dispatched
  rw [follows.before] at dispatched
  exact dispatched.grounded grounded

theorem extension (follows : e.Follows rules r) (traced : r.trace.Traced) :
    (r.trace.record e.slot e.instruction r.departed).Extends e.after.trace := by
  obtain ⟨drawn, dispatched⟩ := follows.dispatched
  rw [follows.before] at dispatched
  exact dispatched.extension traced

theorem onward (follows : e.Follows rules r) (grounded : r.trace.Grounded)
    (traced : r.trace.Traced) : r.trace.Onward e.after.trace := by
  have extended := follows.extension traced
  obtain ⟨drawn, dispatched⟩ := follows.dispatched
  rw [follows.before] at dispatched
  refine ⟨?_, fun q there => ?_, (Trace.precedes_record _ _ _ _).trans (dispatched.precedes grounded)⟩
  · rw [extended.steps, Trace.steps_record]
    exact Nat.le_succ _
  · rw [extended.path, Trace.path_record]
    exact .inl there

theorem next (follows : e.Follows rules r) {next : Run} (went : e.after = .running next)
    (grounded : r.trace.Grounded) (traced : r.trace.Traced) :
    next.trace.Grounded ∧ next.trace.Traced ∧ r.trace.Onward next.trace := by
  have known := And.intro (follows.grounded grounded)
    (And.intro (follows.extension traced).traced (follows.onward grounded traced))
  rw [went] at known
  exact known

theorem unpainted_eq (follows : e.Follows rules r) {next : Run} (went : e.after = .running next)
    (nothing : r.trace.PlacesNothing e.instruction.action) :
    next.trace.unpainted = r.trace.unpainted := by
  obtain ⟨drawn, dispatched⟩ := follows.dispatched
  rw [follows.before, went] at dispatched
  exact dispatched.unpainted_eq nothing

theorem steps_succ (follows : e.Follows rules r) {next : Run} (went : e.after = .running next)
    (traced : r.trace.Traced) : next.trace.steps = r.trace.steps + 1 := by
  have counted := (follows.extension traced).steps
  rw [went, Trace.steps_record] at counted
  exact counted

end Event.Follows

namespace Steps

variable {rules : Rules} {r : Run} {log : List Event} {t : Trace}

theorem follows {e : Event} (steps : Steps rules r (e :: log) t) : e.Follows rules r := by
  cases steps with
  | ended follows | step follows => exact follows

theorem onward (steps : Steps rules r log t) (grounded : r.trace.Grounded)
    (traced : r.trace.Traced) : r.trace.Onward t := by
  induction steps with
  | stop => exact .refl _
  | ended follows last =>
    have onward := follows.onward grounded traced
    rwa [last] at onward
  | step follows went _ ih =>
    obtain ⟨grounded', traced', onward⟩ := follows.next went grounded traced
    exact onward.trans (ih grounded' traced')

theorem onward_before (steps : Steps rules r log t) (grounded : r.trace.Grounded)
    (traced : r.trace.Traced) : ∀ e ∈ log, r.trace.Onward e.before.trace := by
  induction steps with
  | stop =>
    intro e mem
    cases mem
  | ended follows =>
    intro e mem
    rw [List.mem_singleton.mp mem, follows.before]
    exact .refl _
  | step follows went _ ih =>
    obtain ⟨grounded', traced', onward⟩ := follows.next went grounded traced
    intro e mem
    rcases List.mem_cons.mp mem with rfl | mem
    · rw [follows.before]
      exact .refl _
    · exact onward.trans (ih grounded' traced' e mem)

theorem placesNothing {e : Event} {next : Run} (later : Steps rules next log t)
    (follows : e.Follows rules r) (went : e.after = .running next) (grounded : r.trace.Grounded)
    (traced : r.trace.Traced) (same : t.unpainted = r.trace.unpainted) :
    r.trace.PlacesNothing e.instruction.action := by
  obtain ⟨grounded', traced', -⟩ := follows.next went grounded traced
  obtain ⟨drawn, dispatched⟩ := follows.dispatched
  rw [follows.before, went] at dispatched
  apply dispatched.placesNothing grounded
  intro q there
  obtain ⟨tile, there⟩ := Option.isSome_iff_exists.mp there
  have coming := (later.onward grounded' traced').precedes.tiles q tile there
  rw [same] at coming
  exact Option.isSome_iff_exists.mpr ⟨tile, coming⟩

end Steps

end GridRobot
