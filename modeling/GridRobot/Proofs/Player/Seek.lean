import GridRobot.Player
import GridRobot.Proofs.Run.Log

namespace GridRobot

namespace CallStack

def spent (p : Program) : CallStack → Nat
  | [] => 0
  | f :: rest => if (p.body.get f.routine).length ≤ f.next then spent p rest + 1 else 0

def settled (p : Program) (s : CallStack) : CallStack :=
  let rest := Player.withoutSpent p s
  if rest.isEmpty then .root else rest

section Cons

variable {p : Program} {f : Frame} (rest : CallStack)

theorem settled_cons_spent (past : (p.body.get f.routine).length ≤ f.next) :
    settled p (f :: rest) = settled p rest := by
  simp [settled, Player.withoutSpent, past]

theorem settled_cons (left : ¬ (p.body.get f.routine).length ≤ f.next) :
    settled p (f :: rest) = f :: rest := by
  simp [settled, Player.withoutSpent, left]

theorem next_cons_spent (tile : Option Tile) (past : (p.body.get f.routine).length ≤ f.next) :
    next p tile (f :: rest) = (rest, none) := by
  simp [next, fetch, fetch.fetchFrom, Nat.not_lt.mpr past]

end Cons

theorem settled_root (p : Program) : settled p .root = .root := by
  by_cases past : (p.body.get .f1).length ≤ 0
  · exact settled_cons_spent [] past
  · exact settled_cons [] past

theorem Finds.settled {p : Program} {tile : Option Tile} {s t : CallStack} {n : Nat} {slot : Slot}
    {i : Instruction} (finds : Finds p tile s n t slot i) :
    s.spent p ≤ n ∧ Finds p tile (s.settled p) (n - s.spent p) t slot i := by
  induction s generalizing n with
  | nil => exact ⟨Nat.zero_le n, finds.of_nil⟩
  | cons f rest ih =>
    unfold spent
    by_cases past : (p.body.get f.routine).length ≤ f.next
    · rw [if_pos past, settled_cons_spent rest past]
      have popped := next_cons_spent rest tile past
      cases finds with
      | here fetched =>
        rw [popped] at fetched
        cases fetched
      | later fetched found =>
        rw [popped, Prod.mk.injEq] at fetched
        obtain ⟨rfl, -⟩ := fetched
        obtain ⟨fewer, finds⟩ := ih found
        exact ⟨Nat.succ_le_succ fewer, by rwa [Nat.add_sub_add_right]⟩
    · rw [if_neg past, settled_cons rest past]
      exact ⟨Nat.zero_le n, finds⟩

end CallStack

namespace Player

theorem seek_succ (program : Program) (g : Game) (fetches : Nat) (s : CallStack) :
    seek program g (fetches + 1) s =
      match s.next program (g.grid.tile? g.pose.position) with
      | (t, none) => seek program g fetches t
      | (t, some found) => (t, some found) := by
  simp only [seek, CallStack.next]
  cases s.fetch program with
  | mk t slot? =>
    cases slot? with
    | none => rfl
    | some slot =>
      cases filled : program.at? slot with
      | none => simp [filled]
      | some i =>
        cases runs : i.runsOn (g.grid.tile? g.pose.position) <;> simp [filled, runs]

section Seek

variable {program : Program} {g : Game} {s t : CallStack} {n fetches : Nat} {slot : Slot}
  {i : Instruction}

theorem seek_of_finds (finds : s.Finds program (g.grid.tile? g.pose.position) n t slot i)
    (enough : n < fetches) : seek program g fetches s = (t, some (slot, i)) := by
  induction finds generalizing fetches with
  | here fetched =>
    obtain ⟨fetches, rfl⟩ := Nat.exists_eq_add_of_lt enough
    rw [Nat.zero_add, seek_succ, fetched]
  | later fetched _ ih =>
    cases fetches with
    | zero => cases enough
    | succ fetches =>
      rw [seek_succ, fetched]
      exact ih (Nat.lt_of_succ_lt_succ enough)

theorem seek_too_far (finds : s.Finds program (g.grid.tile? g.pose.position) n t slot i)
    (short : fetches ≤ n) : (seek program g fetches s).2 = none := by
  induction finds generalizing fetches with
  | here =>
    rw [Nat.le_zero.mp short]
    rfl
  | later fetched _ ih =>
    cases fetches with
    | zero => rfl
    | succ fetches =>
      rw [seek_succ, fetched]
      exact ih (Nat.le_of_succ_le_succ short)

end Seek

end Player

end GridRobot
