import GridRobot.Command.Perform
import GridRobot.Proofs.Config.Record
import GridRobot.Proofs.Record.Legible
import GridRobot.Proofs.Search.Accounts

namespace GridRobot

variable {σ τ : Type} [RandomSource σ] [Clock τ]

/-! ## What a search packages -/

namespace Attempt

variable {rules : SearchRules} {a : Attempt}

theorem wellFormed_puzzle (made : a.MadeBy rules σ) : (a.puzzle rules.config).WellFormed := by
  obtain ⟨-, source, after, ran⟩ := made
  obtain ⟨between, executed, -⟩ := simulate_eq_ok.mp ran
  have grounded : ((a.puzzle rules.config).grid.tile? (a.puzzle rules.config).start.position).isSome
      = true := by
    change ((a.trace.unpainted.withStars a.trace.starPositions).tile? a.trace.start.position).isSome = true
    rw [Grid.tile?_withStars, Option.isSome_map]
    exact standing_start_of_execute executed
  refine ⟨?_, grounded, fun action allowed => (Action.mem_allowedActions.mp allowed).isKnown⟩
  obtain ⟨tile, here⟩ := Option.isSome_iff_exists.mp grounded
  obtain ⟨-, -, nonneg, below⟩ := Grid.contains_of_tile? here
  omega

theorem wellFormed_solution (made : a.MadeBy rules σ) : a.solution.WellFormed :=
  Program.wellFormed_of_at? fun _ _ held => (Action.mem_allowedActions.mp (mem_allowed made held)).isKnown

end Attempt

/-! ## Files -/

namespace Command

theorem configOf_eq_ok {members : List (String × Json)} {c : Config} (valid : c.Valid)
    (held : member members "config" = c.toRecord) (preset : String) :
    configOf members preset = .ok c := by
  have read : Config.checked c.toRecord = .ok c := by
    rw [Config.checked, Config.ofRecord_toRecord valid]
    rfl
  rw [configOf, held]
  exact congrArg (Except.mapError Problem.load) read

theorem ofMembers_eq_ok {members : List (String × Json)} {q : Puzzle} {p : Program} {c : Config}
    (puzzle : member members "puzzle" = q.toRecord) (formed : q.WellFormed)
    (solution : member members "solution" = p.toRecord) (formed' : p.WellFormed)
    (config : member members "config" = c.toRecord) (valid : c.Valid) (preset : String) :
    Solved.ofMembers members preset = .ok ⟨q, p, c⟩ := by
  refine bind_eq_ok.mpr ⟨q, ?_, bind_eq_ok.mpr ⟨p, ?_, bind_eq_ok.mpr ⟨c, ?_, rfl⟩⟩⟩
  · rw [puzzleOf, puzzle, Puzzle.ofRecord_toRecord formed]
    rfl
  · rw [programOf, solution, Program.ofRecord_toRecord formed']
    rfl
  · exact configOf_eq_ok valid config preset

theorem readMembers_of_parse? {text : String} {members : List (String × Json)}
    (parsed : Json.parse? text = some (.object members)) (path : String) :
    readMembers path (.ok text) = .ok members := by
  refine bind_eq_ok.mpr ⟨text, rfl, ?_⟩
  simp only [parsed]
  rfl

/-- The text of a result is read as its record if the floating-point numbers in it are. -/
theorem parse?_fileText {c : Config} {r : SearchResult} (once : r.tally.keys.Nodup)
    (read : ∀ x ∈ Decimal.roundPlaces 3 r.elapsed :: c.fractions, Json.readBack? x = some x) :
    Json.parse? (fileText c r) = some (.object (fileMembers c r)) := by
  obtain ⟨elapsed, fractions⟩ := List.forall_mem_cons.mp read
  refine Json.parse?_render _ (.object ?_ ?_) 0
  · exact show ["config", "success", "outcome", "attempts", "errorType", "errorCounts", "seed", "elapsed",
      "puzzle", "solution", "diagnostics"].Nodup by decide
  · exact List.forall_mem_cons.mpr
      ⟨Config.legible_toRecord fractions, SearchResult.legible_members once elapsed⟩

/-- What a successful search leaves on file is read as the puzzle, the solution and the configuration of
that search. Its text is read as the record if the floating-point numbers in it are. -/
theorem saved_read (rules : SearchRules) (valid : rules.config.Valid) (s : Search σ τ)
    (launched : s.Launched rules) (r : SearchResult) (found : s.result = some r)
    (success : r.outcome = .success) (preset : String) :
    ∃ q p, r.puzzle = some q ∧ r.solution = some p ∧
      Solved.ofMembers (fileMembers rules.config r) preset = .ok ⟨q, p, rules.config⟩ ∧
      ((∀ x ∈ Decimal.roundPlaces 3 r.elapsed :: rules.config.fractions, Json.readBack? x = some x) →
        Json.parse? (fileText rules.config r) = some (.object (fileMembers rules.config r))) ∧
      (Json.parse? (fileText rules.config r) = some (.object (fileMembers rules.config r)) →
        ∀ (g : Generation) (file : SavedFile), (g.report rules.config r).saved = some file →
          ∀ path, (readMembers path (.ok file.text) >>= fun members => Solved.ofMembers members preset) =
            .ok ⟨q, p, rules.config⟩) := by
  obtain ⟨winner, won, made⟩ := launched.sound.result r found
  obtain ⟨a, rfl⟩ := Option.isSome_iff_exists.mp (won.success.mp success)
  have made := (made a rfl).1
  have puzzle : r.puzzle = some (a.puzzle rules.config) := won.puzzle
  have solution : r.solution = some a.solution := won.solution
  have read : Solved.ofMembers (fileMembers rules.config r) preset =
      .ok ⟨a.puzzle rules.config, a.solution, rules.config⟩ := by
    refine ofMembers_eq_ok ?_ (Attempt.wellFormed_puzzle made) ?_ (Attempt.wellFormed_solution made) rfl
      valid preset
    · change Json.ofOption Puzzle.toRecord r.puzzle = _
      rw [puzzle]
      rfl
    · change Json.ofOption Program.toRecord r.solution = _
      rw [solution]
      rfl
  refine ⟨_, _, puzzle, solution, read, parse?_fileText (launched.nodup_tally found),
    fun exact' g file saved path => ?_⟩
  obtain ⟨output, -, rfl⟩ := Option.map_eq_some_iff.mp saved
  exact bind_eq_ok.mpr ⟨_, readMembers_of_parse? exact' path, read⟩

theorem saved_read_walk :
    ∃ r q p, ((walkSearch 50).start none none).step.result = some r ∧ r.puzzle = some q ∧
      r.solution = some p ∧
      (readMembers "walk.json" (.ok (fileText (walkSearch 50).rules.config r)) >>= fun members =>
        Solved.ofMembers members "default") = .ok ⟨q, p, (walkSearch 50).rules.config⟩ := by
  obtain ⟨r, a, found, won, elapsed⟩ := exists_walk 50 (by decide +kernel)
  obtain ⟨q, p, puzzle, solution, -, exact', read⟩ := saved_read (walkSearch 50).rules (by decide) _
    (.step (.start rfl none none)) r found (won.success.mpr rfl) "default"
  have fractions : ∀ x ∈ Decimal.roundPlaces 3 (0 - 0) :: (walkSearch 50).rules.config.fractions,
      Json.readBack? x = some x := by
    decide +kernel
  rw [elapsed] at exact'
  exact ⟨r, q, p, found, puzzle, solution,
    read (exact' fractions) { output := some "walk.json" } ⟨"walk.json", _⟩ rfl "walk.json"⟩

end Command

end GridRobot
