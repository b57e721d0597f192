import WaveFinder.Command.Run
import WaveFinder.Proofs.Form.Building

/-!
# Proofs/Command/Build — what `build` prints

    arguments ──ofArguments?──▸ build form ──execute──▸ text and a line feed

A run without a fault prints what its command comes to (`execute_of_exit_eq_zero`), and a command
line that asks for a query fills in a form entry by entry.  So what is known of built queries holds
of what is printed: the line feed at its end is one more blank (`tokens_append_newline`).
-/

namespace WaveFinder

open Query Text

theorem Query.tokens_append_newline (s : String) : tokens (s ++ "\n") = tokens s := by
  have hnewline : (s ++ "\n").toList = s.toList ++ '\n' :: [] := by
    rw [String.toList_append]
    rfl
  rw [tokens, hnewline, runs_append_cons (by decide)]
  exact List.append_nil _

namespace Command

variable {here : Surroundings} {args : List String}

/-! ## Runs without a fault -/

theorem execute_of_exit_eq_zero {command : Command} (hargs : ofArguments? args = some command)
    (hexit : (run here args).exit = 0) :
    ∃ s, execute here s command = .ok (run here args).output := by
  revert hexit
  rw [run]
  rcases Settings.load here.environment here.files with fault | s
  · exact fun hexit => absurd hexit Nat.one_ne_zero
  dsimp only
  rcases s.validate with fault | _
  · exact fun hexit => absurd hexit Nat.one_ne_zero
  dsimp only
  rw [hargs]
  dsimp only
  rcases hrun : execute here s command with complaint | output
  · exact fun hexit => absurd hexit Nat.one_ne_zero
  · exact fun _ => ⟨s, hrun⟩

/-! ## Command lines that ask for a query -/

variable {form : Form}

theorem exists_of_withHelp? {topic : Topic} {command? : Arguments → Option Command}
    {a? : Option Arguments} (h : a?.bind (withHelp? topic command?) = some (.build form)) :
    ∃ a, command? a = some (.build form) := by
  obtain ⟨a, -, ha⟩ := Option.bind_eq_some_iff.1 h
  rw [withHelp?] at ha
  split at ha
  · exact absurd ha (by simp)
  · exact ⟨a, ha⟩

/-- No command line but one of `build` asks for a query. -/
theorem exists_eq_buildOf (h : ofArguments? args = some (.build form)) :
    ∃ a, Command.build form = buildOf a := by
  rcases args with _ | ⟨name, args⟩
  · exact absurd h (by simp [ofArguments?])
  dsimp only [ofArguments?] at h
  split at h
  · obtain ⟨a, ha⟩ := exists_of_withHelp? h
    exact absurd ha (by simp)
  · obtain ⟨a, ha⟩ := exists_of_withHelp? h
    obtain ⟨file, -, ha⟩ := Option.map_eq_some_iff.1 ha
    cases ha
  · obtain ⟨a, ha⟩ := exists_of_withHelp? h
    exact ⟨a, (Option.some.inj ha).symm⟩
  · split at h
    · cases h
    · obtain ⟨topic, -, h⟩ := Option.map_eq_some_iff.1 h
      cases h
    · cases h
  · split at h <;> cases h

theorem exists_eq_ofEntries (h : ofArguments? args = some (.build form)) :
    ∃ es, form = Form.ofEntries es := by
  obtain ⟨a, ha⟩ := exists_eq_buildOf h
  exact ⟨_, Command.build.inj ha⟩

/-! ## The printed query -/

/-- **What `build` prints is read in UTC** exactly if the days of the period that goes in are of
years 0 to 9999. -/
theorem parse_output_build_iff (hargs : ofArguments? args = some (.build form))
    (hexit : (run here args).exit = 0) :
    (∃ q, Query.parse Clock.utc (run here args).output = .ok q)
      ↔ ∀ field period, form.dating? = some (field, period) →
          ∀ d ∈ period.days, 0 ≤ d.year ∧ d.year ≤ 9999 := by
  obtain ⟨es, rfl⟩ := exists_eq_ofEntries hargs
  obtain ⟨s, hs⟩ := execute_of_exit_eq_zero hargs hexit
  obtain ⟨printed, hprinted, htext⟩ := Except.map_eq_ok_iff.1 (Except.mapError_eq_ok_iff.1 hs)
  rw [← htext, parse_of_tokens (tokens_append_newline printed)]
  exact Form.exists_parse_query_iff (fun _ => Form.isWord_of_mem_ofEntries) hprinted

/-- A day with a sign and blanks in it is taken, and what is printed for it is not read. -/
example :
    run ⟨[], fun _ => .absent, Clock.utc⟩ ["build", "--created-from", "+10000 1 1"]
        = ⟨0, "in:inbox usedate:createdate from:+100000101\n", ""⟩
      ∧ Query.parse Clock.utc "in:inbox usedate:createdate from:+100000101\n"
        = .error (.invalidDay "+100000101") :=
  ⟨rfl, rfl⟩

end Command

end WaveFinder
