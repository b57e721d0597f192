import WaveFinder.Command.Run
import WaveFinder.Proofs.Search.Participants
import WaveFinder.Proofs.Settings.LocalDomain

/-!
# Proofs/Command/Search — a search on the command line is a search of the library

    search -r file --limit n words ──ofArguments?──▸ search command ──execute──▸ lines
                     words ──queryText, Plan.ofText──▸ plan ──Plan.ids──▸ ids

Options whose values follow them are read one after the other, and the first word ends them
(`Grammar.read?_option`, `Grammar.read?_words`).  With settings that have no fault a search is what
it finds, or what is wrong (`run_search`), and the limit only says how much of it is shown.  The
text is looked at before the file, so what is wrong with it hides the file; and a plan exists
exactly if the text is a query whose participants all have addresses (`Plan.exists_ofText_iff`).
-/

namespace WaveFinder

open Query Text

/-! ## Reading arguments -/

/-- An argument that is no option: it does not begin with a dash. -/
def IsOperand (arg : String) : Prop :=
  arg.toList.head? ≠ some '-'

instance : DecidablePred IsOperand := fun arg =>
  inferInstanceAs (Decidable (arg.toList.head? ≠ some '-'))

namespace Grammar

variable {g : Grammar} {arg value : String} {flag : Flag} {words : List String}

theorem look_of_isOperand (h : IsOperand arg) : look arg = .word := by
  rw [look]
  split <;> simp_all [IsOperand]

/-- An argument is the long or the short name of an option, without a value. -/
inductive Names (g : Grammar) (arg : String) (flag : Flag) : Prop
  | long {name : String} (looks : look arg = .long name none) (ne : name ≠ "help")
      (finds : g.flags.find? (fun f => f.long == name) = some flag)
  | short {letter : Char} (looks : look arg = .short letter none) (ne : letter ≠ 'h')
      (finds : g.flags.find? (fun f => f.short == some letter) = some flag)

/-- **An option is read together with the value that follows it**, before what comes after. -/
theorem read?_option (harg : g.Names arg flag) (hvalue : IsOperand value) (rest : List String) :
    g.read? (arg :: value :: rest) = (g.read? rest).map (Arguments.withOption flag.long value) := by
  have hlook : isValue value = true := by rw [isValue, look_of_isOperand hvalue, beq_self_eq_true]
  cases harg with
  | long looks ne finds =>
    rw [read?, looks]
    simp [finds, hlook]
  | short looks ne finds =>
    rw [read?, looks]
    simp [finds, hlook]

/-- **The first word ends the options**, and what follows it may look like anything. -/
theorem read?_words (hg : g.takesWords = true) (hwords : ∀ word ∈ words.head?, IsOperand word) :
    g.read? words = some { words } := by
  rcases words with _ | ⟨word, words⟩
  · rfl
  · have hlook := look_of_isOperand (hwords word rfl)
    rcases words with _ | ⟨next, words⟩ <;> rw [read?, hlook] <;> simp [wordsOnly?, hg]

end Grammar

namespace Command

/-! ## The command line of a search -/

variable {file : String} {limit : Option Nat} {words : List String}

/-- The arguments of a search. -/
def searchArguments (file : String) (limit : Option Nat) (words : List String) : List String :=
  "-r" :: file :: (limit.toList.flatMap fun n => ["--limit", toString n]) ++ words

/-- The command line of a search. -/
def searchLine (file : String) (limit : Option Nat) (words : List String) : List String :=
  "search" :: searchArguments file limit words

/-- What a search can be asked for: the file has a name, the limit is a 64-bit word, and neither the
name nor the first of the words is taken for an option. -/
structure IsSearch (file : String) (limit : Option Nat) (words : List String) : Prop where
  file_ne : file ≠ ""
  file_isOperand : IsOperand file
  limit_lt : ∀ n ∈ limit, n < UInt64.size
  words_isOperand : ∀ word ∈ words.head?, IsOperand word

/-- What the arguments of a search are read as. -/
def searchGiven (file : String) (limit : Option Nat) (words : List String) : Arguments where
  given := ("records", file) :: limit.toList.map fun n => ("limit", toString n)
  words := words

theorem exists_toList_toString_eq_cons (n : Nat) :
    ∃ c cs, (toString n).toList = c :: cs ∧ c.isDigit = true ∧ Numeral.ofNat n = c :: cs := by
  have htext : (toString n).toList = Numeral.ofNat n := by
    rw [Nat.toString_eq_repr, Nat.repr_eq_ofList_toDigits, String.toList_ofList, Numeral.ofNat]
  rcases h : Numeral.ofNat n with _ | ⟨c, cs⟩
  · exact absurd h (Numeral.ofNat_ne_nil n)
  · exact ⟨c, cs, htext.trans h, Numeral.isDigit_of_mem_ofNat (h ▸ List.mem_cons_self ..), rfl⟩

theorem isOperand_toString (n : Nat) : IsOperand (toString n) := by
  obtain ⟨c, cs, hcs, hdigit, -⟩ := exists_toList_toString_eq_cons n
  rw [IsOperand, hcs]
  intro heq
  obtain rfl : c = '-' := Option.some.inj heq
  exact absurd hdigit (by decide)

/-- A count that fits is read from its decimal text. -/
theorem count?_toString {n : Nat} (h : n < UInt64.size) : count? (toString n) = some n := by
  obtain ⟨c, cs, hcs, hdigit, hnumeral⟩ := exists_toList_toString_eq_cons n
  rw [count?, hcs]
  split
  · next heq =>
    obtain rfl : c = '+' := (List.cons.inj heq).1
    exact absurd hdigit (by decide)
  · rw [← hnumeral, Numeral.toNat?_ofNat, Option.filter_some]
    exact if_pos (decide_eq_true h)

theorem read?_searchArguments (hfile : IsOperand file)
    (hwords : ∀ word ∈ words.head?, IsOperand word) :
    searchGrammar.read? (searchArguments file limit words)
      = some (searchGiven file limit words) := by
  have hrecords : searchGrammar.Names "-r" searchGrammar.flags[0] := .short rfl (by decide) rfl
  have hlimit : searchGrammar.Names "--limit" searchGrammar.flags[1] := .long rfl (by decide) rfl
  have hread := Grammar.read?_words (g := searchGrammar) rfl hwords
  rw [searchArguments, List.cons_append, List.cons_append, Grammar.read?_option hrecords hfile]
  rcases limit with _ | n
  · rw [Option.toList_none, List.flatMap_nil, List.nil_append, hread]
    rfl
  · rw [Option.toList_some, List.flatMap_singleton, List.cons_append, List.cons_append,
      List.nil_append, Grammar.read?_option hlimit (isOperand_toString n), hread]
    rfl

theorem valuesOf_records : (searchGiven file limit words).valuesOf "records" = [file] := by
  cases limit <;> rfl

theorem valuesOf_limit :
    (searchGiven file limit words).valuesOf "limit" = limit.toList.map toString := by
  cases limit <;> rfl

/-- **What a search is asked for is read off its command line.** -/
theorem ofArguments?_searchLine (h : IsSearch file limit words) :
    ofArguments? (searchLine file limit words) = some (.search file limit words) := by
  have hempty : file.isEmpty = false := by
    rw [← Bool.not_eq_true, String.isEmpty_iff]
    exact h.file_ne
  have hright : searchGrammar.isRight (searchGiven file limit words) = true := by
    simp only [Grammar.isRight, searchGrammar, List.all_cons, valuesOf_records, valuesOf_limit]
    rcases limit with _ | n
    · simp [hempty]
    · have hcount : (count? (toString n)).isSome = true := by
        rw [count?_toString (h.limit_lt n rfl), Option.isSome_some]
      simpa [hempty] using hcount
  have hcount : ((searchGiven file limit words).valueOf? "limit").bind count? = limit := by
    rw [Arguments.valueOf?, valuesOf_limit]
    rcases limit with _ | n
    · rfl
    · exact count?_toString (h.limit_lt n rfl)
  calc ofArguments? (searchLine file limit words)
      = (searchGrammar.arguments? (searchArguments file limit words)).bind
          (withHelp? .search searchOf?) := rfl
    _ = searchOf? (searchGiven file limit words) := by
        rw [Grammar.arguments?, read?_searchArguments h.file_isOperand h.words_isOperand,
          Option.filter_some, if_pos hright, Option.bind_some]
        rfl
    _ = some (.search file limit words) := by
        rw [searchOf?, hcount, Arguments.valueOf?, valuesOf_records]
        rfl

end Command

/-! ## Plans of a text -/

/-- The clock of a zone is near UTC, the host's zone if its clock is. -/
theorem Zone.isNear_clock {hostClock : Clock} {z : Zone} (h : z = .host → hostClock.IsNear) :
    (z.clock hostClock).IsNear := by
  by_cases hz : z = .host
  · rw [hz]
    exact h hz
  · obtain ⟨o, h₀, h₁, -, ho⟩ := Zone.exists_clock_eq_fixed hz hostClock
    rw [ho]
    exact Clock.isNear_fixed h₀ h₁

/-- A text is a query, and all participants that it names have addresses under the domain. -/
def Query.IsSearchable (clock : Clock) (localDomain text : String) : Prop :=
  ∃ q, parse clock text = .ok q
    ∧ ∀ k, k = .creator ∨ k = .person → ∀ raw ∈ q.values k, HasAddress localDomain raw

/-- **On a clock near UTC a plan is only missing** for a fault of the text or of a participant. -/
theorem Plan.exists_ofText_iff {clock : Clock} {localDomain text : String} (hnear : clock.IsNear) :
    (∃ p, ofText clock localDomain text = .ok p) ↔ IsSearchable clock localDomain text := by
  constructor
  · rintro ⟨p, hp⟩
    obtain ⟨q, hq, hc, -⟩ := ofText_eq_ok_iff.1 hp
    obtain ⟨-, hcreators, hpeople⟩ := Criteria.ofQuery_eq_ok_iff.1 hc
    refine ⟨q, hq, ?_⟩
    rintro k (rfl | rfl)
    · exact exists_addresses_iff.1 ⟨_, hcreators⟩
    · exact exists_addresses_iff.1 ⟨_, hpeople⟩
  · rintro ⟨q, hq, haddresses⟩
    obtain ⟨c, hc⟩ := Criteria.exists_ofQuery hnear hq
      fun k hk raw hraw => hasAddress_iff.1 (haddresses k hk raw hraw)
    exact ⟨⟨c, Ranking.ofQuery q⟩, ofText_eq_ok_iff.2 ⟨q, hq, hc, rfl⟩⟩

namespace Command

/-! ## Printed ids -/

variable {limit more : Option Nat}

/-- Ids as they are printed, each on a line of its own. -/
def printed (ids : List String) : String :=
  String.join (ids.map (· ++ "\n"))

/-- The first ids, as many as the limit allows; without one, all. -/
def shown (limit : Option Nat) (ids : List String) : List String :=
  ids.take (limit.getD ids.length)

/-- A limit allows no more than another one, or than none. -/
def AllowsMore (limit more : Option Nat) : Prop :=
  ∀ n ∈ more, ∃ m ∈ limit, m ≤ n

theorem printed_append (ids ids' : List String) :
    printed (ids ++ ids') = printed ids ++ printed ids' := by
  rw [printed, List.map_append, String.join_append]
  rfl

theorem shown_prefix_shown (h : AllowsMore limit more) (ids : List String) :
    shown limit ids <+: shown more ids := by
  rcases more with _ | n
  · rw [shown, shown, Option.getD_none, List.take_length]
    exact List.take_prefix ..
  · obtain ⟨m, rfl, hmn⟩ := h n rfl
    exact List.take_prefix_take_left hmn

/-- **What is printed under a limit is how it begins under a larger one.** -/
theorem exists_printed_shown_eq (h : AllowsMore limit more) (ids : List String) :
    ∃ rest, printed (shown more ids) = printed (shown limit ids) ++ rest := by
  obtain ⟨rest, hrest⟩ := shown_prefix_shown h ids
  exact ⟨printed rest, by rw [← hrest, printed_append]⟩

end Command

/-! ## Runs -/

/-- The surroundings give settings, and these have no fault. -/
structure Surroundings.HasSettings (here : Surroundings) (s : Settings) : Prop where
  loads : Settings.load here.environment here.files = .ok s
  passes : s.validate = .ok ()

namespace Command

variable {here : Surroundings} {s : Settings} {zone : Zone} {args : List String} {file : String}
variable {limit : Option Nat} {words ids : List String}

/-- The ids of all results of a search, however many of them are to be shown, or what is wrong: the
text is looked at first, then the file. -/
def found (here : Surroundings) (s : Settings) (zone : Zone) (file : String) (words : List String) :
    Except String (List String) := do
  let plan ← (Plan.ofText (zone.clock here.hostClock) s.localDomain (queryText s words)).mapError
    Refusal.message
  match wavesIn? here.files file with
  | none => .error ("Failed to read records from " ++ file)
  | some waves => .ok (plan.ids waves)

/-- A file holds the text of a list of waves. -/
def HoldsWaves (files : Settings.Files) (file : String) (waves : List Wave) : Prop :=
  ∃ content, files file = .text content ∧ (Json.read? content).bind Wave.listOfJson? = some waves

theorem wavesIn?_eq_some_iff {files : Settings.Files} {waves : List Wave} :
    wavesIn? files file = some waves ↔ HoldsWaves files file waves := by
  rw [wavesIn?, HoldsWaves]
  cases files file <;> simp

theorem found_eq_ok_iff :
    found here s zone file words = .ok ids
      ↔ ∃ p waves,
          Plan.ofText (zone.clock here.hostClock) s.localDomain (queryText s words) = .ok p
            ∧ HoldsWaves here.files file waves ∧ p.ids waves = ids := by
  simp only [← wavesIn?_eq_some_iff]
  rw [found, Except.bind_eq_ok_iff]
  refine exists_congr fun p => ?_
  rw [Except.mapError_eq_ok_iff, exists_and_left]
  refine and_congr_right fun _ => ?_
  rcases wavesIn? here.files file with _ | waves <;> simp

/-- Ids are found if the text is searchable and the file holds waves, and only then. -/
theorem exists_found_iff (hnear : (zone.clock here.hostClock).IsNear) :
    (∃ ids, found here s zone file words = .ok ids)
      ↔ IsSearchable (zone.clock here.hostClock) s.localDomain (queryText s words)
        ∧ ∃ waves, HoldsWaves here.files file waves := by
  rw [← Plan.exists_ofText_iff hnear]
  simp only [found_eq_ok_iff]
  constructor
  · rintro ⟨_, p, waves, hp, hwaves, -⟩
    exact ⟨⟨p, hp⟩, waves, hwaves⟩
  · rintro ⟨⟨p, hp⟩, waves, hwaves⟩
    exact ⟨_, p, waves, hp, hwaves, rfl⟩

/-- **What is wrong with a text hides the file**: nothing else of the surroundings is looked at. -/
theorem found_eq_found_of_not_isSearchable (hnear : (zone.clock here.hostClock).IsNear)
    (hno : ¬ IsSearchable (zone.clock here.hostClock) s.localDomain (queryText s words))
    {there : Surroundings} (hclock : there.hostClock = here.hostClock) (file' : String) :
    found there s zone file' words = found here s zone file words := by
  rcases hp : Plan.ofText (zone.clock here.hostClock) s.localDomain (queryText s words) with r | p
  · rw [found, found, hclock, hp]
    rfl
  · exact absurd ((Plan.exists_ofText_iff hnear).1 ⟨p, hp⟩) hno

/-- With settings that have no fault a run comes to what its command does. -/
theorem run_eq {command : Command} (hs : here.HasSettings s)
    (hargs : ofArguments? args = some command) :
    run here args = match execute here s command with
      | .ok output => ⟨0, output, ""⟩
      | .error complaint => ⟨1, "", complaint⟩ := by
  rcases hexecute : execute here s command with complaint | output
  · simp only [run, hs.loads, hs.passes, hargs, hexecute]
  · simp only [run, hs.loads, hs.passes, hargs, hexecute]

/-- A search prints what it finds, as far as it is to be shown. -/
theorem execute_search (hzone : s.zone = .ok zone) :
    execute here s (.search file limit words)
      = (found here s zone file words).map fun ids => printed (shown limit ids) := by
  have hshown : ∀ ids : List String, (limit.map ids.take).getD ids = shown limit ids := by
    intro ids
    rcases limit with _ | n
    · exact List.take_length.symm
    · rfl
  calc execute here s (.search file limit words)
      = (do
          let plan ← (Plan.ofText (zone.clock here.hostClock) s.localDomain
            (queryText s words)).mapError Refusal.message
          match wavesIn? here.files file with
          | none => .error ("Failed to read records from " ++ file)
          | some waves => .ok (printed (shown limit (plan.ids waves)))) := by
        rw [execute, hzone]
        simp only [← hshown]
        rfl
    _ = (found here s zone file words).map fun ids => printed (shown limit ids) := by
        rw [found]
        rcases Plan.ofText (zone.clock here.hostClock) s.localDomain (queryText s words) with r | p
        · rfl
        · rcases wavesIn? here.files file with _ | waves
          · rfl
          · rfl

/-- **A search ends in one of two ways**: with the ids that are found, as far as they are to be
shown, or with what is wrong and nothing printed. -/
theorem run_search (hs : here.HasSettings s) (hzone : s.zone = .ok zone)
    (h : IsSearch file limit words) :
    run here (searchLine file limit words) = match found here s zone file words with
      | .ok ids => ⟨0, printed (shown limit ids), ""⟩
      | .error complaint => ⟨1, "", complaint⟩ := by
  rw [run_eq hs (ofArguments?_searchLine h), execute_search hzone]
  rcases found here s zone file words with complaint | ids
  · rfl
  · rfl

theorem queryText_eq (s : Settings) (words : List String) :
    queryText s words = if words = [] then s.defaultQuery else " ".intercalate words := by
  cases words <;> rfl

/-- **A search on the command line is a search of the library.**  Under settings that have no fault,
and with a zone for them, the text of a search is its words with a space between them, or the
default query if there are none.  The search ends with 0 if the text is searchable and the file
holds waves, and only then; it prints the ids that the plan of the text finds among the waves, as
many as the limit allows.  Otherwise it ends with 1 and prints nothing.  What is printed under a
limit is how it begins under a larger one, or under none.  A text that is not searchable comes to
the same whatever the file, its name and the limit are. -/
theorem run_searchLine (hs : here.HasSettings s)
    (hnear : Zone.parse s.timeZone = .ok .host → here.hostClock.IsNear)
    (h : IsSearch file limit words) :
    ∃ zone text, Zone.parse s.timeZone = .ok zone
      ∧ text = (if words = [] then s.defaultQuery else " ".intercalate words)
      ∧ ((run here (searchLine file limit words)).exit = 0
        ↔ IsSearchable (zone.clock here.hostClock) s.localDomain text
          ∧ ∃ waves, HoldsWaves here.files file waves)
      ∧ ((run here (searchLine file limit words)).exit = 0 → ∃ p waves,
          Plan.ofText (zone.clock here.hostClock) s.localDomain text = .ok p
            ∧ HoldsWaves here.files file waves
            ∧ (run here (searchLine file limit words)).output
              = printed (shown limit (p.ids waves)))
      ∧ ((run here (searchLine file limit words)).exit ≠ 0 →
          (run here (searchLine file limit words)).exit = 1
            ∧ (run here (searchLine file limit words)).output = "")
      ∧ (∀ more, IsSearch file more words → AllowsMore limit more → ∃ rest,
          (run here (searchLine file more words)).output
            = (run here (searchLine file limit words)).output ++ rest)
      ∧ (¬ IsSearchable (zone.clock here.hostClock) s.localDomain text →
          ∀ (there : Surroundings) (file' : String) (limit' : Option Nat), there.HasSettings s →
            there.hostClock = here.hostClock → IsSearch file' limit' words →
            run there (searchLine file' limit' words)
              = run here (searchLine file limit words)) := by
  obtain ⟨-, zone, hzone⟩ := Settings.of_validate_eq_ok hs.passes
  have hparse : Zone.parse s.timeZone = .ok zone := Except.mapError_eq_ok_iff.1 hzone
  have hnear : (zone.clock here.hostClock).IsNear :=
    Zone.isNear_clock fun hz => hnear (hz ▸ hparse)
  refine ⟨zone, queryText s words, hparse, queryText_eq s words, ?_⟩
  rw [← exists_found_iff hnear, run_search hs hzone h]
  rcases hfound : found here s zone file words with complaint | ids
  · refine ⟨iff_of_false Nat.one_ne_zero nofun, fun hexit => absurd hexit Nat.one_ne_zero,
      fun _ => ⟨rfl, rfl⟩, fun more hmore _ => ?_,
      fun hno there file' limit' hthere hclock h' => ?_⟩
    · rw [run_search hs hzone hmore, hfound]
      exact ⟨"", rfl⟩
    · rw [run_search hthere hzone h',
        found_eq_found_of_not_isSearchable hnear hno hclock file', hfound]
  · obtain ⟨p, waves, hp, hwaves, rfl⟩ := found_eq_ok_iff.1 hfound
    refine ⟨iff_of_true rfl ⟨_, rfl⟩, fun _ => ⟨p, waves, hp, hwaves, rfl⟩,
      fun hexit => absurd rfl hexit, fun more hmore hle => ?_, fun hno => ?_⟩
    · rw [run_search hs hzone hmore, hfound]
      exact exists_printed_shown_eq hle _
    · exact absurd ((Plan.exists_ofText_iff hnear).1 ⟨p, hp⟩) hno

/-- Five hours behind UTC, in the host's zone, with three waves in the file: Bob takes part in two
of them, and the one of the two that was created first stands last.  The words ask for Bob's waves
in that order, and so does the default query: under a limit of one the last wave is printed, and
without a limit that is how it begins. -/
theorem run_searchLine_firstOfTwo :
    ∃ (here : Surroundings) (s : Settings), here.HasSettings s
      ∧ Zone.parse s.timeZone = .ok .host ∧ here.hostClock.IsNear
      ∧ ∀ words ∈ [["with:bob", "orderby:createdasc"], []],
          IsSearch "r.json" (some 1) words
          ∧ (run here (searchLine "r.json" (some 1) words)).exit = 0
          ∧ (run here (searchLine "r.json" (some 1) words)).output = "c\n"
          ∧ ∃ rest, (run here (searchLine "r.json" none words)).output = "c\n" ++ rest := by
  let content := "[[\"a\"],[\"b\",[[\"conv+root\",\"bob@example.com\",5,5]]],"
    ++ "[\"c\",[[\"conv+root\",\"bob@example.com\",3,3]]]]"
  let here : Surroundings :=
    { environment := [("WAVE_SEARCH_TIME_ZONE", "local"),
        ("WAVE_SEARCH_DEFAULT_QUERY", "with:bob orderby:createdasc")]
      files := fun path => if path = "r.json" then .text content else .absent
      hostClock := Clock.fixed (-18000000) }
  let s : Settings :=
    { Settings.standard with timeZone := "local", defaultQuery := "with:bob orderby:createdasc" }
  have hs : here.HasSettings s := ⟨by decide +kernel, by decide +kernel⟩
  have hzone : Zone.parse s.timeZone = .ok .host := by decide +kernel
  have hnear : here.hostClock.IsNear := Clock.isNear_fixed (by decide) (by decide)
  let bob : Address := ⟨"bob@example.com"⟩
  let b : Wave := ⟨"b", [⟨"conv+root", bob, 5, 5, []⟩]⟩
  let c : Wave := ⟨"c", [⟨"conv+root", bob, 3, 3, []⟩]⟩
  have hwaves : (Json.read? content).bind Wave.listOfJson? = some [⟨"a", []⟩, b, c] := by
    decide +kernel
  let p : Plan := ⟨⟨⟨.modified, 0, 0⟩, [], [bob]⟩, .ofKeys [⟨.created, .ascending⟩]⟩
  have hp : Plan.ofText here.hostClock s.localDomain "with:bob orderby:createdasc" = .ok p := by
    decide +kernel
  have hids : p.ids [⟨"a", []⟩, b, c] = ["c", "b"] := by
    have hrun : p.run ([⟨"a", []⟩, b, c].map Wave.summary) = [c, b].map Wave.summary :=
      Plan.run_eq_of_pairwise (by decide +kernel) (by decide +kernel)
    exact congrArg (List.map Summary.id) hrun
  refine ⟨here, s, hs, hzone, hnear, fun words hwords => ?_⟩
  obtain ⟨hsearched, hoperand⟩ :
      (if words = [] then s.defaultQuery else " ".intercalate words)
          = "with:bob orderby:createdasc"
        ∧ ∀ word ∈ words.head?, IsOperand word := by
    revert words
    decide +kernel
  have hone : IsSearch "r.json" (some 1) words := ⟨by decide, by decide, by decide, hoperand⟩
  have hall : IsSearch "r.json" none words := ⟨by decide, by decide, nofun, hoperand⟩
  obtain ⟨zone, text, hz, htext, hexit, hprints, -, hmore, -⟩ :=
    run_searchLine hs (fun _ => hnear) hone
  obtain rfl : zone = .host := Except.ok.inj (hz.symm.trans hzone)
  obtain rfl := htext.trans hsearched
  have hsucceeds := hexit.2 ⟨(Plan.exists_ofText_iff hnear).1 ⟨p, hp⟩, _, content, rfl, hwaves⟩
  obtain ⟨p', waves, hp', ⟨content', hcontent', hwaves'⟩, houtput⟩ := hprints hsucceeds
  obtain rfl : p = p' := Except.ok.inj (hp.symm.trans hp')
  obtain rfl : content = content' := by
    cases hcontent'
    rfl
  obtain rfl : _ = waves := Option.some.inj (hwaves.symm.trans hwaves')
  rw [hids] at houtput
  refine ⟨hone, hsucceeds, houtput, ?_⟩
  have hrest := hmore none hall nofun
  rwa [houtput] at hrest

end Command

end WaveFinder
