import WaveFinder.Proofs.Settings.Document
import WaveFinder.Proofs.Settings.Variables

/-!
# Proofs/Settings/Layers — which source a setting has its value from

    defaults ◂── document ◂── .env ◂── environment ──▸ the topmost that has a value

Each setting is looked up on its own: in the environment, then in `.env`, then in the document, and
then among the defaults (`Sources.value?`).  The layers are laid over one another as trees, and the
result is the same as long as the ways to the setting are open in all of them
(`textAt?_tree`).  They always are but for one case: a document that gives `logging` something
else than a table closes the ways beyond it, and then hides the defaults behind it.
-/

namespace WaveFinder

open Text

/-- What there is to read settings from. -/
structure Sources where
  /-- The variables of the environment. -/
  environment : Environment
  /-- The definitions of `.env`, in their order. -/
  definitions : Environment
  /-- The document that a variable names; an empty table if there is none. -/
  document : Tree

namespace Sources

open Settings WaveFinder.Tree

/-! ## Sources -/

/-- The definitions of `.env`, if there is such a file. -/
def definitionsOf (env : Environment) (files : Files) : Environment :=
  match files ".env" with
  | .text content => EnvFile.definitions env content
  | _ => []

/-- The document that a variable names, in the environment or else in `.env`.  A file that is not
there is an empty table. -/
def documentOf? (env : Environment) (files : Files) : Option Tree :=
  match (env.get? fileVariable).or ((definitionsOf env files).get? fileVariable) with
  | none => some (.table [])
  | some path =>
    match files path with
    | .absent => some (.table [])
    | .unreadable => none
    | .text content => Toml.read? content

/-- The sources that an environment and files come to; there are none if the document cannot be
read. -/
def of? (env : Environment) (files : Files) : Option Sources :=
  (documentOf? env files).map fun document =>
    { environment := env, definitions := definitionsOf env files, document }

/-- What the variable of a setting says: in the environment, or else the first time in `.env`. -/
def ofVariable? (src : Sources) (x : Setting) : Option Tree :=
  ((src.environment.last? x.variableName).or (src.definitions.get? x.variableName)).map
    VariableValue.read

/-- The value of a setting in the topmost source that has one, or else the default. -/
def value? (src : Sources) (x : Setting) : Option Tree :=
  (src.ofVariable? x).or ((src.document.at? x.path).or (standard.toTree.at? x.path))

/-- A document has a place for a setting unless it gives `logging`, where the setting is in it,
something that is no table. -/
def HasPlaceFor (src : Sources) (x : Setting) : Prop :=
  x.isLogging → ∀ t, src.document.at? ["logging"] = some t → t.isTable

/-- All variables, those of `.env` behind the others. -/
def allVariables (src : Sources) : Environment :=
  src.environment.addNew src.definitions

/-- All layers as one tree. -/
def tree (src : Sources) : Tree :=
  (treeOfEnvironment src.allVariables).overlay (src.document.overlay standard.toTree)

variable {env : Environment} {files : Files} {src : Sources} {s : Settings} {x : Setting}

theorem fullEnvironment_eq_addNew (env : Environment) (files : Files) :
    fullEnvironment env files = env.addNew (definitionsOf env files) := by
  rw [fullEnvironment, definitionsOf]
  cases files ".env" with
  | text content => exact EnvFile.apply_eq_addNew env content
  | absent => rfl
  | unreadable => rfl

theorem of_of?_eq_some (h : of? env files = some src) :
    src.environment = env ∧ src.definitions = definitionsOf env files
      ∧ documentOf? env files = some src.document := by
  obtain ⟨document, hdocument, rfl⟩ := Option.map_eq_some_iff.1 h
  exact ⟨rfl, rfl, hdocument⟩

theorem fullEnvironment_of_of?_eq_some (h : of? env files = some src) :
    fullEnvironment env files = src.allVariables := by
  obtain ⟨henv, hdefinitions, -⟩ := of_of?_eq_some h
  rw [allVariables, henv, hdefinitions, fullEnvironment_eq_addNew]

/-- Loading reads the settings off the tree of all layers. -/
theorem load_eq (env : Environment) (files : Files) :
    load env files
      = match (of? env files).bind fun src => ofTree? src.tree with
        | some s => .ok s
        | none => .error .unreadable := by
  have hfile : treeOfFile? (fullEnvironment env files) files = (of? env files).map document := by
    rw [treeOfFile?, of?, fullEnvironment_eq_addNew, Environment.get?_addNew, Option.map_map]
    exact Option.map_id'.symm
  rw [load, hfile]
  cases h : of? env files with
  | none => rfl
  | some src =>
    rw [fullEnvironment_of_of?_eq_some h]
    rfl

theorem load_eq_ok_iff :
    load env files = .ok s ↔ ∃ src, of? env files = some src ∧ ofTree? src.tree = some s := by
  rw [load_eq, ← Option.bind_eq_some_iff]
  cases (of? env files).bind fun src => ofTree? src.tree <;> simp

/-- A document is a table, and nothing stands in it twice. -/
theorem hasDistinctNames_document (h : of? env files = some src) :
    src.document.HasDistinctNames ∧ src.document.isTable := by
  obtain ⟨-, -, hdocument⟩ := of_of?_eq_some h
  have hnil : (Tree.table []).HasDistinctNames ∧ (Tree.table []).isTable :=
    ⟨hasDistinctNames_table_nil, rfl⟩
  rw [documentOf?] at hdocument
  split at hdocument
  · exact Option.some.inj hdocument ▸ hnil
  · split at hdocument
    · exact Option.some.inj hdocument ▸ hnil
    · cases hdocument
    · exact Toml.hasDistinctNames_of_read?_eq_some hdocument

/-! ## Typed settings -/

theorem textOf?_eq_some_iff {t : Option Tree} {v : String} :
    textOf? t = some v ↔ t = some (.text v) := by
  rcases t with _ | (_ | _ | _ | _) <;> simp [textOf?]

theorem loggingOfTree?_table_eq_some_iff {es : List (String × Tree)} {l : Logging} :
    loggingOfTree? (.table es) = some l
      ↔ valueOf? "format" es = some (.text l.format)
        ∧ valueOf? "default_level" es = some (.text l.level)
        ∧ valueOf? "dependency_filter" es = l.dependencies.map .text := by
  constructor
  · intro h
    obtain ⟨format, hformat, h⟩ := Option.bind_eq_some_iff.1 h
    obtain ⟨level, hlevel, h⟩ := Option.bind_eq_some_iff.1 h
    have hformat := textOf?_eq_some_iff.1 hformat
    have hlevel := textOf?_eq_some_iff.1 hlevel
    dsimp only at h
    split at h
    · next hnone =>
      cases h
      exact ⟨hformat, hlevel, hnone⟩
    · next hsome =>
      cases h
      exact ⟨hformat, hlevel, hsome⟩
    · cases h
  · rintro ⟨hformat, hlevel, hdependencies⟩
    rw [loggingOfTree?, hformat, hlevel, hdependencies]
    obtain ⟨format, level, _ | dependencies⟩ := l <;> rfl

/-- What is no table and says how the program logs is a list of three texts, and perhaps more. -/
theorem exists_list_of_loggingOfTree?_eq_some {t : Tree} {l : Logging}
    (h : loggingOfTree? t = some l) (ht : t.isTable = false) :
    ∃ format level dependencies rest,
      t = .list (.text format :: .text level :: .text dependencies :: rest)
        ∧ l = { format, level, dependencies := some dependencies } := by
  unfold loggingOfTree? at h
  split at h
  · cases ht
  · next format level dependencies rest =>
    exact ⟨format, level, dependencies, rest, rfl, (Option.some.inj h).symm⟩
  · cases h

/-- The settings that are read off a tree are those that stand in it. -/
theorem ofTree?_eq_some_iff {t : Tree} :
    ofTree? t = some s
      ↔ (∀ x : Setting, x.isLogging = false → at? x.path t = (x.valueIn s).map .text)
        ∧ ∃ l, at? ["logging"] t = some l ∧ loggingOfTree? l = some s.logging := by
  cases t with
  | table es =>
    simp only [at?_singleton]
    constructor
    · intro h
      obtain ⟨localDomain, hdomain, h⟩ := Option.bind_eq_some_iff.1 h
      obtain ⟨timeZone, hzone, h⟩ := Option.bind_eq_some_iff.1 h
      obtain ⟨defaultQuery, hquery, h⟩ := Option.bind_eq_some_iff.1 h
      obtain ⟨logging, hlogging, h⟩ := Option.bind_eq_some_iff.1 h
      cases h
      refine ⟨fun x hx => ?_, Option.bind_eq_some_iff.1 hlogging⟩
      cases x with
      | localDomain => exact (at?_singleton _ es).trans (textOf?_eq_some_iff.1 hdomain)
      | timeZone => exact (at?_singleton _ es).trans (textOf?_eq_some_iff.1 hzone)
      | defaultQuery => exact (at?_singleton _ es).trans (textOf?_eq_some_iff.1 hquery)
      | format | level | dependencies => cases hx
    · rintro ⟨htop, l, hl, hlogging⟩
      have hdomain := (at?_singleton _ es).symm.trans (htop .localDomain rfl)
      have hzone := (at?_singleton _ es).symm.trans (htop .timeZone rfl)
      have hquery := (at?_singleton _ es).symm.trans (htop .defaultQuery rfl)
      rw [ofTree?, hdomain, hzone, hquery, hl, Option.bind_some, hlogging]
      rfl
  | text _ | scalar | list _ =>
    refine ⟨nofun, fun ⟨_, l, hl, _⟩ => ?_⟩
    cases hl

theorem at?_path_of_loggingOfTree?_eq_some {t : Tree} {es : List (String × Tree)}
    (ht : at? ["logging"] t = some (.table es)) (h : loggingOfTree? (.table es) = some s.logging)
    (hx : x.isLogging = true) : at? x.path t = (x.valueIn s).map .text := by
  obtain ⟨hformat, hlevel, hdependencies⟩ := loggingOfTree?_table_eq_some_iff.1 h
  cases x with
  | format => exact (at?_pair ht _).trans hformat
  | level => exact (at?_pair ht _).trans hlevel
  | dependencies => exact (at?_pair ht _).trans hdependencies
  | localDomain | timeZone | defaultQuery => cases hx

/-! ## Open ways -/

/-- The ways to the settings are open where no name stands twice and `logging` is a table, if it is
there at all. -/
theorem isOpenAt_path {t : Tree} (h : t.HasDistinctNames) (ht : t.isTable)
    (hx : x.isLogging → ∀ sub, at? ["logging"] t = some sub → sub.isTable) :
    IsOpenAt x.path t := by
  obtain ⟨name, -, hpath⟩ | ⟨name, hlogging, hpath⟩ := x.exists_path_eq
  · exact hpath ▸ isOpenAt_singleton h ht name
  · exact hpath ▸ isOpenAt_pair h ht (hx hlogging) name

theorem hasDistinctNames_standard : standard.toTree.HasDistinctNames := by
  refine .table (by decide) ?_
  simp only [List.forall_mem_cons]
  refine ⟨.text _, .text _, .text _, .table (by decide) ?_, nofun⟩
  simp only [standard, Option.toList_some, List.map_cons, List.map_nil, List.cons_append,
    List.nil_append, List.forall_mem_cons]
  exact ⟨.text _, .text _, .text _, nofun⟩

theorem exists_logging_standard : ∃ es, at? ["logging"] standard.toTree = some (.table es) :=
  ⟨_, by rw [toTree, at?_singleton]; rfl⟩

theorem isOpenAt_path_standard (x : Setting) : IsOpenAt x.path standard.toTree := by
  refine isOpenAt_path hasDistinctNames_standard rfl fun _ t ht => ?_
  obtain ⟨es, hes⟩ := exists_logging_standard
  exact isTable_iff.2 ⟨es, Option.some.inj (ht.symm.trans hes)⟩

theorem isOpenAt_path_document (h : of? env files = some src) (hx : src.HasPlaceFor x) :
    IsOpenAt x.path src.document :=
  isOpenAt_path (hasDistinctNames_document h).1 (hasDistinctNames_document h).2 hx

/-! ## The layers -/

section Loaded

variable (hsrc : of? env files = some src) (hreg : src.allVariables.IsRegular)

include hreg

theorem textAt?_environment (x : Setting) :
    textAt? x.path (treeOfEnvironment src.allVariables) = (src.ofVariable? x).map text? := by
  rw [textAt?_treeOfEnvironment hreg, allVariables, Environment.last?_addNew, ofVariable?,
    Option.map_map]
  rfl

theorem isSome_at?_logging_environment :
    (at? ["logging"] (treeOfEnvironment src.allVariables)).isSome
      ↔ ∃ x : Setting, x.isLogging ∧ (src.ofVariable? x).isSome := by
  rw [isSome_at?_logging_treeOfEnvironment hreg, allVariables]
  simp only [Environment.last?_addNew, ofVariable?, Option.isSome_map]

include hsrc

theorem isOpenAt_path_tree (hx : src.HasPlaceFor x) : IsOpenAt x.path src.tree :=
  (isOpenAt_path_treeOfEnvironment hreg x).overlay
    ((isOpenAt_path_document hsrc hx).overlay (isOpenAt_path_standard x))

/-- **At an open way the layers have the value of the topmost source.** -/
theorem textAt?_tree (hx : src.HasPlaceFor x) :
    textAt? x.path src.tree = (src.value? x).map text? := by
  have henv := isOpenAt_path_treeOfEnvironment hreg x
  have hdocument := isOpenAt_path_document hsrc hx
  have hstandard := isOpenAt_path_standard x
  rw [tree, textAt?_overlay henv (hdocument.overlay hstandard),
    textAt?_overlay hdocument hstandard, textAt?_environment hreg, value?,
    Option.map_or, Option.map_or]
  rfl

theorem at?_path_tree_eq_iff (hx : src.HasPlaceFor x) {v : Option String} :
    at? x.path src.tree = v.map .text ↔ v.map Tree.text = src.value? x := by
  have htext := textAt?_tree hsrc hreg hx
  rw [eq_comm (a := v.map Tree.text), ← map_text?_eq_map_some_iff, ← map_text?_eq_map_some_iff,
    ← htext, textAt?]

/-- **Values that are texts make settings.** -/
theorem ofTree?_tree_of_forall (hplace : ∀ x, src.HasPlaceFor x)
    (h : ∀ x : Setting, (x.valueIn s).map Tree.text = src.value? x) :
    ofTree? src.tree = some s := by
  have hat (x : Setting) : at? x.path src.tree = (x.valueIn s).map .text :=
    (at?_path_tree_eq_iff hsrc hreg (hplace x)).2 (h x)
  obtain ⟨l, hl, -⟩ := Option.bind_eq_some_iff.1 ((at?_cons ..).symm.trans (hat .format))
  obtain ⟨es, rfl, -⟩ :=
    ((isOpenAt_path_tree hsrc hreg (hplace .format)).of_at?_eq_some hl).exists_table
  refine ofTree?_eq_some_iff.2 ⟨fun x _ => hat x, _, hl, ?_⟩
  exact loggingOfTree?_table_eq_some_iff.2 ⟨(at?_pair hl _).symm.trans (hat .format),
    (at?_pair hl _).symm.trans (hat .level), (at?_pair hl _).symm.trans (hat .dependencies)⟩

/-- What is no table in the document hides the defaults, and is hidden by any variable. -/
theorem at?_logging_tree {t : Tree} (ht : src.document.at? ["logging"] = some t)
    (hno : t.isTable = false) :
    at? ["logging"] src.tree
      = (at? ["logging"] (treeOfEnvironment src.allVariables)).or (some t) := by
  have henv := isOpenAt_logging_treeOfEnvironment hreg
  have hdocument : IsOpenAt ["logging"] src.document :=
    isOpenAt_singleton (hasDistinctNames_document hsrc).1 (hasDistinctNames_document hsrc).2 _
  have hstandard : IsOpenAt ["logging"] standard.toTree :=
    isOpenAt_singleton hasDistinctNames_standard rfl _
  obtain ⟨es, hes⟩ := exists_logging_standard
  rw [tree, at?_overlay henv (hdocument.overlay hstandard), at?_overlay hdocument hstandard, ht,
    hes, Option.merge_some_some, overlay_eq_left (.inl hno)]
  cases at? ["logging"] (treeOfEnvironment src.allVariables) with
  | none => rfl
  | some upper => exact congrArg some (overlay_eq_left (.inr hno))

variable (hs : ofTree? src.tree = some s)

include hs

/-- **Where the document has a place for a setting, it has the value of the topmost source.** -/
theorem valueIn_eq_value? (hx : src.HasPlaceFor x) :
    (x.valueIn s).map Tree.text = src.value? x := by
  obtain ⟨htop, l, hl, hlogging⟩ := ofTree?_eq_some_iff.1 hs
  refine (at?_path_tree_eq_iff hsrc hreg hx).1 ?_
  obtain ⟨name, hx', -⟩ | ⟨name, hx', hpath⟩ := x.exists_path_eq
  · exact htop x hx'
  · have hopen := isOpenAt_path_tree hsrc hreg hx
    rw [hpath] at hopen
    obtain ⟨es, rfl, -⟩ := (hopen.of_at?_eq_some hl).exists_table
    exact at?_path_of_loggingOfTree?_eq_some hl hlogging hx'

/-- Variables of `logging` leave nothing of what is no table in the document. -/
theorem valueIn_eq_ofVariable? {t : Tree} (ht : src.document.at? ["logging"] = some t)
    (hno : t.isTable = false) {y : Setting} (hy : y.isLogging)
    (hset : (src.ofVariable? y).isSome) (hx : x.isLogging) :
    (x.valueIn s).map Tree.text = src.ofVariable? x := by
  obtain ⟨-, l, hl, hlogging⟩ := ofTree?_eq_some_iff.1 hs
  obtain ⟨upper, hupper⟩ := Option.isSome_iff_exists.1
    ((isSome_at?_logging_environment hreg).2 ⟨y, hy, hset⟩)
  have htree := at?_logging_tree hsrc hreg ht hno
  rw [hupper, Option.some_or] at htree
  obtain rfl : upper = l := Option.some.inj (htree.symm.trans hl)
  obtain ⟨name, hx', -⟩ | ⟨name, -, hpath⟩ := x.exists_path_eq
  · exact absurd (hx.symm.trans hx') (by decide)
  · have hopen := isOpenAt_path_treeOfEnvironment hreg x
    rw [hpath] at hopen
    obtain ⟨es, rfl, -⟩ := (hopen.of_at?_eq_some hupper).exists_table
    have hvalue := at?_path_of_loggingOfTree?_eq_some hl hlogging hx
    have htext := textAt?_environment hreg x
    rw [hpath, at?_cons, htree, ← hupper, ← at?_cons, ← hpath] at hvalue
    rw [textAt?, hvalue, Option.map_map] at htext
    exact (map_text?_eq_map_some_iff.1 htext.symm).symm

/-- Without them it says all itself, and is a list. -/
theorem exists_list_of_ofVariable?_eq_none {t : Tree}
    (ht : src.document.at? ["logging"] = some t) (hno : t.isTable = false)
    (hunset : ∀ y : Setting, y.isLogging → src.ofVariable? y = none) :
    ∃ format level dependencies rest,
      t = .list (.text format :: .text level :: .text dependencies :: rest)
        ∧ s.logging = { format, level, dependencies := some dependencies } := by
  obtain ⟨-, l, hl, hlogging⟩ := ofTree?_eq_some_iff.1 hs
  have hnone : at? ["logging"] (treeOfEnvironment src.allVariables) = none := by
    rw [← Option.not_isSome_iff_eq_none, isSome_at?_logging_environment hreg]
    rintro ⟨y, hy, hset⟩
    rw [hunset y hy] at hset
    cases hset
  rw [at?_logging_tree hsrc hreg ht hno, hnone, Option.none_or] at hl
  cases hl
  exact exists_list_of_loggingOfTree?_eq_some hlogging hno

end Loaded

end Sources

/-! ## Loading -/

namespace Settings

open Sources

/-- **Every setting has the value of the topmost source that has one**, wherever the document has a
place for it.  Where the document gives `logging` something that is no table, the settings in it are
what their variables say if one of them is set, and else the items of a list.  Sources that differ
in what they say on one setting make settings that differ in this one at most.  And values that are
texts, with a place for each, always load. -/
theorem load_layers {env : Environment} {files : Files}
    (hreg : (fullEnvironment env files).IsRegular) :
    (∀ s, load env files = .ok s →
        ∃ src, Sources.of? env files = some src
          ∧ (∀ x : Setting, src.HasPlaceFor x → (x.valueIn s).map Tree.text = src.value? x)
          ∧ (∀ t, src.document.at? ["logging"] = some t → t.isTable = false →
              (∀ y : Setting, y.isLogging → (src.ofVariable? y).isSome →
                ∀ x : Setting, x.isLogging → (x.valueIn s).map Tree.text = src.ofVariable? x)
              ∧ ((∀ y : Setting, y.isLogging → src.ofVariable? y = none) →
                ∃ format level dependencies rest,
                  t = .list (.text format :: .text level :: .text dependencies :: rest)
                    ∧ s.logging = { format, level, dependencies := some dependencies }))
          ∧ ∀ env' files' src' s', (fullEnvironment env' files').IsRegular →
              load env' files' = .ok s' → Sources.of? env' files' = some src' →
              ∀ y : Setting,
                (∀ x, x ≠ y → src'.ofVariable? x = src.ofVariable? x
                  ∧ src'.document.at? x.path = src.document.at? x.path) →
                ∀ x, x ≠ y → src.HasPlaceFor x → src'.HasPlaceFor x →
                  x.valueIn s' = x.valueIn s)
      ∧ ∀ src s, Sources.of? env files = some src → (∀ x, src.HasPlaceFor x) →
          (∀ x : Setting, (x.valueIn s).map Tree.text = src.value? x) →
          load env files = .ok s := by
  refine ⟨fun s hload => ?_, fun src s hsrc hplace hvalue => ?_⟩
  · obtain ⟨src, hsrc, hs⟩ := load_eq_ok_iff.1 hload
    rw [fullEnvironment_of_of?_eq_some hsrc] at hreg
    refine ⟨src, hsrc, fun x hx => valueIn_eq_value? hsrc hreg hs hx, fun t ht hno => ⟨?_, ?_⟩, ?_⟩
    · exact fun y hy hset x hx => valueIn_eq_ofVariable? hsrc hreg hs ht hno hy hset hx
    · exact exists_list_of_ofVariable?_eq_none hsrc hreg hs ht hno
    · intro env' files' src' s' hreg' hload' hsrc' y hsame x hxy hx hx'
      obtain ⟨src'', hsrc'', hs'⟩ := load_eq_ok_iff.1 hload'
      obtain rfl : src'' = src' := Option.some.inj (hsrc''.symm.trans hsrc')
      rw [fullEnvironment_of_of?_eq_some hsrc'] at hreg'
      have hvalue : src''.value? x = src.value? x := by
        rw [value?, (hsame x hxy).1, (hsame x hxy).2, value?]
      rw [← valueIn_eq_value? hsrc hreg hs hx, ← valueIn_eq_value? hsrc' hreg' hs' hx'] at hvalue
      exact Option.map_injective (fun _ _ h => Tree.text.inj h) hvalue
  · rw [fullEnvironment_of_of?_eq_some hsrc] at hreg
    exact load_eq_ok_iff.2 ⟨src, hsrc, ofTree?_tree_of_forall hsrc hreg hplace hvalue⟩

/-- Each of the four sources has a say, and the file is named in `.env`; another zone in the
environment changes nothing else. -/
theorem load_layers_zone :
    ∃ (env env' : Environment) (files : Files) (src src' : Sources) (s s' : Settings),
      load env files = .ok s ∧ Sources.of? env files = some src
        ∧ load env' files = .ok s' ∧ Sources.of? env' files = some src'
        ∧ src.value? .timeZone = some (.text "+02:00")
        ∧ src.value? .format = some (.text "json")
        ∧ src.value? .level = some (.text "info")
        ∧ src.value? .dependencies = some (.text "rayon=warn")
        ∧ s'.timeZone = "local" ∧ ∀ x : Setting, x ≠ .timeZone → x.valueIn s' = x.valueIn s := by
  let env : Environment := [("HOME", "/"), ("WAVE_SEARCH_TIME_ZONE", "+02:00")]
  let env' : Environment := [("WAVE_SEARCH_TIME_ZONE", "local")]
  let toml := "[logging]\nformat = \"text\"\ndefault_level = \"info\"\n"
  let files : Files := fun path =>
    if path = ".env" then
      .text ("WAVE_SEARCH_CONFIG=c.toml\nWAVE_SEARCH_TIME_ZONE=z\n"
        ++ "WAVE_SEARCH_LOGGING__FORMAT=json\n")
    else if path = "c.toml" then .text toml
    else .absent
  let defs : Environment :=
    [("WAVE_SEARCH_CONFIG", "c.toml"), ("WAVE_SEARCH_TIME_ZONE", "z"),
      ("WAVE_SEARCH_LOGGING__FORMAT", "json")]
  let s : Settings :=
    { standard with
      timeZone := "+02:00"
      logging := { standard.logging with format := "json", level := "info" } }
  let s' : Settings := { s with timeZone := "local" }
  have hload : load env files = .ok s := by decide +kernel
  have hload' : load env' files = .ok s' := by decide +kernel
  have hdefs : definitionsOf env files = defs := by decide +kernel
  have hdefs' : definitionsOf env' files = defs := by decide +kernel
  have hreg : (fullEnvironment env files).IsRegular := by
    rw [fullEnvironment_eq_addNew, hdefs]
    decide +kernel
  have hreg' : (fullEnvironment env' files).IsRegular := by
    rw [fullEnvironment_eq_addNew, hdefs']
    decide +kernel
  have htable : ((Toml.read? toml).all fun document =>
      (document.at? ["logging"]).all Tree.isTable) = true := by decide +kernel
  -- both loads read the same file, which `.env` names
  have hnamed (e : Environment) (he : e.get? fileVariable = none)
      (h : definitionsOf e files = defs) : documentOf? e files = Toml.read? toml := by
    have hfile : files "c.toml" = .text toml := rfl
    have hname : defs.get? fileVariable = some "c.toml" := rfl
    simp only [documentOf?, he, h, hname, Option.none_or, hfile]
  obtain ⟨src, hsrc, hvalue, -, hframe⟩ := (load_layers hreg).1 s hload
  obtain ⟨src', hsrc', -⟩ := (load_layers hreg').1 s' hload'
  obtain ⟨henv, hdefinitions, hdocument⟩ := of_of?_eq_some hsrc
  obtain ⟨henv', hdefinitions', hdocument'⟩ := of_of?_eq_some hsrc'
  rw [hnamed env rfl hdefs] at hdocument
  rw [hnamed env' rfl hdefs'] at hdocument'
  have hsame : src'.document = src.document :=
    Option.some.inj (hdocument'.symm.trans hdocument)
  have hplace (x : Setting) : src.HasPlaceFor x := by
    intro _ t ht
    rw [hdocument, Option.all_some, ht] at htable
    exact htable
  have hplace' (x : Setting) : src'.HasPlaceFor x := by
    rw [HasPlaceFor, hsame]
    exact hplace x
  refine ⟨env, env', files, src, src', s, s', hload, hsrc, hload', hsrc',
    (hvalue _ (hplace _)).symm, (hvalue _ (hplace _)).symm, (hvalue _ (hplace _)).symm,
    (hvalue _ (hplace _)).symm, rfl, fun x hx => ?_⟩
  refine hframe env' files src' s' hreg' hload' hsrc' .timeZone (fun x hx => ⟨?_, ?_⟩) x hx
    (hplace x) (hplace' x)
  · rw [ofVariable?, ofVariable?, henv, henv', hdefinitions, hdefinitions', hdefs, hdefs']
    cases x with
    | timeZone => exact absurd rfl hx
    | _ => rfl
  · rw [hsame]

/-- A text for `logging` hides the defaults there, also if variables give two of its settings. -/
theorem not_forall_valueIn_eq :
    ¬ ∀ (env : Environment) (files : Files) (s : Settings),
      (fullEnvironment env files).IsRegular → load env files = .ok s →
        ∃ src, Sources.of? env files = some src
          ∧ ∀ x : Setting, (x.valueIn s).map Tree.text = src.value? x := by
  let env : Environment :=
    [("WAVE_SEARCH_CONFIG", "c.toml"), ("WAVE_SEARCH_LOGGING__FORMAT", "json"),
      ("WAVE_SEARCH_LOGGING__DEFAULT_LEVEL", "info")]
  let files : Files := fun path =>
    if path = "c.toml" then .text "logging = \"json\"\n" else .absent
  let s : Settings :=
    { standard with logging := { format := "json", level := "info", dependencies := none } }
  have hload : load env files = .ok s := by decide +kernel
  have hreg : (fullEnvironment env files).IsRegular := by decide +kernel
  have hvalue : ((Sources.of? env files).map fun src => (src.value? .dependencies).map Tree.text?)
      = some (some (some "rayon=warn")) := by decide +kernel
  intro h
  obtain ⟨src, hsrc, hx⟩ := h env files s hreg hload
  rw [hsrc, Option.map_some, ← hx .dependencies] at hvalue
  cases hvalue

end Settings

end WaveFinder
