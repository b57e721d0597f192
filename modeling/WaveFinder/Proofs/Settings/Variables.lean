import Mathlib.Data.List.Induction
import WaveFinder.Proofs.Settings.Definitions
import WaveFinder.Proofs.Settings.Overlay
import WaveFinder.Settings.Basic

/-!
# Proofs/Settings/Variables — the tree that the variables make

    variables ──ofPath──▸ one value each ──overlay──▸ a tree, the last variable on top

There are six settings, and each has a variable of its own and a path of its own; no path leads
beyond another (`Setting.eq_of_path_prefix`).  So no variable of a setting stands in the way of
another's, and at the path of a setting the tree has the last value of its variable
(`textAt?_treeOfEnvironment`) and nothing of the other ones.
-/

namespace WaveFinder

open Text

/-! ## The settings one by one -/

/-- A setting that has no settings in it. -/
inductive Setting where
  /-- The domain of names without one. -/
  | localDomain
  /-- The zone of dates. -/
  | timeZone
  /-- The query that is used when none is given. -/
  | defaultQuery
  /-- The format of the log. -/
  | format
  /-- The level that is logged when none is asked for. -/
  | level
  /-- Directives for libraries. -/
  | dependencies
  deriving DecidableEq, Repr

namespace Setting

/-- All settings. -/
def all : List Setting :=
  [localDomain, timeZone, defaultQuery, format, level, dependencies]

theorem mem_all (x : Setting) : x ∈ all := by
  cases x <;> decide

instance (p : Setting → Prop) [DecidablePred p] : Decidable (∃ x, p x) :=
  decidable_of_iff (∃ x ∈ all, p x) (exists_congr fun x => and_iff_right x.mem_all)

/-- Where a setting stands in a tree. -/
def path : Setting → List String
  | localDomain => ["local_domain"]
  | timeZone => ["time_zone"]
  | defaultQuery => ["default_query"]
  | format => ["logging", "format"]
  | level => ["logging", "default_level"]
  | dependencies => ["logging", "dependency_filter"]

/-- The variable of a setting. -/
def variableName : Setting → String
  | localDomain => "WAVE_SEARCH_LOCAL_DOMAIN"
  | timeZone => "WAVE_SEARCH_TIME_ZONE"
  | defaultQuery => "WAVE_SEARCH_DEFAULT_QUERY"
  | format => "WAVE_SEARCH_LOGGING__FORMAT"
  | level => "WAVE_SEARCH_LOGGING__DEFAULT_LEVEL"
  | dependencies => "WAVE_SEARCH_LOGGING__DEPENDENCY_FILTER"

/-- The value of a setting. -/
def valueIn (s : Settings) : Setting → Option String
  | localDomain => some s.localDomain
  | timeZone => some s.timeZone
  | defaultQuery => some s.defaultQuery
  | format => some s.logging.format
  | level => some s.logging.level
  | dependencies => s.logging.dependencies

/-- Whether a setting says how the program logs. -/
def isLogging : Setting → Bool
  | format | level | dependencies => true
  | _ => false

theorem exists_path_eq (x : Setting) :
    (∃ name, x.isLogging = false ∧ x.path = [name])
      ∨ ∃ name, x.isLogging = true ∧ x.path = ["logging", name] := by
  cases x <;> simp [isLogging, path]

theorem eq_of_path_prefix {x y : Setting} (h : x.path <+: y.path) : x = y := by
  revert h
  cases x <;> cases y <;> decide

theorem pathOfVariable?_variableName (x : Setting) :
    Settings.pathOfVariable? x.variableName = some x.path := by
  cases x <;> decide +kernel

theorem variableName_inj {x y : Setting} : x.variableName = y.variableName ↔ x = y := by
  refine ⟨fun h => ?_, congrArg _⟩
  have hpath := x.pathOfVariable?_variableName
  rw [h, y.pathOfVariable?_variableName] at hpath
  exact eq_of_path_prefix (Option.some.inj hpath ▸ List.prefix_rfl)

end Setting

theorem Settings.pathOfVariable?_fileVariable : pathOfVariable? fileVariable = none := by
  decide +kernel

/-! ## Environments -/

namespace Environment

open Settings

/-- Whether a name is one of the program's own: it begins like one, the case of its letters and the
blanks around it apart. -/
def isOwn (name : String) : Bool :=
  (variableStart.toList.map Char.toLower).isPrefixOf
    ((trim isBlank name.toList).map Char.toLower)

/-- All variables of the program's own are the one that names the file and those of settings. -/
def IsRegular (env : Environment) : Prop :=
  ∀ v ∈ env, isOwn v.1 = true → v.1 = fileVariable ∨ ∃ x : Setting, v.1 = x.variableName

instance (env : Environment) : Decidable env.IsRegular :=
  inferInstanceAs (Decidable (∀ v ∈ env, _ → _))

theorem isOwn_of_pathOfVariable?_eq_some {name : String} {path : List String}
    (h : pathOfVariable? name = some path) : isOwn name = true := by
  rw [pathOfVariable?] at h
  split at h
  · cases h
  · next hstart =>
    rw [isOwn, List.isPrefixOf_iff_prefix, List.prefix_iff_eq_take]
    exact (not_not.1 hstart).symm

/-- A variable of a regular environment is that of a setting, or it makes nothing. -/
theorem IsRegular.cases {env : Environment} (h : env.IsRegular) {v : String × String}
    (hv : v ∈ env) :
    (∃ x : Setting, v.1 = x.variableName)
      ∨ pathOfVariable? v.1 = none ∧ ∀ x : Setting, v.1 ≠ x.variableName := by
  by_cases hx : ∃ x : Setting, v.1 = x.variableName
  · exact .inl hx
  · refine .inr ⟨?_, not_exists.1 hx⟩
    cases hpath : pathOfVariable? v.1 with
    | none => rfl
    | some path =>
      obtain hfile | hsetting := h v hv (isOwn_of_pathOfVariable?_eq_some hpath)
      · rw [hfile, pathOfVariable?_fileVariable] at hpath
        cases hpath
      · exact absurd hsetting hx

end Environment

/-! ## The tree -/

namespace Settings

open WaveFinder.Tree

variable {env : Environment} {path : List String}

/-- One more variable: that of a setting is laid over what those before it make, and another one
adds nothing. -/
theorem treeOfEnvironment_append_singleton {v : String × String}
    (h : Environment.IsRegular (env ++ [v])) :
    env.IsRegular
      ∧ ((∃ x : Setting, v.1 = x.variableName
          ∧ treeOfEnvironment (env ++ [v])
            = (ofPath x.path (VariableValue.read v.2)).overlay (treeOfEnvironment env))
        ∨ (∀ x : Setting, v.1 ≠ x.variableName)
          ∧ treeOfEnvironment (env ++ [v]) = treeOfEnvironment env) := by
  refine ⟨fun w hw => h w (List.mem_append_left _ hw), ?_⟩
  obtain ⟨x, hx⟩ | ⟨hnone, hne⟩ := h.cases (List.mem_append_right _ (List.mem_singleton_self v))
  · refine .inl ⟨x, hx, ?_⟩
    rw [treeOfEnvironment, List.foldl_append]
    simp only [List.foldl_cons, List.foldl_nil, hx, x.pathOfVariable?_variableName]
    rfl
  · refine .inr ⟨hne, ?_⟩
    rw [treeOfEnvironment, List.foldl_append]
    simp only [List.foldl_cons, List.foldl_nil, hnone]
    rfl

/-- Every way is open that does not lead beyond a setting. -/
theorem isOpenAt_treeOfEnvironment (h : env.IsRegular)
    (hpath : ∀ x : Setting, x.path <+: path → path = x.path) :
    IsOpenAt path (treeOfEnvironment env) := by
  induction env using List.reverseRec with
  | nil => exact isOpenAt_table_nil path
  | append_singleton env v ih =>
    obtain ⟨henv, ⟨x, -, hstep⟩ | ⟨-, hstep⟩⟩ := treeOfEnvironment_append_singleton h
    · rw [hstep]
      exact (isOpenAt_ofPath _ (hpath x)).overlay (ih henv)
    · rw [hstep]
      exact ih henv

theorem isOpenAt_path_treeOfEnvironment (h : env.IsRegular) (x : Setting) :
    IsOpenAt x.path (treeOfEnvironment env) :=
  isOpenAt_treeOfEnvironment h fun _ hp => congrArg _ (Setting.eq_of_path_prefix hp).symm

theorem isOpenAt_logging_treeOfEnvironment (h : env.IsRegular) :
    IsOpenAt ["logging"] (treeOfEnvironment env) := by
  refine isOpenAt_treeOfEnvironment h fun x => ?_
  cases x <;> decide

/-- **At the path of a setting stands the last value of its variable.** -/
theorem textAt?_treeOfEnvironment (h : env.IsRegular) (x : Setting) :
    textAt? x.path (treeOfEnvironment env)
      = (env.last? x.variableName).map fun v => (VariableValue.read v).text? := by
  induction env using List.reverseRec with
  | nil => cases x <;> rfl
  | append_singleton env v ih =>
    rw [Environment.last?_append_singleton]
    obtain ⟨henv, ⟨y, hy, hstep⟩ | ⟨hne, hstep⟩⟩ := treeOfEnvironment_append_singleton h
    · have hopen : IsOpenAt x.path (ofPath y.path (VariableValue.read v.2)) :=
        isOpenAt_ofPath _ fun hp => congrArg _ (Setting.eq_of_path_prefix hp).symm
      rw [hstep, textAt?_overlay hopen (isOpenAt_path_treeOfEnvironment henv x), ih henv, hy]
      simp only [Setting.variableName_inj]
      split
      · next hxy =>
        rw [hxy, textAt?, at?_ofPath_self]
        rfl
      · next hxy =>
        rw [textAt?, at?_ofPath_of_not_prefix _
          (fun hp => hxy (Setting.eq_of_path_prefix hp))
          fun hp => hxy (Setting.eq_of_path_prefix hp).symm]
        rfl
    · rw [hstep, if_neg (hne x), ih henv]

theorem isSome_at?_logging_ofPath (x : Setting) (value : Tree) :
    (at? ["logging"] (ofPath x.path value)).isSome = x.isLogging := by
  cases x <;> rfl

/-- The variables say something on how the program logs if one of them is set. -/
theorem isSome_at?_logging_treeOfEnvironment (h : env.IsRegular) :
    (at? ["logging"] (treeOfEnvironment env)).isSome
      ↔ ∃ x : Setting, x.isLogging ∧ (env.last? x.variableName).isSome := by
  induction env using List.reverseRec with
  | nil => exact ⟨nofun, fun ⟨x, _, h⟩ => nomatch h⟩
  | append_singleton env v ih =>
    have hnames (x : Setting) : (Environment.last? (env ++ [v]) x.variableName).isSome
        ↔ v.1 = x.variableName ∨ (Environment.last? env x.variableName).isSome := by
      rw [Environment.last?_append_singleton]
      split <;> simp_all
    simp only [hnames]
    obtain ⟨henv, ⟨y, hy, hstep⟩ | ⟨hne, hstep⟩⟩ := treeOfEnvironment_append_singleton h
    · have hopen : IsOpenAt ["logging"] (ofPath y.path (VariableValue.read v.2)) :=
        isOpenAt_ofPath _ (by cases y <;> decide)
      rw [hstep, at?_overlay hopen (isOpenAt_logging_treeOfEnvironment henv), Option.isSome_merge,
        Bool.or_eq_true, isSome_at?_logging_ofPath, ih henv]
      simp only [hy, Setting.variableName_inj, and_or_left, exists_or, exists_eq_right']
    · rw [hstep, ih henv]
      simp [hne]

end Settings

end WaveFinder
