import Mathlib.Data.List.Basic
import WaveFinder.Proofs.Query.FirstSeen
import WaveFinder.Query.Form

/-!
# Proofs/Form/Entries — what entries make of a form

    entries ──foldl enter──▸ form ──field──▸ value

Each field of a form is a view of the entries, and there are three kinds.  A field that an entry
replaces holds what was entered there last (`latest`); a field of names holds all the names, one
entry after the other; and the sort keys come each once, in the order in which they first came.  For
each kind one step is inverted, and the run follows by induction from any form.
-/

namespace WaveFinder

/-- The days at the ends of a period. -/
def Period.days (p : Period) : List Date :=
  p.first.toList ++ p.last.toList

namespace Form

open Text

variable {α : Type}

/-! ## What an entry is about -/

namespace Entry

/-- The folder that is entered. -/
def folder? : Entry → Option Folder
  | .folder chosen => some chosen
  | _ => none

/-- The period of creation that is entered. -/
def created? : Entry → Option Period
  | .created period => some period
  | _ => none

/-- The period of modification that is entered. -/
def modified? : Entry → Option Period
  | .modified period => some period
  | _ => none

/-- The sort key that is entered. -/
def order? : Entry → Option SortKey
  | .order key => some key
  | _ => none

/-- The creators that are entered. -/
def creatorNames : Entry → List String
  | .creators field => names field
  | _ => []

/-- The people that are entered. -/
def personNames : Entry → List String
  | .people field => names field
  | _ => []

/-- The days that are entered. -/
def days : Entry → List Date
  | .created period => period.days
  | .modified period => period.days
  | _ => []

theorem days_of_created? {e : Entry} {p : Period} (h : e.created? = some p) :
    e.days = p.days := by
  cases e with
  | created q =>
    cases h
    rfl
  | _ => cases h

theorem days_of_modified? {e : Entry} {p : Period} (h : e.modified? = some p) :
    e.days = p.days := by
  cases e with
  | modified q =>
    cases h
    rfl
  | _ => cases h

end Entry

/-! ## Fields that are replaced -/

/-- What was entered last; a default if nothing was. -/
def latest (entered? : Entry → Option α) (default : α) (es : List Entry) : α :=
  (es.filterMap entered?).getLast?.getD default

/-- What comes first is the default for what follows. -/
theorem latest_cons (entered? : Entry → Option α) (default : α) (e : Entry) (es : List Entry) :
    latest entered? default (e :: es) = latest entered? ((entered? e).getD default) es := by
  rw [latest, latest]
  rcases he : entered? e with _ | a
  · rw [List.filterMap_cons_none he, Option.getD_none]
  · rw [List.filterMap_cons_some he, List.getLast?_cons, Option.getD_some, Option.getD_some]

/-- What was entered last was entered, and in no other case is the default taken. -/
theorem latest_cases (entered? : Entry → Option α) (default : α) (es : List Entry) :
    latest entered? default es = default
      ∨ ∃ e ∈ es, entered? e = some (latest entered? default es) := by
  induction es generalizing default with
  | nil => exact .inl rfl
  | cons e es ih =>
    rw [latest_cons]
    rcases ih ((entered? e).getD default) with h | ⟨e', he', h⟩
    · rw [h]
      rcases he : entered? e with _ | a
      · exact .inl rfl
      · exact .inr ⟨e, List.mem_cons_self .., he⟩
    · exact .inr ⟨e', List.mem_cons_of_mem _ he', h⟩

/-- **A field that entries replace holds what was entered last.** -/
theorem foldl_enter_of_replaces (field : Form → α) {entered? : Entry → Option α}
    (hstep : ∀ f e, field (enter f e) = (entered? e).getD (field f)) (f : Form)
    (es : List Entry) : field (es.foldl enter f) = latest entered? (field f) es := by
  induction es generalizing f with
  | nil => rfl
  | cons e es ih => rw [List.foldl_cons, ih, hstep, latest_cons]

theorem folder_ofEntries (es : List Entry) :
    (ofEntries es).folder = latest Entry.folder? .inbox es :=
  foldl_enter_of_replaces folder (fun _ e => by cases e <;> rfl) blank es

theorem created_ofEntries (es : List Entry) :
    (ofEntries es).created = latest Entry.created? {} es :=
  foldl_enter_of_replaces created (fun _ e => by cases e <;> rfl) blank es

theorem modified_ofEntries (es : List Entry) :
    (ofEntries es).modified = latest Entry.modified? {} es :=
  foldl_enter_of_replaces modified (fun _ e => by cases e <;> rfl) blank es

/-- The days of a period that was entered last were entered. -/
theorem exists_days_of_mem_latest {entered? : Entry → Option Period}
    (hdays : ∀ {e p}, entered? e = some p → e.days = p.days) {es : List Entry} {d : Date}
    (h : d ∈ (latest entered? {} es).days) : ∃ e ∈ es, d ∈ e.days := by
  rcases latest_cases entered? {} es with hdefault | ⟨e, he, hlast⟩
  · rw [hdefault] at h
    exact absurd h List.not_mem_nil
  · exact ⟨e, he, (hdays hlast).symm ▸ h⟩

/-! ## Fields of names -/

/-- **A field that entries add to holds all that was entered.** -/
theorem foldl_enter_of_appends (field : Form → List String) {entered : Entry → List String}
    (hstep : ∀ f e, field (enter f e) = field f ++ entered e) (f : Form) (es : List Entry) :
    field (es.foldl enter f) = field f ++ es.flatMap entered := by
  induction es generalizing f with
  | nil => rw [List.foldl_nil, List.flatMap_nil, List.append_nil]
  | cons e es ih => rw [List.foldl_cons, ih, hstep, List.flatMap_cons, List.append_assoc]

theorem creators_ofEntries (es : List Entry) :
    (ofEntries es).creators = es.flatMap Entry.creatorNames :=
  foldl_enter_of_appends creators
    (fun _ e => by cases e <;> simp [enter, Entry.creatorNames]) blank es

theorem people_ofEntries (es : List Entry) :
    (ofEntries es).people = es.flatMap Entry.personNames :=
  foldl_enter_of_appends people
    (fun _ e => by cases e <;> simp [enter, Entry.personNames]) blank es

/-- A text of one word: it is not empty and holds no blank. -/
structure IsWord (name : String) : Prop where
  ne_empty : name ≠ ""
  blank : ∀ c ∈ name.toList, isBlank c = false

theorem isWord_of_mem_names {field name : String} (h : name ∈ names field) : IsWord name := by
  obtain ⟨w, hw, rfl⟩ := List.mem_map.1 h
  obtain ⟨hne, hsep⟩ := mem_runs hw
  refine ⟨by simpa using hne, fun c hc => ?_⟩
  rw [String.toList_ofList] at hc
  exact (Bool.or_eq_false_iff.1 (hsep c hc)).2

theorem Entry.isWord_of_mem {e : Entry} {name : String}
    (h : name ∈ e.creatorNames ++ e.personNames) : IsWord name := by
  cases e with
  | creators field =>
    exact isWord_of_mem_names (by simpa [Entry.creatorNames, Entry.personNames] using h)
  | people field => exact isWord_of_mem_names h
  | _ => exact absurd h List.not_mem_nil

/-- The names of a form that entries make are words. -/
theorem isWord_of_mem_ofEntries {es : List Entry} {name : String}
    (h : name ∈ (ofEntries es).creators ++ (ofEntries es).people) : IsWord name := by
  rw [creators_ofEntries, people_ofEntries, List.mem_append, List.mem_flatMap,
    List.mem_flatMap] at h
  rcases h with ⟨e, -, he⟩ | ⟨e, -, he⟩
  · exact Entry.isWord_of_mem (List.mem_append_left _ he)
  · exact Entry.isWord_of_mem (List.mem_append_right _ he)

/-! ## Sort keys -/

/-- Entering a sort key adds its token to those of the others, unless it is there. -/
theorem order_enter_order (f : Form) (key : SortKey) :
    (enter f (.order key)).order.map SortKey.token
      = addNew key.token (f.order.map SortKey.token) := by
  have hmem : key.token ∈ f.order.map SortKey.token ↔ key ∈ f.order :=
    List.mem_map_of_injective SortKey.token_injective
  rw [enter, addNew]
  by_cases h : key ∈ f.order
  · rw [if_pos h, if_pos (hmem.2 h)]
  · rw [if_neg h, if_neg (mt hmem.1 h), List.map_append, List.map_singleton]

/-- **The sort keys of a form come in the order in which they were first entered.** -/
theorem foldl_enter_order (f : Form) (es : List Entry) :
    (es.foldl enter f).order.map SortKey.token
      = ((es.filterMap Entry.order?).map SortKey.token).foldl (fun acc w => addNew w acc)
          (f.order.map SortKey.token) := by
  induction es generalizing f with
  | nil => rfl
  | cons e es ih =>
    rw [List.foldl_cons, ih]
    cases e with
    | order key =>
      rw [order_enter_order]
      rfl
    | _ => rfl

theorem order_ofEntries (es : List Entry) :
    (ofEntries es).order.map SortKey.token
      = ((es.filterMap Entry.order?).map SortKey.token).eraseDups := by
  rw [eraseDups_eq_foldl_addNew]
  exact foldl_enter_order blank es

end Form

end WaveFinder
