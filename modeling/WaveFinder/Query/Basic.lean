import WaveFinder.Query.Vocabulary
import WaveFinder.Text.Numeral

/-!
# Query/Basic — queries

A query holds, for each key, the values given for it: every value once, in the order in which they
first came.  It is a finite map with the nine keys for its domain, and is known by `values`
(`ext_values`); the one way to change it is `insert`, and `values_insert` says what that does.
-/

namespace WaveFinder

open Text

/-- The values given for each key of a query. -/
structure Query where
  folders : List String := []
  people : List String := []
  creators : List String := []
  ids : List String := []
  tags : List String := []
  dateFields : List String := []
  firstDays : List String := []
  lastDays : List String := []
  orders : List String := []
  deriving DecidableEq, Repr

/-- Adds a value at the end unless it is there. -/
def addNew (v : String) (vs : List String) : List String :=
  if v ∈ vs then vs else vs ++ [v]

namespace Query

/-- The query that asks for nothing. -/
def empty : Query := {}

instance : Inhabited Query := ⟨empty⟩

/-- The values of a key, in the order in which they first came. -/
def values (q : Query) : Key → List String
  | .folder => q.folders
  | .person => q.people
  | .creator => q.creators
  | .id => q.ids
  | .tag => q.tags
  | .dateField => q.dateFields
  | .firstDay => q.firstDays
  | .lastDay => q.lastDays
  | .order => q.orders

/-- Adds a value to those of a key. -/
def insert (q : Query) (k : Key) (v : String) : Query :=
  match k with
  | .folder => { q with folders := addNew v q.folders }
  | .person => { q with people := addNew v q.people }
  | .creator => { q with creators := addNew v q.creators }
  | .id => { q with ids := addNew v q.ids }
  | .tag => { q with tags := addNew v q.tags }
  | .dateField => { q with dateFields := addNew v q.dateFields }
  | .firstDay => { q with firstDays := addNew v q.firstDays }
  | .lastDay => { q with lastDays := addNew v q.lastDays }
  | .order => { q with orders := addNew v q.orders }

/-- Whether a key has a value. -/
def has (q : Query) (k : Key) : Bool :=
  !(q.values k).isEmpty

/-- The keys that have a value, in the order in which keys are written. -/
def keys (q : Query) : List Key :=
  Key.all.filter q.has

/-- The keys that have a value, each with its values. -/
def entries (q : Query) : List (Key × List String) :=
  q.keys.map fun k => (k, q.values k)

/-- The first value of a key. -/
def first? (q : Query) (k : Key) : Option String :=
  (q.values k).head?

/-- The first value of a key as an instant; 0 if it has none or is no number. -/
def instant (q : Query) (k : Key) : Int :=
  ((q.first? k).bind fun v => Numeral.toWord? v.toList).getD 0

/-- The date field that the query names, if it names one. -/
def dateField? (q : Query) : Option DateField :=
  (q.first? .dateField).bind DateField.ofToken?

/-- The sort keys that the query names. -/
def sortKeys (q : Query) : List SortKey :=
  (q.values .order).filterMap SortKey.ofToken?

/-- Whether two queries give the same values for each key, in whatever order. -/
def alike (p q : Query) : Bool :=
  Key.all.all fun k =>
    (p.values k).all (fun v => (q.values k).contains v) &&
      (q.values k).all (fun v => (p.values k).contains v)

@[simp]
theorem values_empty (k : Key) : empty.values k = [] := by
  cases k <;> rfl

theorem values_insert (q : Query) (k : Key) (v : String) (j : Key) :
    (q.insert k v).values j = if j = k then addNew v (q.values j) else q.values j := by
  cases k <;> cases j <;> rfl

@[simp]
theorem values_insert_self (q : Query) (k : Key) (v : String) :
    (q.insert k v).values k = addNew v (q.values k) := by
  simp [values_insert]

/-- **A query is what its values are.** -/
theorem ext_values {p q : Query} (h : ∀ k, p.values k = q.values k) : p = q := by
  cases p
  cases q
  have h₁ := h .folder
  have h₂ := h .person
  have h₃ := h .creator
  have h₄ := h .id
  have h₅ := h .tag
  have h₆ := h .dateField
  have h₇ := h .firstDay
  have h₈ := h .lastDay
  have h₉ := h .order
  simp only [values] at h₁ h₂ h₃ h₄ h₅ h₆ h₇ h₈ h₉
  subst h₁ h₂ h₃ h₄ h₅ h₆ h₇ h₈ h₉
  rfl

theorem alike_iff {p q : Query} :
    p.alike q = true ↔ ∀ k, ∀ v, v ∈ p.values k ↔ v ∈ q.values k := by
  simp only [alike, List.all_eq_true, Bool.and_eq_true, List.contains_iff_mem]
  constructor
  · intro h k v
    exact ⟨(h k (Key.mem_all k)).1 v, (h k (Key.mem_all k)).2 v⟩
  · intro h k _
    exact ⟨fun v => (h k v).1, fun v => (h k v).2⟩

end Query

theorem mem_addNew {v w : String} {vs : List String} : w ∈ addNew v vs ↔ w ∈ vs ∨ w = v := by
  unfold addNew
  split
  · constructor
    · exact Or.inl
    · rintro (h | rfl) <;> assumption
  · simp

/-- Adding keeps the values distinct. -/
theorem nodup_addNew {v : String} {vs : List String} (h : vs.Nodup) : (addNew v vs).Nodup := by
  unfold addNew
  split
  · exact h
  · next hv =>
    rw [List.nodup_append]
    refine ⟨h, by simp, ?_⟩
    intro a ha b hb
    rw [List.mem_singleton] at hb
    rintro rfl
    exact hv (hb ▸ ha)

end WaveFinder
