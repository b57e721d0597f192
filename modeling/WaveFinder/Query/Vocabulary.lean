/-!
# Query/Vocabulary — the closed vocabularies of the query language

The keys that may stand before a colon, the orders, the date fields and the folders.  Each of them
is a finite list of values with a token for each, and a token is looked up in that list, so reading
undoes writing (`ofToken?_token`) and nothing but a token is read (`token_of_ofToken?`).
-/

namespace WaveFinder

/-- The keys of a query, named for what they say. -/
inductive Key where
  | folder
  | person
  | creator
  | id
  | tag
  | dateField
  | firstDay
  | lastDay
  | order
  deriving DecidableEq, Repr

namespace Key

/-- The keys in the order in which they are written. -/
def all : List Key :=
  [folder, person, creator, id, tag, dateField, firstDay, lastDay, order]

/-- The token of a key. -/
def token : Key → String
  | folder => "in"
  | person => "with"
  | creator => "creator"
  | id => "id"
  | tag => "tag"
  | dateField => "usedate"
  | firstDay => "from"
  | lastDay => "to"
  | order => "orderby"

/-- Reads a key; the case of its letters matters. -/
def ofToken? (t : String) : Option Key :=
  all.find? fun k => k.token == t

/-- Whether the values of a key are days. -/
def isDay (k : Key) : Bool :=
  k == firstDay || k == lastDay

theorem mem_all (k : Key) : k ∈ all := by
  cases k <;> decide

@[simp]
theorem ofToken?_token (k : Key) : ofToken? k.token = some k := by
  cases k <;> decide

theorem token_of_ofToken? {t : String} {k : Key} (h : ofToken? t = some k) : k.token = t := by
  simpa using List.find?_some h

end Key

/-- What results are sorted by. -/
inductive Dimension where
  /-- The latest modification of the conversation. -/
  | modified
  /-- The latest creation in the conversation. -/
  | created
  /-- The author of the root. -/
  | creator
  deriving DecidableEq, Repr

namespace Dimension

/-- The dimensions. -/
def all : List Dimension := [modified, created, creator]

/-- The name of a dimension in data. -/
def name : Dimension → String
  | modified => "last_modified"
  | created => "created"
  | creator => "creator"

/-- Reads the name of a dimension. -/
def ofName? (t : String) : Option Dimension :=
  all.find? fun d => d.name == t

end Dimension

/-- The direction of a sort. -/
inductive Direction where
  | ascending
  | descending
  deriving DecidableEq, Repr

namespace Direction

/-- The directions. -/
def all : List Direction := [ascending, descending]

/-- The name of a direction in data. -/
def name : Direction → String
  | ascending => "asc"
  | descending => "desc"

/-- Reads the name of a direction. -/
def ofName? (t : String) : Option Direction :=
  all.find? fun d => d.name == t

/-- The comparison in a direction, from the ascending one. -/
def apply : Direction → Ordering → Ordering
  | ascending, o => o
  | descending, o => o.swap

end Direction

/-- One key of a sort. -/
structure SortKey where
  /-- What is compared. -/
  dimension : Dimension
  /-- Which end comes first. -/
  direction : Direction
  deriving DecidableEq, Repr

namespace SortKey

/-- The sort keys. -/
def all : List SortKey :=
  [⟨.modified, .ascending⟩, ⟨.modified, .descending⟩, ⟨.created, .ascending⟩,
    ⟨.created, .descending⟩, ⟨.creator, .ascending⟩, ⟨.creator, .descending⟩]

/-- The key of a sort that none is named for: last modified first. -/
def standard : SortKey := ⟨.modified, .descending⟩

/-- The token of a sort key. -/
def token : SortKey → String
  | ⟨.modified, .ascending⟩ => "dateasc"
  | ⟨.modified, .descending⟩ => "datedesc"
  | ⟨.created, .ascending⟩ => "createdasc"
  | ⟨.created, .descending⟩ => "createddesc"
  | ⟨.creator, .ascending⟩ => "creatorasc"
  | ⟨.creator, .descending⟩ => "creatordesc"

/-- Reads a sort key. -/
def ofToken? (t : String) : Option SortKey :=
  all.find? fun k => k.token == t

theorem mem_all (k : SortKey) : k ∈ all := by
  rcases k with ⟨_ | _ | _, _ | _⟩ <;> decide

@[simp]
theorem ofToken?_token (k : SortKey) : ofToken? k.token = some k := by
  rcases k with ⟨_ | _ | _, _ | _⟩ <;> decide

theorem token_of_ofToken? {t : String} {k : SortKey} (h : ofToken? t = some k) : k.token = t := by
  simpa using List.find?_some h

theorem token_injective : Function.Injective token := by
  intro j k h
  have hread := congrArg ofToken? h
  rwa [ofToken?_token, ofToken?_token, Option.some.injEq] at hread

end SortKey

/-- The time of a document that day bounds apply to. -/
inductive DateField where
  | created
  | modified
  deriving DecidableEq, Repr

namespace DateField

/-- The date fields. -/
def all : List DateField := [created, modified]

/-- The token of a date field. -/
def token : DateField → String
  | created => "createdate"
  | modified => "lastmoddate"

/-- Reads a date field. -/
def ofToken? (t : String) : Option DateField :=
  all.find? fun f => f.token == t

/-- The name of a date field in data. -/
def name : DateField → String
  | created => "create_date"
  | modified => "last_mod_date"

/-- Reads the name of a date field. -/
def ofName? (t : String) : Option DateField :=
  all.find? fun f => f.name == t

@[simp]
theorem ofToken?_token (f : DateField) : ofToken? f.token = some f := by
  cases f <;> decide

theorem token_of_ofToken? {t : String} {f : DateField} (h : ofToken? t = some f) :
    f.token = t := by
  simpa using List.find?_some h

end DateField

/-- The folder that a search runs over. -/
inductive Folder where
  | inbox
  | shared
  | everything
  deriving DecidableEq, Repr

namespace Folder

/-- The folders. -/
def all : List Folder := [inbox, shared, everything]

/-- The token of a folder. -/
def token : Folder → String
  | inbox => "inbox"
  | shared => "shared"
  | everything => "all"

/-- Reads a folder. -/
def ofToken? (t : String) : Option Folder :=
  all.find? fun f => f.token == t

@[simp]
theorem ofToken?_token (f : Folder) : ofToken? f.token = some f := by
  cases f <;> decide

end Folder

end WaveFinder
