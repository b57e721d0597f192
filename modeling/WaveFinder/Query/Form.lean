import WaveFinder.Query.Text

/-!
# Query/Form — queries from the fields of a form

A search form has a folder, two fields of names, two periods and a list of sort keys.  It is turned
into the text of a query; only one of the periods can go into it, and a period of creation goes
before a period of modification.  A name with a colon in it cannot be written as a token.
-/

namespace WaveFinder

open Text

/-- A period of days, either end of which may be missing. -/
structure Period where
  /-- The first day. -/
  first : Option Date := none
  /-- The last day. -/
  last : Option Date := none
  deriving DecidableEq

namespace Period

/-- Whether either end is given. -/
def isSet (p : Period) : Bool :=
  p.first.isSome || p.last.isSome

end Period

/-- A search form. -/
structure Form where
  folder : Folder := .inbox
  creators : List String := []
  people : List String := []
  created : Period := {}
  modified : Period := {}
  order : List SortKey := []
  deriving DecidableEq

namespace Form

/-- The form as it comes. -/
def blank : Form := {}

/-- The names in a field, which commas and blanks separate. -/
def names (field : String) : List String :=
  (runs (fun c => c == ',' || isBlank c) field.toList).map String.ofList

/-- Something entered in a form. -/
inductive Entry where
  /-- The folder. -/
  | folder (folder : Folder)
  /-- More creators, in one field. -/
  | creators (field : String)
  /-- More people, in one field. -/
  | people (field : String)
  /-- The period of creation. -/
  | created (period : Period)
  /-- The period of the last modification. -/
  | modified (period : Period)
  /-- One more sort key. -/
  | order (key : SortKey)
  deriving DecidableEq

/-- Enters something: names are added to those entered before, and so is a sort key unless it is
there; the rest is replaced. -/
def enter (f : Form) : Entry → Form
  | .folder folder => { f with folder := folder }
  | .creators field => { f with creators := f.creators ++ names field }
  | .people field => { f with people := f.people ++ names field }
  | .created period => { f with created := period }
  | .modified period => { f with modified := period }
  | .order key => { f with order := if key ∈ f.order then f.order else f.order ++ [key] }

/-- The form that entries make, one after the other. -/
def ofEntries (entries : List Entry) : Form :=
  entries.foldl enter blank

/-- The token of a name; there is none for a name with a colon. -/
def nameToken (k : Key) (name : String) : Except QueryFault String :=
  if ':' ∈ name.toList then .error (.malformed name) else .ok (Query.tokenText k name)

/-- The tokens of a period. -/
def periodTokens (field : DateField) (p : Period) : List String :=
  let day := fun k (d : Date) => Query.tokenText k (String.ofList d.compact)
  Query.tokenText .dateField field.token
    :: (p.first.toList.map (day .firstDay) ++ p.last.toList.map (day .lastDay))

/-- The tokens of the period that goes into the query. -/
def dateTokens (f : Form) : List String :=
  if f.created.isSet then periodTokens .created f.created
  else if f.modified.isSet then periodTokens .modified f.modified
  else []

/-- The tokens of a form. -/
def tokens (f : Form) : Except QueryFault (List String) := do
  let creators ← f.creators.mapM (nameToken .creator)
  let people ← f.people.mapM (nameToken .person)
  return Query.tokenText .folder f.folder.token :: creators ++ people ++ f.dateTokens
    ++ f.order.map fun k => Query.tokenText .order k.token

/-- The text of the query that a form asks for. -/
def query (f : Form) : Except QueryFault String :=
  f.tokens.map (" ".intercalate ·)

end Form

end WaveFinder
