import WaveFinder.Json.Shape
import WaveFinder.Query.Text
import WaveFinder.Search.Criteria
import WaveFinder.Wave.Json
import WaveFinder.Zone.Basic

/-!
# Query/Json — queries, their vocabularies and criteria as JSON
-/

namespace WaveFinder

open Json

namespace Key

/-- Reads a key, given as a choice. -/
def ofJson? (j : Json) : Option Key := j.asChoice?.bind ofToken?

/-- The key as a JSON value. -/
def toJson (k : Key) : Json := ofString k.token

end Key

namespace Dimension

/-- Reads a dimension, given as a choice. -/
def ofJson? (j : Json) : Option Dimension := j.asChoice?.bind ofName?

/-- The dimension as a JSON value. -/
def toJson (d : Dimension) : Json := ofString d.name

end Dimension

namespace Direction

/-- Reads a direction, given as a choice. -/
def ofJson? (j : Json) : Option Direction := j.asChoice?.bind ofName?

/-- The direction as a JSON value. -/
def toJson (d : Direction) : Json := ofString d.name

end Direction

namespace SortKey

/-- Reads a sort key. -/
def ofJson? (j : Json) : Option SortKey := do
  match ← j.asFields? ["dimension", "direction"] 2 with
  | [some dimension, some direction] =>
    return ⟨← Dimension.ofJson? dimension, ← Direction.ofJson? direction⟩
  | _ => none

/-- The sort key as a JSON object. -/
def toJson (k : SortKey) : Json :=
  object [("dimension", k.dimension.toJson), ("direction", k.direction.toJson)]

end SortKey

namespace DateField

/-- Reads a date field, given as a choice. -/
def ofJson? (j : Json) : Option DateField := j.asChoice?.bind ofName?

/-- The date field as a JSON value. -/
def toJson (f : DateField) : Json := ofString f.name

end DateField

namespace Folder

/-- Reads a folder, given as a choice. -/
def ofJson? (j : Json) : Option Folder := j.asChoice?.bind ofToken?

/-- The folder as a JSON value. -/
def toJson (f : Folder) : Json := ofString f.token

end Folder

namespace Zone

/-- Reads a zone by its name. -/
def ofJson? (j : Json) : Option Zone := j.asString?.bind fun s => ofText? s.toList

/-- The zone as a JSON value. -/
def toJson (z : Zone) : Json := ofString z.text

end Zone

namespace Query

/-- The query as a JSON object from keys to arrays of values. -/
def toJson (q : Query) : Json :=
  object (q.entries.map fun e => (e.1.token, ofStrings e.2))

end Query

namespace Criteria

/-- The criteria as a JSON object. -/
def toJson (c : Criteria) : Json :=
  object [
    ("date_range", object [("field", c.window.field.toJson), ("from", .int c.window.first),
      ("to", .int c.window.last)]),
    ("creators", .list (c.creators.map Address.toJson)),
    ("with", .list (c.people.map Address.toJson))]

end Criteria

end WaveFinder
