import WaveFinder.Json.Reader

/-!
# Json/Shape — the shapes in which typed values come

A named choice comes as its name, or as an object that maps the name to null.  A value with fields
comes as an object or as an array of the fields in their order; in an object, fields without meaning
are ignored and no field with one may stand twice.
-/

namespace WaveFinder.Json

open Text

/-- The text of a string. -/
def asString? : Json → Option String
  | .text s => s
  | _ => none

/-- A whole number that fits a signed 64-bit word. -/
def asWord? : Json → Option Int
  | .int n => if Numeral.fitsWord n then some n else none
  | _ => none

/-- The items of an array, each read by the same reader. -/
def asList? {α : Type} (item : Json → Option α) : Json → Option (List α)
  | .list js => js.mapM item
  | _ => none

/-- The name of a choice. -/
def asChoice? : Json → Option String
  | .text s => s
  | .record [(key, .null)] => key
  | _ => none

/-- The values of a field, in the order in which they stand. -/
def valuesOf (name : String) (fields : List (Option String × Json)) : List Json :=
  (fields.filter fun f => f.1 == some name).map Prod.snd

/-- The value of a field that may be missing but may not stand twice. -/
def fieldOnce? (fields : List (Option String × Json)) (name : String) : Option (Option Json) :=
  match valuesOf name fields with
  | [] => some none
  | [j] => some (some j)
  | _ => none

/-- The values of the named fields, in the order of the names.  An array gives the fields by
position, and has to give the first `least` of them. -/
def asFields? (names : List String) (least : Nat) : Json → Option (List (Option Json))
  | .record fields =>
    if fields.any fun f => f.1.isNone then none
    else names.mapM (fieldOnce? fields)
  | .list js =>
    if least ≤ js.length ∧ js.length ≤ names.length then
      some (js.map some ++ List.replicate (names.length - js.length) none)
    else
      none
  | _ => none

end WaveFinder.Json
