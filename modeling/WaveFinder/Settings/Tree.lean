/-!
# Settings/Tree — settings before they are typed

Every source of settings comes down to a tree of named values.  Layers are laid over one another by
`overlay`: tables are merged name by name, and anything else is replaced as a whole.
-/

namespace WaveFinder

/-- A value of a setting, of whatever type. -/
inductive Tree where
  /-- A text. -/
  | text (s : String)
  /-- A number or a truth value; no setting has such a value. -/
  | scalar
  /-- An array. -/
  | list (items : List Tree)
  /-- Named values. -/
  | table (entries : List (String × Tree))

namespace Tree

instance : Inhabited Tree := ⟨.table []⟩

/-- The value of a name. -/
def valueOf? (name : String) : List (String × Tree) → Option Tree
  | [] => none
  | e :: es => if e.1 = name then some e.2 else valueOf? name es

/-- Gives a name a value, in place of the one that it has. -/
def setValue (name : String) (value : Tree) : List (String × Tree) → List (String × Tree)
  | [] => [(name, value)]
  | e :: es => if e.1 = name then (name, value) :: es else e :: setValue name value es

/-- The value at a path of names. -/
def at? : List String → Tree → Option Tree
  | [], t => some t
  | name :: path, table entries => (valueOf? name entries).bind (at? path)
  | _ :: _, _ => none

/-- A value at a path of names, and nothing else. -/
def ofPath (path : List String) (value : Tree) : Tree :=
  path.foldr (fun name t => table [(name, t)]) value

/-- The table of named values; of several values of one name the last counts. -/
def ofEntries (entries : List (String × Tree)) : Tree :=
  table (entries.foldl (fun es e => setValue e.1 e.2 es) [])

mutual

/-- Lays a tree over another one. -/
def overlay : Tree → Tree → Tree
  | table upper, table lower => table (overlayEntries upper lower)
  | upper, _ => upper

/-- Lays named values over others. -/
def overlayEntries : List (String × Tree) → List (String × Tree) → List (String × Tree)
  | [], lower => lower
  | (name, upper) :: es, lower =>
    overlayEntries es <| setValue name
      (match valueOf? name lower with
        | some value => overlay upper value
        | none => upper)
      lower

end

@[simp]
theorem valueOf?_setValue (name other : String) (value : Tree) (es : List (String × Tree)) :
    valueOf? other (setValue name value es)
      = if other = name then some value else valueOf? other es := by
  induction es with
  | nil => grind [setValue, valueOf?]
  | cons e es ih => grind [setValue, valueOf?]

end Tree

end WaveFinder
