import WaveFinder.Settings.Tree

/-!
# Settings/Toml/Node — the tables of a TOML document

A document defines its tables piecemeal: by headers, by dotted keys, and by the headers of tables
inside them.  What may still be added to a table depends on how it came about, so a node remembers
that.  Nothing may be defined twice.
-/

namespace WaveFinder.Toml

/-- How a table came about. -/
inductive Origin where
  /-- By the header of a table inside it. -/
  | implied
  /-- By a dotted key. -/
  | dotted
  /-- By a header of its own. -/
  | header
  deriving DecidableEq, Repr

/-- A value or a table of a document. -/
inductive Node where
  /-- A value, which is closed. -/
  | value (t : Tree)
  /-- A table. -/
  | table (origin : Origin) (entries : List (String × Node))
  /-- An array of tables, the latest in front; it is never empty. -/
  | tables (items : List (List (String × Node)))

/-- The entries of a table. -/
abbrev Entries := List (String × Node)

namespace Entries

/-- The node of a name. -/
def get? (name : String) : Entries → Option Node
  | [] => none
  | e :: es => if e.1 = name then some e.2 else get? name es

/-- Gives a name a node, in place of the one that it has. -/
def set (name : String) (node : Node) : Entries → Entries
  | [] => [(name, node)]
  | e :: es => if e.1 = name then (name, node) :: es else e :: set name node es

/-- Defines a dotted key.  The tables on its way may not have headers of their own, and the last of
them has to have come about by a dotted key. -/
def define? : List String → Node → Entries → Option Entries
  | [], _, _ => none
  | [name], node, es => if (get? name es).isSome then none else some (set name node es)
  | name :: next :: path, node, es =>
    match get? name es with
    | none => (define? (next :: path) node []).map fun sub => set name (.table .dotted sub) es
    | some (.table origin sub) =>
      if origin = .header ∨ (path = [] ∧ origin ≠ .dotted) then none
      else (define? (next :: path) node sub).map fun sub => set name (.table origin sub) es
    | some (.tables (sub :: items)) =>
      if path = [] then none
      else (define? (next :: path) node sub).map fun sub => set name (.tables (sub :: items)) es
    | _ => none

/-- Changes the entries at the path of a header; of an array of tables the latest is meant. -/
def atHeader? (f : Entries → Option Entries) : List String → Entries → Option Entries
  | [], es => f es
  | name :: path, es =>
    match get? name es with
    | none => (atHeader? f path []).map fun sub => set name (.table .implied sub) es
    | some (.table origin sub) =>
      (atHeader? f path sub).map fun sub => set name (.table origin sub) es
    | some (.tables (sub :: items)) =>
      (atHeader? f path sub).map fun sub => set name (.tables (sub :: items)) es
    | _ => none

/-- Opens a table by its header. -/
def openTable? (name : String) (es : Entries) : Option Entries :=
  match get? name es with
  | none => some (set name (.table .header []) es)
  | some (.table .implied sub) => some (set name (.table .header sub) es)
  | _ => none

/-- Opens the next table of an array by its header. -/
def openItem? (name : String) (es : Entries) : Option Entries :=
  match get? name es with
  | none => some (set name (.tables [[]]) es)
  | some (.tables items) => some (set name (.tables ([] :: items)) es)
  | _ => none

end Entries

mutual

/-- A node as a tree. -/
def Node.toTree : Node → Tree
  | .value t => t
  | .table _ es => .table (entriesToTree es)
  | .tables items => .list (itemsToTree items).reverse

/-- Entries as named trees. -/
def entriesToTree : List (String × Node) → List (String × Tree)
  | [] => []
  | e :: es => (e.1, e.2.toTree) :: entriesToTree es

/-- The tables of an array as trees. -/
def itemsToTree : List (List (String × Node)) → List Tree
  | [] => []
  | es :: items => .table (entriesToTree es) :: itemsToTree items

end

/-- One definition of a document. -/
inductive Statement where
  /-- The header of a table. -/
  | table (path : List String) (name : String)
  /-- The header of an item of an array of tables. -/
  | item (path : List String) (name : String)
  /-- A key and its value. -/
  | pair (path : List String) (value : Tree)

/-- Carries out definitions in the table at a path. -/
def build? (here : List String) (es : Entries) : List Statement → Option Entries
  | [] => some es
  | .table path name :: rest => do
    build? (path ++ [name]) (← es.atHeader? (Entries.openTable? name) path) rest
  | .item path name :: rest => do
    build? (path ++ [name]) (← es.atHeader? (Entries.openItem? name) path) rest
  | .pair path value :: rest => do
    build? here (← es.atHeader? (Entries.define? path (.value value)) here) rest

end WaveFinder.Toml
