import WaveFinder.Text.Numeral

/-!
# Json/Basic — JSON values and how they are written

A value keeps what a typed reader may ask about and nothing else: whole numbers are told from other
numbers, and a string that escapes describe as something other than text (an unpaired surrogate) is
kept as `none`.  Values are written on one line (`compact`) or with an indentation of two
(`pretty`); in strings only the quotation mark, the backslash and the characters below 32 are
escaped.
-/

namespace WaveFinder

open Text

/-- A JSON value. -/
inductive Json where
  | null
  | bool (b : Bool)
  /-- A number written without fraction and exponent. -/
  | int (n : Int)
  /-- Any other number, as it is written. -/
  | real (literal : List Char)
  /-- A string; `none` if an unpaired surrogate keeps it from being text. -/
  | text (s : Option String)
  | list (items : List Json)
  /-- An object, its fields in the order in which they are written. -/
  | record (fields : List (Option String × Json))

instance : Inhabited Json := ⟨.null⟩

namespace Json

/-- A text as a JSON value. -/
def ofString (s : String) : Json := .text (some s)

/-- Texts as a JSON array. -/
def ofStrings (ss : List String) : Json := .list (ss.map ofString)

/-- Named values as a JSON object. -/
def object (fields : List (String × Json)) : Json :=
  .record (fields.map fun f => (some f.1, f.2))

/-- A number below 16 as a digit. -/
def hexDigit (n : Nat) : Char := Nat.digitChar n

/-- One character of a string, escaped if need be. -/
def escape (c : Char) : List Char :=
  if c == '"' then ['\\', '"']
  else if c == '\\' then ['\\', '\\']
  else if c == '\x08' then ['\\', 'b']
  else if c == '\t' then ['\\', 't']
  else if c == '\n' then ['\\', 'n']
  else if c == '\x0c' then ['\\', 'f']
  else if c == '\r' then ['\\', 'r']
  else if c.toNat < 32 then
    ['\\', 'u', '0', '0', hexDigit (c.toNat / 16), hexDigit (c.toNat % 16)]
  else [c]

/-- A string as it is written; a string that is no text is written as a lone surrogate. -/
def quoted : Option String → List Char
  | some s => '"' :: s.toList.flatMap escape ++ ['"']
  | none => "\"\\ud800\"".toList

/-- What is written between a key and its value, between neighbours, and inside the brackets. -/
structure Layout where
  /-- Between a key and its value. -/
  colon : List Char
  /-- The line break, if there is one. -/
  newline : List Char
  /-- The indentation of one level. -/
  indent : List Char

namespace Layout

/-- Everything on one line, without blanks. -/
def oneLine : Layout := ⟨[':'], [], []⟩

/-- One item a line, indented by two blanks. -/
def indented : Layout := ⟨[':', ' '], ['\n'], [' ', ' ']⟩

/-- The start of a line at a depth. -/
def line (l : Layout) (depth : Nat) : List Char :=
  l.newline ++ (List.replicate depth l.indent).flatten

end Layout

mutual

/-- A value as it is written at a depth. -/
def write (l : Layout) (depth : Nat) : Json → List Char
  | null => "null".toList
  | bool true => "true".toList
  | bool false => "false".toList
  | int n => Numeral.ofInt n
  | real literal => literal
  | text s => quoted s
  | list [] => ['[', ']']
  | list (j :: js) =>
    '[' :: l.line (depth + 1) ++ write l (depth + 1) j ++ writeItems l (depth + 1) js
      ++ l.line depth ++ [']']
  | record [] => ['\x7b', '\x7d']
  | record (f :: fs) =>
    '\x7b' :: l.line (depth + 1) ++ quoted f.1 ++ l.colon ++ write l (depth + 1) f.2
      ++ writeFields l (depth + 1) fs ++ l.line depth ++ ['\x7d']

/-- The items of an array after the first. -/
def writeItems (l : Layout) (depth : Nat) : List Json → List Char
  | [] => []
  | j :: js => ',' :: l.line depth ++ write l depth j ++ writeItems l depth js

/-- The fields of an object after the first. -/
def writeFields (l : Layout) (depth : Nat) : List (Option String × Json) → List Char
  | [] => []
  | f :: fs =>
    ',' :: l.line depth ++ quoted f.1 ++ l.colon ++ write l depth f.2 ++ writeFields l depth fs

end

/-- A value on one line. -/
def compact (j : Json) : String :=
  String.ofList (j.write .oneLine 0)

/-- A value with one item a line. -/
def pretty (j : Json) : String :=
  String.ofList (j.write .indented 0)

end Json

end WaveFinder
