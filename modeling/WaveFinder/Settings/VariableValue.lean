import WaveFinder.Settings.Tree
import WaveFinder.Text.Blank
import WaveFinder.Text.Escape
import WaveFinder.Text.Numeral
import WaveFinder.Text.Split

/-!
# Settings/VariableValue — the values of environment variables

The value of a variable is a small language of its own: `true` and `false`, numbers, arrays in
brackets, tables in braces, texts in quotation marks, single characters in single quotes, and bare
texts.  The first characters decide which of these it is, and a value that does not fit it to its
end is taken as a text, just as it stands.
-/

namespace WaveFinder.VariableValue

open Text

/-- Skips blanks. -/
def skip (cs : List Char) : List Char :=
  cs.dropWhile isAsciiBlank

/-- Whether a character may stand in a bare text. -/
def isBare (c : Char) : Bool :=
  c != ',' && c != '[' && c != ']' && c != '\x7b' && c != '\x7d'

/-- Whether a character may stand in the name of a table entry. -/
def isNameChar (c : Char) : Bool :=
  isAsciiAlphanum c || c == '_' || c == '-'

/-! ## Numbers -/

/-- Takes a sign off the front. -/
def dropSign : List Char → List Char
  | '+' :: cs => cs
  | '-' :: cs => cs
  | cs => cs

/-- Whether a text is an integer of a 64-bit word, signed or not. -/
def isInteger (cs : List Char) : Bool :=
  match cs with
  | '-' :: ds =>
    match Numeral.toNat? ds with
    | some n => n ≤ 9223372036854775808
    | none => false
  | _ =>
    match Numeral.toNat? (match cs with | '+' :: ds => ds | ds => ds) with
    | some n => n < 18446744073709551616
    | none => false

/-- Whether a text is an exponent, or empty. -/
def isExponent : List Char → Bool
  | [] => true
  | e :: cs => (e == 'e' || e == 'E') && (Numeral.toNat? (dropSign cs)).isSome

/-- Whether a text is a number with a decimal point: digits on at least one side of it, and perhaps
an exponent. -/
def isDecimal (cs : List Char) : Bool :=
  let cs := dropSign cs
  match cs.dropWhile Char.isDigit with
  | '.' :: rest =>
    (cs.head?.any Char.isDigit || rest.head?.any Char.isDigit) &&
      isExponent (rest.dropWhile Char.isDigit)
  | _ => false

/-- What a bare text stands for. -/
def ofBare (cs : List Char) : Tree :=
  if isInteger cs || isDecimal cs then .scalar else .text (String.ofList cs)

/-! ## Values -/

/-- Reads the name of a table entry. -/
def readName? (cs : List Char) : Option (String × List Char) :=
  match cs with
  | '"' :: rest => (Escape.readQuoted? rest).map fun r => (String.ofList r.1, r.2)
  | _ =>
    let name := cs.takeWhile isNameChar
    if name.isEmpty then none else some (String.ofList name, cs.dropWhile isNameChar)

mutual

/-- Reads a value with the blanks around it. -/
def readValue? : Nat → List Char → Option (Tree × List Char)
  | 0, _ => none
  | n + 1, cs =>
    let read : Option (Tree × List Char) :=
      match skip cs with
      | 't' :: 'r' :: 'u' :: 'e' :: rest => some (.scalar, rest)
      | 'f' :: 'a' :: 'l' :: 's' :: 'e' :: rest => some (.scalar, rest)
      | '\x7b' :: rest => (readEntries? n rest).map fun r => (Tree.ofEntries r.1, r.2)
      | '[' :: rest => (readItems? n rest).map fun r => (Tree.list r.1, r.2)
      | '"' :: rest =>
        (Escape.readQuoted? rest).map fun r => (Tree.text (String.ofList r.1), r.2)
      | '\x27' :: c :: '\x27' :: rest => some (.text (String.ofList [c]), rest)
      | '\x27' :: _ => none
      | rest => some (ofBare (trim isBlank (rest.takeWhile isBare)), rest.dropWhile isBare)
    read.map fun r => (r.1, skip r.2)

/-- Reads the items of an array up to its closing bracket, before which a comma may stand.  What
stands between two commas is an item, even if it is empty or blank. -/
def readItems? : Nat → List Char → Option (List Tree × List Char)
  | 0, _ => none
  | n + 1, cs =>
    match cs with
    | ']' :: rest => some ([], rest)
    | cs =>
      match readValue? n cs with
      | some (t, ',' :: rest) => (readItems? n rest).map fun r => (t :: r.1, r.2)
      | some (t, ']' :: rest) => some ([t], rest)
      | _ => none

/-- Reads the entries of a table up to its closing brace, before which a comma may stand. -/
def readEntries? : Nat → List Char → Option (List (String × Tree) × List Char)
  | 0, _ => none
  | n + 1, cs =>
    match cs with
    | '\x7d' :: rest => some ([], rest)
    | cs =>
      match readName? (skip cs) with
      | none => none
      | some (name, rest) =>
        match skip rest with
        | '=' :: rest =>
          match readValue? n rest with
          | some (t, ',' :: rest) => (readEntries? n rest).map fun r => ((name, t) :: r.1, r.2)
          | some (t, '\x7d' :: rest) => some ([(name, t)], rest)
          | _ => none
        | _ => none

end

/-- What the value of a variable stands for. -/
def read (s : String) : Tree :=
  match readValue? (2 * s.toList.length + 2) s.toList with
  | some (t, []) => t
  | _ => .text s

end WaveFinder.VariableValue
