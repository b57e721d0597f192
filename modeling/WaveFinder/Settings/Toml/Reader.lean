import WaveFinder.Settings.Toml.Node
import WaveFinder.Settings.Toml.Scalar
import WaveFinder.Text.Escape

/-!
# Settings/Toml/Reader — reading TOML

A document is read into its definitions, one a line, which are then carried out.  A fault anywhere
makes the whole document unreadable.
-/

namespace WaveFinder.Toml

open Text

/-! ## Blanks, comments and line breaks -/

/-- The blanks within a line. -/
def isSpace (c : Char) : Bool :=
  c == ' ' || c == '\t'

/-- Skips blanks within a line. -/
def skip (cs : List Char) : List Char :=
  cs.dropWhile isSpace

/-- Takes a line break off the front. -/
def dropBreak? : List Char → Option (List Char)
  | '\n' :: cs => some cs
  | '\r' :: '\n' :: cs => some cs
  | _ => none

/-- Skips a comment, if there is one; what is left starts with a line break or is empty. -/
def skipComment? : List Char → Option (List Char)
  | '#' :: cs =>
    let rest := cs.dropWhile Escape.isPlain
    if rest.isEmpty || (dropBreak? rest).isSome then some rest else none
  | cs => some cs

/-- Skips blanks, comments and line breaks. -/
def skipLines? : Nat → List Char → Option (List Char)
  | 0, cs => some cs
  | n + 1, cs => do
    let rest ← skipComment? (skip cs)
    match dropBreak? rest with
    | some rest => skipLines? n rest
    | none => some rest

/-- Goes to the next line: only blanks and a comment may stand in between. -/
def endLine? (cs : List Char) : Option (List Char) := do
  let rest ← skipComment? (skip cs)
  if rest.isEmpty then some [] else dropBreak? rest

/-! ## Strings and keys -/

/-- Reads a string in single quotes up to its end. -/
def readLiteral? (cs : List Char) : Option (List Char × List Char) :=
  match cs.dropWhile fun c => c != '\x27' && Escape.isPlain c with
  | '\x27' :: rest => some (cs.takeWhile fun c => c != '\x27' && Escape.isPlain c, rest)
  | _ => none

/-- The end of a string of several lines: three quotes, before which up to two more may stand that
belong to the string. -/
def closing? (quote : Char) (cs : List Char) : Option (List Char × List Char) :=
  let count := (cs.takeWhile (· == quote)).length
  if 3 ≤ count ∧ count ≤ 5 then some (List.replicate (count - 3) quote, cs.drop count)
  else if 5 < count then some ([quote, quote], cs.drop 5)
  else none

/-- Skips blanks and line breaks. -/
def skipBlankLines : List Char → List Char
  | '\r' :: '\n' :: cs => skipBlankLines cs
  | c :: cs => if isSpace c || c == '\n' then skipBlankLines cs else c :: cs
  | [] => []

/-- Skips the blanks and line breaks after a backslash at the end of a line. -/
def skipContinuation? (cs : List Char) : Option (List Char) :=
  (dropBreak? (skip cs)).map skipBlankLines

/-- Reads a string of several lines up to its end; backslashes count in double quotes only.  Every
line break in it comes to a line feed. -/
def readLong? (quote : Char) : Nat → List Char → Option (List Char × List Char)
  | 0, _ => none
  | n + 1, cs =>
    match closing? quote cs with
    | some r => some r
    | none =>
      match cs with
      | [] => none
      | '\r' :: '\n' :: cs => (readLong? quote n cs).map fun r => ('\n' :: r.1, r.2)
      | c :: cs =>
        if c == '\\' && quote == '"' then
          match skipContinuation? cs with
          | some cs => readLong? quote n cs
          | none => do
            let (c, cs) ← Escape.read? cs
            let (s, cs) ← readLong? quote n cs
            return (c :: s, cs)
        else if Escape.isPlain c || c == '\n' then
          (readLong? quote n cs).map fun r => (c :: r.1, r.2)
        else
          none

/-- Reads a string value. -/
def readString? (cs : List Char) : Option (List Char × List Char) :=
  let long := fun quote rest => readLong? quote (cs.length + 1) ((dropBreak? rest).getD rest)
  match cs with
  | '"' :: '"' :: '"' :: rest => long '"' rest
  | '\x27' :: '\x27' :: '\x27' :: rest => long '\x27' rest
  | '"' :: rest => Escape.readQuoted? rest
  | '\x27' :: rest => readLiteral? rest
  | _ => none

/-- Whether a character may stand in a key without quotes. -/
def isKeyChar (c : Char) : Bool :=
  c.isAlphanum || c == '_' || c == '-'

/-- Reads one part of a key. -/
def readName? (cs : List Char) : Option (String × List Char) :=
  let read :=
    match cs with
    | '"' :: rest => Escape.readQuoted? rest
    | '\x27' :: rest => readLiteral? rest
    | cs =>
      if (cs.takeWhile isKeyChar).isEmpty then none
      else some (cs.takeWhile isKeyChar, cs.dropWhile isKeyChar)
  read.map fun r => (String.ofList r.1, r.2)

/-- How deep arrays and tables may be nested in a value, and how many parts a key may have. -/
def maxDepth : Nat := 79

/-- Reads the parts of a key, which full stops join, with the blanks around them. -/
def readParts? : Nat → List Char → Option (List String × List Char)
  | 0, _ => none
  | n + 1, cs => do
    let (name, cs) ← readName? (skip cs)
    match skip cs with
    | '.' :: cs => (readParts? n cs).map fun r => (name :: r.1, r.2)
    | cs => some ([name], cs)

/-- Reads a key with the blanks around it. -/
def readKey? (cs : List Char) : Option (List String × List Char) :=
  (readParts? (cs.length + 1) cs).filter fun r => r.1.length ≤ maxDepth

/-! ## Values -/

mutual

/-- Reads a value in which arrays and tables are nested no deeper than `depth`. -/
def readValue? : Nat → Nat → List Char → Option (Tree × List Char)
  | 0, _, _ => none
  | n + 1, depth, cs =>
    match cs, depth with
    | '[' :: rest, depth + 1 => (readItems? n depth rest).map fun r => (.list r.1, r.2)
    | '\x7b' :: rest, depth + 1 =>
      match skip rest with
      | '\x7d' :: rest => some (.table [], rest)
      | rest => (readPairs? n depth [] rest).map fun r => (.table (entriesToTree r.1), r.2)
    | '"' :: _, _ => (readString? cs).map fun r => (.text (String.ofList r.1), r.2)
    | '\x27' :: _, _ => (readString? cs).map fun r => (.text (String.ofList r.1), r.2)
    | cs, _ => readWord? cs

/-- Reads the items of an array up to its closing bracket; a comma may follow the last. -/
def readItems? : Nat → Nat → List Char → Option (List Tree × List Char)
  | 0, _, _ => none
  | n + 1, depth, cs =>
    match skipLines? cs.length cs with
    | none => none
    | some (']' :: rest) => some ([], rest)
    | some cs =>
      match readValue? n depth cs with
      | none => none
      | some (t, rest) =>
        match skipLines? rest.length rest with
        | some (',' :: rest) => (readItems? n depth rest).map fun r => (t :: r.1, r.2)
        | some (']' :: rest) => some ([t], rest)
        | _ => none

/-- Reads the entries of a table in braces up to the closing one; there is at least one. -/
def readPairs? : Nat → Nat → Entries → List Char → Option (Entries × List Char)
  | 0, _, _, _ => none
  | n + 1, depth, es, cs =>
    match readKey? cs with
    | some (path, '=' :: rest) =>
      match readValue? n depth (skip rest) with
      | none => none
      | some (t, rest) =>
        match Entries.define? path (.value t) es with
        | none => none
        | some es =>
          match skip rest with
          | ',' :: rest => readPairs? n depth es rest
          | '\x7d' :: rest => some (es, rest)
          | _ => none
    | _ => none

end

/-! ## Documents -/

/-- Splits the last part off a key. -/
def splitLast? (path : List String) : Option (List String × String) :=
  path.getLast?.map fun name => (path.dropLast, name)

/-- Reads one definition up to the end of its line. -/
def readStatement? (cs : List Char) : Option (Statement × List Char) :=
  match cs with
  | '[' :: '[' :: rest =>
    match readKey? rest with
    | some (path, ']' :: ']' :: rest) => do
      let (path, name) ← splitLast? path
      return (.item path name, ← endLine? rest)
    | _ => none
  | '[' :: rest =>
    match readKey? rest with
    | some (path, ']' :: rest) => do
      let (path, name) ← splitLast? path
      return (.table path name, ← endLine? rest)
    | _ => none
  | cs =>
    match readKey? cs with
    | some (path, '=' :: rest) => do
      let (t, rest) ← readValue? (2 * rest.length + 2) maxDepth (skip rest)
      return (.pair path t, ← endLine? rest)
    | _ => none

/-- Reads the definitions of a document. -/
def readStatements? : Nat → List Char → Option (List Statement)
  | 0, _ => none
  | n + 1, cs => do
    let cs ← skipLines? cs.length cs
    if cs.isEmpty then
      return []
    let (s, cs) ← readStatement? cs
    return s :: (← readStatements? n cs)

/-- Reads a document; a byte order mark may stand before it. -/
def read? (s : String) : Option Tree := do
  let cs :=
    match s.toList with
    | '\ufeff' :: cs => cs
    | cs => cs
  let statements ← readStatements? (cs.length + 1) cs
  return .table (entriesToTree (← build? [] [] statements))

end WaveFinder.Toml
