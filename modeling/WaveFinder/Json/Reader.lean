import WaveFinder.Json.Basic

/-!
# Json/Reader — reading JSON text

`Json.read?` takes one value with nothing but blanks around it.  Every reader works on the
characters that are left and hands on the rest; the nesting is bounded by a count that the length of
the text always covers.
-/

namespace WaveFinder.Json

open Text

/-- The blanks of JSON. -/
def isSpace (c : Char) : Bool :=
  c == ' ' || c == '\t' || c == '\n' || c == '\r'

/-- Skips blanks. -/
def skip (cs : List Char) : List Char :=
  cs.dropWhile isSpace

/-! ## Strings -/

/-- What one character or escape of a string stands for. -/
inductive Piece where
  | char (c : Char)
  /-- Half of a character outside the basic plane. -/
  | surrogate (n : Nat)

/-- The value of four hexadecimal digits. -/
def hexValue4? (a b c d : Char) : Option Nat := do
  let upper := 16 * (← Numeral.hexValue? a) + (← Numeral.hexValue? b)
  let lower := 16 * (← Numeral.hexValue? c) + (← Numeral.hexValue? d)
  return 256 * upper + lower

/-- What a code unit stands for. -/
def Piece.ofUnit (n : Nat) : Piece :=
  if 0xD800 ≤ n ∧ n ≤ 0xDFFF then .surrogate n else .char (Char.ofNat n)

/-- What the escape of one letter stands for. -/
def shortEscape? (c : Char) : Option Char :=
  if c == '"' then some '"'
  else if c == '\\' then some '\\'
  else if c == '/' then some '/'
  else if c == 'b' then some '\x08'
  else if c == 'f' then some '\x0c'
  else if c == 'n' then some '\n'
  else if c == 'r' then some '\r'
  else if c == 't' then some '\t'
  else none

/-- Reads the pieces of a string up to its closing quotation mark. -/
def readPieces? : List Char → Option (List Piece × List Char)
  | [] => none
  | '"' :: cs => some ([], cs)
  | '\\' :: 'u' :: a :: b :: c :: d :: cs =>
    match hexValue4? a b c d, readPieces? cs with
    | some n, some (ps, rest) => some (.ofUnit n :: ps, rest)
    | _, _ => none
  | '\\' :: e :: cs =>
    match shortEscape? e, readPieces? cs with
    | some c, some (ps, rest) => some (.char c :: ps, rest)
    | _, _ => none
  | c :: cs =>
    if c.toNat < 32 then none
    else
      match readPieces? cs with
      | some (ps, rest) => some (.char c :: ps, rest)
      | none => none

/-- The text that pieces spell, if every surrogate has its partner. -/
def joinPieces? : List Piece → Option (List Char)
  | [] => some []
  | .char c :: ps => (joinPieces? ps).map (c :: ·)
  | .surrogate h :: .surrogate l :: ps =>
    if h < 0xDC00 ∧ 0xDC00 ≤ l then
      (joinPieces? ps).map (Char.ofNat (0x10000 + 1024 * (h - 0xD800) + (l - 0xDC00)) :: ·)
    else
      none
  | .surrogate _ :: _ => none

/-- Reads a string after its opening quotation mark. -/
def readString? (cs : List Char) : Option (Option String × List Char) :=
  (readPieces? cs).map fun r => ((joinPieces? r.1).map String.ofList, r.2)

/-! ## Numbers -/

/-- Takes one or more digits off the front. -/
def readDigits? (cs : List Char) : Option (List Char × List Char) :=
  let digits := cs.takeWhile Char.isDigit
  if digits.isEmpty then none else some (digits, cs.dropWhile Char.isDigit)

/-- Takes a fraction off the front, if there is one; `none` if the point has no digits after it. -/
def readFraction? : List Char → Option (List Char × List Char)
  | '.' :: cs => (readDigits? cs).map fun r => ('.' :: r.1, r.2)
  | cs => some ([], cs)

/-- Takes an exponent off the front, if there is one; `none` if it has no digits. -/
def readExponent? : List Char → Option (List Char × List Char)
  | e :: cs =>
    if e == 'e' || e == 'E' then
      match cs with
      | '+' :: cs => (readDigits? cs).map fun r => (e :: '+' :: r.1, r.2)
      | '-' :: cs => (readDigits? cs).map fun r => (e :: '-' :: r.1, r.2)
      | cs => (readDigits? cs).map fun r => (e :: r.1, r.2)
    else
      some ([], e :: cs)
  | [] => some ([], [])

/-- Reads a number that follows a sign, or stands at the front without one.  Minus zero is no whole
number. -/
def readUnsigned? (sign cs : List Char) : Option (Json × List Char) := do
  let (digits, cs) ← readDigits? cs
  if digits.head? == some '0' && digits.length != 1 then
    none
  let (fraction, cs) ← readFraction? cs
  let (exponent, cs) ← readExponent? cs
  let value := Nat.ofDigitChars 10 digits 0
  if fraction.isEmpty && exponent.isEmpty && (sign.isEmpty || value != 0) then
    return (.int (if sign.isEmpty then (value : Int) else -(value : Int)), cs)
  else
    return (.real (sign ++ digits ++ fraction ++ exponent), cs)

/-- Reads a number. -/
def readNumber? : List Char → Option (Json × List Char)
  | '-' :: cs => readUnsigned? ['-'] cs
  | cs => readUnsigned? [] cs

/-! ## Values -/

mutual

/-- Reads a value, blanks before it skipped. -/
def readValue? : Nat → List Char → Option (Json × List Char)
  | 0, _ => none
  | n + 1, cs =>
    match skip cs with
    | 'n' :: 'u' :: 'l' :: 'l' :: rest => some (.null, rest)
    | 't' :: 'r' :: 'u' :: 'e' :: rest => some (.bool true, rest)
    | 'f' :: 'a' :: 'l' :: 's' :: 'e' :: rest => some (.bool false, rest)
    | '"' :: rest => (readString? rest).map fun r => (.text r.1, r.2)
    | '[' :: rest =>
      match skip rest with
      | ']' :: rest => some (.list [], rest)
      | rest => (readItems? n rest).map fun r => (.list r.1, r.2)
    | '\x7b' :: rest =>
      match skip rest with
      | '\x7d' :: rest => some (.record [], rest)
      | rest => (readFields? n rest).map fun r => (.record r.1, r.2)
    | rest => readNumber? rest

/-- Reads the items of an array up to its closing bracket; there is at least one. -/
def readItems? : Nat → List Char → Option (List Json × List Char)
  | 0, _ => none
  | n + 1, cs =>
    match readValue? n cs with
    | none => none
    | some (j, rest) =>
      match skip rest with
      | ',' :: rest => (readItems? n rest).map fun r => (j :: r.1, r.2)
      | ']' :: rest => some ([j], rest)
      | _ => none

/-- Reads the fields of an object up to its closing brace; there is at least one. -/
def readFields? : Nat → List Char → Option (List (Option String × Json) × List Char)
  | 0, _ => none
  | n + 1, cs =>
    match skip cs with
    | '"' :: rest =>
      match readString? rest with
      | none => none
      | some (key, rest) =>
        match skip rest with
        | ':' :: rest =>
          match readValue? n rest with
          | none => none
          | some (j, rest) =>
            match skip rest with
            | ',' :: rest => (readFields? n rest).map fun r => ((key, j) :: r.1, r.2)
            | '\x7d' :: rest => some ([(key, j)], rest)
            | _ => none
        | _ => none
    | _ => none

end

/-- Reads a text that is one value, with nothing but blanks around it. -/
def readChars? (cs : List Char) : Option Json :=
  match readValue? (2 * cs.length + 1) cs with
  | some (j, rest) => if (skip rest).isEmpty then some j else none
  | none => none

/-- Reads a text that is one value, with nothing but blanks around it. -/
def read? (s : String) : Option Json :=
  readChars? s.toList

end WaveFinder.Json
