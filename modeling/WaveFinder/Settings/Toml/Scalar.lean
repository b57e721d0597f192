import WaveFinder.Calendar.Date
import WaveFinder.Settings.Tree
import WaveFinder.Text.Numeral
import WaveFinder.Text.Split

/-!
# Settings/Toml/Scalar — the bare values of TOML

Truth values, numbers, dates and times are written without quotes.  No setting has a value of these
kinds, so it is enough to tell whether a word is one of them (`ofWord?`).  A date is a compound
value and is taken for a table without entries.
-/

namespace WaveFinder.Toml

open Text

-- Powers of natural numbers are core's here, whatever else is in scope.
attribute [local instance (2000)] instPowNat

/-- The digits of a run in which single underscores may stand between digits. -/
def digitsOf? (isDigit : Char → Bool) (cs : List Char) : Option (List Char) :=
  let groups := pieces (· == '_') cs
  if groups.all fun g => !g.isEmpty && g.all isDigit then some groups.flatten else none

/-- A sign and the rest of a word. -/
def splitSign : List Char → Int × List Char
  | '-' :: cs => (-1, cs)
  | '+' :: cs => (1, cs)
  | cs => (1, cs)

/-- The value of a digit in bases up to sixteen. -/
def digitValue (c : Char) : Nat :=
  if c.isDigit then c.toNat - 48
  else if 'a' ≤ c then c.toNat - 87
  else c.toNat - 55

/-- Whether a run of digits of a base is a number of a signed 64-bit word. -/
def isWordIn (base : Nat) (isDigit : Char → Bool) (cs : List Char) : Bool :=
  match digitsOf? isDigit cs with
  | some ds => Numeral.fitsWord ((ds.foldl (fun n c => base * n + digitValue c) 0 : Nat) : Int)
  | none => false

/-- Whether a character is a hexadecimal digit. -/
def isHexDigit (c : Char) : Bool :=
  c.isDigit || ('a' ≤ c && c ≤ 'f') || ('A' ≤ c && c ≤ 'F')

/-- Whether digits do not start with a superfluous zero. -/
def isTrimmed (cs : List Char) : Bool :=
  cs.length == 1 || cs.head? != some '0'

/-- Whether a word is an integer of a signed 64-bit word. -/
def isInteger : List Char → Bool
  | '0' :: 'x' :: cs => isWordIn 16 isHexDigit cs
  | '0' :: 'o' :: cs => isWordIn 8 (fun c => '0' ≤ c && c ≤ '7') cs
  | '0' :: 'b' :: cs => isWordIn 2 (fun c => c == '0' || c == '1') cs
  | cs =>
    let (sign, cs) := splitSign cs
    match digitsOf? Char.isDigit cs with
    | some ds => isTrimmed cs && Numeral.fitsWord (sign * (Nat.ofDigitChars 10 ds 0 : Nat))
    | none => false

/-- Whether the number `m · 10 ^ e` is rounded to a double-precision number rather than to infinity,
which is where the midpoint between the greatest such number and `2 ^ 1024` begins. -/
def isFinite (m : Nat) (e : Int) : Bool :=
  let size := (Nat.toDigits 10 m).length + e
  if m = 0 ∨ size ≤ 308 then true
  else if 310 ≤ size then false
  else m * 10 ^ e.toNat < (2 ^ (1024 : Nat) - 2 ^ (970 : Nat)) * 10 ^ (-e).toNat

/-- The value of an exponent, which may be missing. -/
def exponent? : List Char → Option Int
  | [] => some 0
  | e :: cs => do
    if e != 'e' && e != 'E' then none
    let (sign, cs) := splitSign cs
    let digits ← digitsOf? Char.isDigit cs
    return sign * (Nat.ofDigitChars 10 digits 0 : Nat)

/-- The digits of a number with a fraction or an exponent, and the power of ten that they are
multiplied with. -/
def parts? (cs : List Char) : Option (List Char × Int) := do
  let isRun := fun (c : Char) => c.isDigit || c == '_'
  let whole ← digitsOf? Char.isDigit (cs.takeWhile isRun)
  if !isTrimmed (cs.takeWhile isRun) then none
  match cs.dropWhile isRun with
  | [] => none
  | '.' :: rest =>
    let fraction ← digitsOf? Char.isDigit (rest.takeWhile isRun)
    return (whole ++ fraction, (← exponent? (rest.dropWhile isRun)) - fraction.length)
  | rest => return (whole, ← exponent? rest)

/-- Whether a word is a number with a fraction or an exponent, infinity, or not a number.  A number
that is too large is none, unless it is negative. -/
def isFloat (cs : List Char) : Bool :=
  let (sign, cs) := splitSign cs
  let s := String.ofList cs
  if s = "inf" ∨ s = "nan" then true
  else
    match parts? cs with
    | some (digits, e) => sign < 0 || isFinite (Nat.ofDigitChars 10 digits 0) e
    | none => false

/-- The number of two digits. -/
def two? : List Char → Option Nat
  | [a, b] => Numeral.toNat? [a, b]
  | _ => none

/-- Whether a text is a date. -/
def isDate (cs : List Char) : Bool :=
  match pieces (· == '-') cs with
  | [y, m, d] =>
    match (if y.length = 4 then Numeral.toNat? y else none), two? m, two? d with
    | some y, some m, some d => (Date.of? y m d).isSome
    | _, _, _ => false
  | _ => false

/-- Whether a text is a time of day. -/
def isTime (cs : List Char) : Bool :=
  let clock := cs.takeWhile (· != '.')
  let fraction := cs.dropWhile (· != '.')
  let isClock :=
    match (pieces (· == ':') clock).map two? with
    | [some h, some m, some s] => h ≤ 23 && m ≤ 59 && s ≤ 60
    | _ => false
  isClock && (fraction.isEmpty || (Numeral.toNat? (fraction.drop 1)).isSome)

/-- Whether a text is a time of day and perhaps the offset of its zone. -/
def isZonedTime (cs : List Char) : Bool :=
  let isSign := fun (c : Char) => c == '+' || c == '-'
  let time := cs.takeWhile fun c => !isSign c
  match cs.dropWhile fun c => !isSign c with
  | [] =>
    match cs.reverse with
    | c :: rest => if c == 'Z' || c == 'z' then isTime rest.reverse else isTime cs
    | [] => false
  | _ :: offset =>
    match (pieces (· == ':') offset).map two? with
    | [some h, some m] => isTime time && h ≤ 23 && m ≤ 59
    | _ => false

/-- Whether a word is a date, a time, or both. -/
def isDateTime (cs : List Char) : Bool :=
  if isDate cs || isTime cs then true
  else
    match cs.drop 10 with
    | c :: rest =>
      (c == 'T' || c == 't' || c == ' ') && isDate (cs.take 10) && isZonedTime rest
    | [] => false

/-- Whether a character may stand in a bare value. -/
def isWordChar (c : Char) : Bool :=
  c.isAlphanum || c == '+' || c == '-' || c == '_' || c == '.' || c == ':'

/-- What a bare value stands for. -/
def ofWord? (cs : List Char) : Option Tree :=
  let s := String.ofList cs
  if s = "true" ∨ s = "false" then some .scalar
  else if isInteger cs || isFloat cs then some .scalar
  else if isDateTime cs then some (.table [])
  else none

/-- Reads a bare value off the front.  A blank may stand between a date and a time. -/
def readWord? (cs : List Char) : Option (Tree × List Char) :=
  let word := cs.takeWhile isWordChar
  let rest := cs.dropWhile isWordChar
  match rest with
  | ' ' :: c :: more =>
    if isDate word && c.isDigit then
      let time := (c :: more).takeWhile isWordChar
      (ofWord? (word ++ ' ' :: time)).map fun t => (t, (c :: more).dropWhile isWordChar)
    else
      (ofWord? word).map fun t => (t, rest)
  | _ => (ofWord? word).map fun t => (t, rest)

end WaveFinder.Toml
