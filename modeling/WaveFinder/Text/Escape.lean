import WaveFinder.Text.Numeral

/-!
# Text/Escape — backslash escapes and quoted texts

The quoted texts of settings, which cannot hold control characters other than the tab unless they
are escaped.  The escapes are the short ones of one letter, and `u` and `U` with the code point in
four or eight hexadecimal digits.
-/

namespace WaveFinder.Text.Escape

/-- Reads so many hexadecimal digits off the front, which have to be a code point of a character. -/
def readHex? (count : Nat) (cs : List Char) : Option (Char × List Char) := do
  let digits := cs.take count
  if digits.length != count then none
  let n ← digits.foldlM (fun n c => (Numeral.hexValue? c).map (16 * n + ·)) 0
  if n.isValidChar then some (Char.ofNat n, cs.drop count) else none

/-- The character of a short escape. -/
def short? (c : Char) : Option Char :=
  if c == '"' then some '"'
  else if c == '\\' then some '\\'
  else if c == 'b' then some '\x08'
  else if c == 'f' then some '\x0c'
  else if c == 'n' then some '\n'
  else if c == 'r' then some '\r'
  else if c == 't' then some '\t'
  else none

/-- Reads what follows a backslash: the character that it stands for, and the rest. -/
def read? : List Char → Option (Char × List Char)
  | 'u' :: cs => readHex? 4 cs
  | 'U' :: cs => readHex? 8 cs
  | c :: cs => (short? c).map fun d => (d, cs)
  | [] => none

/-- Whether a character needs no escape for being a control character. -/
def isPlain (c : Char) : Bool :=
  c == '\t' || (32 ≤ c.toNat && c.toNat != 127)

/-- Reads so many characters at most of a quoted text, up to its closing quotation mark. -/
def readUpTo? : Nat → List Char → Option (List Char × List Char)
  | 0, _ => none
  | _, [] => none
  | _, '"' :: cs => some ([], cs)
  | n + 1, '\\' :: cs => do
    let (c, cs) ← read? cs
    let (s, cs) ← readUpTo? n cs
    return (c :: s, cs)
  | n + 1, c :: cs =>
    if isPlain c then (readUpTo? n cs).map fun r => (c :: r.1, r.2) else none

/-- Reads a quoted text after its opening quotation mark, up to the closing one. -/
def readQuoted? (cs : List Char) : Option (List Char × List Char) :=
  readUpTo? (cs.length + 1) cs

end WaveFinder.Text.Escape
