import WaveFinder.Text.Blank
import WaveFinder.Text.LetterTable
import WaveFinder.Text.Split

/-!
# Settings/EnvFile — variables from an `.env` file

A file of lines `NAME=value` adds variables to an environment.  What is set already stays, also
against the same file; reading stops at the first line that is malformed, and the lines before it
count.  Quotes keep blanks and may run over several lines, `$NAME` and `${NAME}` stand for variables
set by then, and a comment follows a blank and a `#`.
-/

namespace WaveFinder

open Text

/-- Variables and their values; the first definition of a name counts. -/
abbrev Environment := List (String × String)

namespace Environment

/-- The value of a variable. -/
def get? (env : Environment) (name : String) : Option String :=
  (env.find? fun v => v.1 == name).map Prod.snd

/-- Sets a variable unless it is set. -/
def setNew (env : Environment) (name value : String) : Environment :=
  if (env.get? name).isSome then env else env ++ [(name, value)]

end Environment

namespace EnvFile

/-! ## Lines -/

/-- Where the end of a piece of text stands with regard to quotes. -/
inductive Standing where
  /-- Outside quotes. -/
  | outside
  /-- Outside quotes, after a blank. -/
  | blank
  /-- After a backslash outside quotes. -/
  | escape
  /-- In double quotes. -/
  | double
  /-- After a backslash in double quotes. -/
  | doubleEscape
  /-- In single quotes. -/
  | single
  /-- After a backslash in single quotes. -/
  | singleEscape
  deriving DecidableEq

namespace Standing

/-- The standing after one more character. -/
def next : Standing → Char → Standing
  | .outside, c =>
    if isBlank c && c != '\n' && c != '\r' then .blank
    else if c == '\\' then .escape
    else if c == '"' then .double
    else if c == '\x27' then .single
    else .outside
  | .blank, c =>
    if c == '\\' then .escape
    else if c == '"' then .double
    else if c == '\x27' then .single
    else .outside
  | .escape, _ => .outside
  | .double, c => if c == '\\' then .doubleEscape else if c == '"' then .outside else .double
  | .doubleEscape, _ => .double
  | .single, c => if c == '\\' then .singleEscape else if c == '\x27' then .outside else .single
  | .singleEscape, _ => .single

end Standing

/-- Goes through one line: the part before a comment, and the standing at its end, which is `none`
if there is a comment. -/
def scanLine (st : Standing) : List Char → List Char × Option Standing
  | [] => ([], some st)
  | c :: cs =>
    if st = .blank ∧ c = '#' then ([], none)
    else
      let r := scanLine (st.next c) cs
      (c :: r.1, r.2)

/-- The lines of a text, each with its line break. -/
def physicalLines : List Char → List (List Char)
  | [] => []
  | c :: cs =>
    if c == '\n' then [c] :: physicalLines cs
    else
      match physicalLines cs with
      | [] => [[c]]
      | l :: ls => (c :: l) :: ls

/-- Drops the line break at the end of a line. -/
def dropBreak (line : List Char) : List Char :=
  match line.reverse with
  | '\n' :: '\r' :: cs => cs.reverse
  | '\n' :: cs => cs.reverse
  | _ => line

/-- Puts the lines together over which quotes run; `none` stands for an end of the text inside
quotes.  Lines that are comments are left empty. -/
def logicalLines (before : List Char) (st : Standing) :
    List (List Char) → List (Option (List Char))
  | [] => if st = .outside then [] else [none]
  | l :: ls =>
    if ((before ++ l).dropWhile isBlank).head? = some '#' then
      some [] :: logicalLines [] .outside ls
    else
      match scanLine st l with
      | (part, none) => some (before ++ part) :: logicalLines [] .outside ls
      | (_, some .outside) => some (dropBreak (before ++ l)) :: logicalLines [] .outside ls
      | (_, some st) => logicalLines (before ++ l) st ls

/-! ## Values -/

/-- The name of a variable that is being read inside a value. -/
inductive Reference where
  /-- `$NAME`, so far. -/
  | plain (name : List Char)
  /-- `${NAME`, so far. -/
  | braced (name : List Char)

/-- How far a value has been read. -/
structure Progress where
  /-- In single quotes. -/
  single : Bool := false
  /-- In double quotes. -/
  double : Bool := false
  /-- After a backslash. -/
  escaped : Bool := false
  /-- After the blank that ends the value. -/
  ended : Bool := false
  /-- The reference that is being read. -/
  reference : Option Reference := none
  /-- The value so far. -/
  value : List Char := []

/-- The characters that a variable stands for; none if it is not set. -/
def expansion (env : Environment) (name : List Char) : List Char :=
  ((env.get? (String.ofList name)).getD "").toList

/-- The value at the end of the text; there is none inside quotes or braces. -/
def finish? (env : Environment) (p : Progress) : Option (List Char) :=
  if p.single || p.double then none
  else
    match p.reference with
    | none => some p.value
    | some (.plain name) => some (p.value ++ expansion env name)
    | some (.braced _) => none

/-- Takes a character that belongs to a reference, or ends it. -/
def stepReference (env : Environment) (p : Progress) (c : Char) : Reference → Progress
  | .plain name =>
    if isLetterOrNumber c then { p with reference := some (.plain (name ++ [c])) }
    else if c == '\x7b' && name.isEmpty then { p with reference := some (.braced []) }
    else
      let value := p.value ++ expansion env name
      if c == '$' then { p with reference := some (.plain []), value }
      else { p with reference := none, value := value ++ [c] }
  | .braced name =>
    if c == '\x7d' then { p with reference := none, value := p.value ++ expansion env name }
    else { p with reference := some (.braced (name ++ [c])) }

/-- Reads a value on; a comment ends it, and anything else after a blank is a fault. -/
def readValue? (env : Environment) (p : Progress) : List Char → Option (List Char)
  | [] => finish? env p
  | c :: cs =>
    if p.ended then
      if c == ' ' || c == '\t' then readValue? env p cs
      else if c == '#' then finish? env p
      else none
    else if p.escaped then
      if c == '\\' || c == '\x27' || c == '"' || c == '$' || c == ' ' then
        readValue? env { p with escaped := false, value := p.value ++ [c] } cs
      else if c == 'n' then
        readValue? env { p with escaped := false, value := p.value ++ ['\n'] } cs
      else none
    else if p.single then
      if c == '\x27' then readValue? env { p with single := false } cs
      else readValue? env { p with value := p.value ++ [c] } cs
    else
      match p.reference with
      | some r => readValue? env (stepReference env p c r) cs
      | none =>
        if c == '$' then readValue? env { p with reference := some (.plain []) } cs
        else if c == '\\' then readValue? env { p with escaped := true } cs
        else if p.double then
          if c == '"' then readValue? env { p with double := false } cs
          else readValue? env { p with value := p.value ++ [c] } cs
        else if c == '\x27' then readValue? env { p with single := true } cs
        else if c == '"' then readValue? env { p with double := true } cs
        else if c == ' ' || c == '\t' then readValue? env { p with ended := true } cs
        else readValue? env { p with value := p.value ++ [c] } cs

/-! ## Definitions -/

/-- Reads a name off the front. -/
def readName? (cs : List Char) : Option (List Char × List Char) :=
  match cs with
  | [] => none
  | c :: _ =>
    if c.isAlpha || c == '_' then
      let isNameChar := fun (c : Char) => isAsciiAlphanum c || c == '_' || c == '.'
      some (cs.takeWhile isNameChar, cs.dropWhile isNameChar)
    else
      none

/-- Reads a name and the equals sign after it. -/
def readDefined? (cs : List Char) : Option (List Char × List Char) := do
  let (name, rest) ← readName? cs
  match rest.dropWhile isBlank with
  | '=' :: rest => some (name, rest)
  | rest =>
    if String.ofList name = "export" then
      let (name, rest) ← readName? rest
      match rest.dropWhile isBlank with
      | '=' :: rest => some (name, rest)
      | _ => none
    else
      none

/-- What a line does to an environment; `none` if the line is malformed. -/
def applyLine? (env : Environment) (line : List Char) : Option Environment :=
  let line := trim isBlank line
  if line.isEmpty || line.head? == some '#' then
    some env
  else do
    let (name, rest) ← readDefined? line
    let rest := rest.dropWhile isBlank
    let value ← if rest.isEmpty || rest.head? == some '#' then some [] else readValue? env {} rest
    return env.setNew (String.ofList name) (String.ofList value)

/-- Adds the definitions of lines up to the first that is malformed. -/
def applyLines (env : Environment) : List (Option (List Char)) → Environment
  | [] => env
  | none :: _ => env
  | some line :: lines =>
    match applyLine? env line with
    | some env => applyLines env lines
    | none => env

/-- Adds the definitions of a file to an environment. -/
def apply (env : Environment) (content : String) : Environment :=
  let cs :=
    match content.toList with
    | '\ufeff' :: cs => cs
    | cs => cs
  applyLines env (logicalLines [] .outside (physicalLines cs))

end EnvFile

end WaveFinder
