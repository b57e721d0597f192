import WaveFinder.Query.Basic
import WaveFinder.Text.Blank
import WaveFinder.Text.Split
import WaveFinder.Zone.Clock

/-!
# Query/Text — queries as text

    text ──parse──▸ Query ──render──▸ text

A query is written as tokens `key:value` with blanks between them.  Values are checked as they come
and the first fault ends the reading; days are read in the zone of a clock and kept as the instant
at which they begin.  `render` writes the values of one key after another and turns instants back
into days.
-/

namespace WaveFinder

open Text

/-- Why a text is no query; each fault carries the part of the text that is to blame. -/
inductive QueryFault where
  /-- A token that is not a known key and a value with one colon between them. -/
  | malformed (token : String)
  /-- No sort key. -/
  | unknownOrder (value : String)
  /-- No date field. -/
  | unknownDateField (value : String)
  /-- A date field other than the one named before. -/
  | conflictingDateField (value : String)
  /-- No day. -/
  | invalidDay (value : String)
  deriving DecidableEq, Repr

namespace QueryFault

/-- The part of the text that is to blame. -/
def offending : QueryFault → String
  | malformed token => token
  | unknownOrder value => value
  | unknownDateField value => value
  | conflictingDateField value => value
  | invalidDay value => value

/-- What is wrong with it. -/
def complaint : QueryFault → String
  | malformed _ => "Invalid query param: "
  | unknownOrder _ => "Invalid orderby query value: "
  | unknownDateField _ => "Invalid usedate query value: "
  | conflictingDateField _ => "Conflicting usedate query value: "
  | invalidDay _ => "Invalid date query value: "

/-- The wording of a fault. -/
def message (f : QueryFault) : String :=
  f.complaint ++ f.offending

end QueryFault

namespace Query

/-! ## Reading -/

/-- The tokens of a text: its maximal runs of characters other than ASCII blanks. -/
def tokens (s : String) : List (List Char) :=
  runs isAsciiBlank s.toList

/-- The key and the value of a token. -/
def splitToken? (token : List Char) : Option (Key × String) :=
  match pieces (· == ':') token with
  | [key, value] =>
    if key.isEmpty || value.isEmpty then none
    else (Key.ofToken? (String.ofList key)).map fun k => (k, String.ofList value)
  | _ => none

/-- Checks a value against its key and what the query holds already; gives the value to keep. -/
def check (clock : Clock) (q : Query) (k : Key) (value : String) : Except QueryFault String :=
  match k with
  | .order => if (SortKey.ofToken? value).isSome then .ok value else .error (.unknownOrder value)
  | .dateField =>
    match DateField.ofToken? value, q.first? .dateField with
    | none, _ => .error (.unknownDateField value)
    | some _, none => .ok value
    | some _, some before =>
      if before = value then .ok value else .error (.conflictingDateField value)
  | .firstDay | .lastDay =>
    match clock.readDay? value.toList with
    | some t => .ok (String.ofList (Numeral.ofInt t))
    | none => .error (.invalidDay value)
  | .folder | .person | .creator | .id | .tag => .ok value

/-- Adds one token to a query. -/
def accept (clock : Clock) (q : Query) (token : List Char) : Except QueryFault Query :=
  match splitToken? token with
  | none => .error (.malformed (String.ofList token))
  | some (k, value) => (q.check clock k value).map (q.insert k)

/-- Reads a query, days in the zone of a clock. -/
def parse (clock : Clock) (s : String) : Except QueryFault Query :=
  (tokens s).foldlM (accept clock) empty

/-! ## Writing -/

/-- A value as it is written: the day at an instant for the keys of days, and the value itself
otherwise. -/
def valueText (clock : Clock) (k : Key) (value : String) : Except UnreadableClock String :=
  if k.isDay then
    match Numeral.toWord? value.toList with
    | none => .ok value
    | some t => (clock.dayText t).map fun day => (day.map String.ofList).getD value
  else
    .ok value

/-- A key and a value as a token. -/
def tokenText (k : Key) (value : String) : String :=
  k.token ++ ":" ++ value

/-- The tokens of a query. -/
def tokenTexts (clock : Clock) (q : Query) : Except UnreadableClock (List String) :=
  (q.entries.flatMap fun e => e.2.map fun v => (e.1, v)).mapM fun p =>
    (valueText clock p.1 p.2).map (tokenText p.1)

/-- Writes a query, days in the zone of a clock. -/
def render (clock : Clock) (q : Query) : Except UnreadableClock String :=
  (q.tokenTexts clock).map (" ".intercalate ·)

/-! ## What reading is made of -/

theorem parse_of_tokens {clock : Clock} {s t : String} (h : tokens s = tokens t) :
    parse clock s = parse clock t := by
  rw [parse, parse, h]

/-- **The tokens before decide first**: what follows is added to the query that they make. -/
theorem foldlM_accept_append (clock : Clock) (q : Query) (ts us : List (List Char)) :
    (ts ++ us).foldlM (accept clock) q
      = (ts.foldlM (accept clock) q).bind fun p => us.foldlM (accept clock) p :=
  List.foldlM_append ..

end Query

end WaveFinder
