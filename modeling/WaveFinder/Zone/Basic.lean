import WaveFinder.Text.Split
import WaveFinder.Zone.Posix

/-!
# Zone/Basic — the zones a search can name

A zone is named in text as `utc` (or `z`), as `local`, or by its offset, as in `+05:30`; the text
is laxer than what is written back.  Where the calendar is needed a zone stands for a clock, and the
host's clock is handed in for `local`.
-/

namespace WaveFinder

open Text

/-- A whole number of minutes ahead of UTC, less than a day either way. -/
structure Offset where
  /-- The minutes. -/
  minutes : Int
  /-- The clock is less than a day ahead or behind. -/
  isBounded : -1440 < minutes ∧ minutes < 1440
  deriving DecidableEq

/-- The zone in which dates are read and written. -/
inductive Zone where
  /-- Coordinated universal time. -/
  | utc
  /-- The zone of the host. -/
  | host
  /-- A fixed offset. -/
  | offset (o : Offset)
  deriving DecidableEq

instance : Inhabited Zone := ⟨.utc⟩

/-- A text that names no zone. -/
structure ZoneError where
  /-- The text as it was given. -/
  text : String
  deriving DecidableEq, Repr

namespace ZoneError

/-- The wording of the error. -/
def message (e : ZoneError) : String :=
  "invalid time zone '" ++ e.text ++ "': expected 'utc', 'local' or an offset like '+05:30'"

end ZoneError

namespace Offset

/-- The offset of so many minutes, if it is less than a day. -/
def of? (minutes : Int) : Option Offset :=
  if h : -1440 < minutes ∧ minutes < 1440 then some ⟨minutes, h⟩ else none

/-- The minutes of `hhmm`, if the minutes part is below 60. -/
def hourMinutes? (digits : List Char) : Option Nat :=
  if digits.length == 4 && digits.all Char.isDigit then
    let h := Nat.ofDigitChars 10 (digits.take 2) 0
    let m := Nat.ofDigitChars 10 (digits.drop 2) 0
    if m < 60 then some (60 * h + m) else none
  else
    none

/-- Reads a sign and four digits; colons are skipped wherever they stand after the sign. -/
def ofText? : List Char → Option Offset
  | '+' :: cs => (hourMinutes? (cs.filter (· != ':'))).bind fun (n : Nat) => of? n
  | '-' :: cs => (hourMinutes? (cs.filter (· != ':'))).bind fun (n : Nat) => of? (-(n : Int))
  | _ => none

/-- The offset as a sign, hours and minutes. -/
def text (o : Offset) : List Char :=
  (if o.minutes < 0 then '-' else '+') :: Numeral.padded 2 (o.minutes.natAbs / 60)
    ++ ':' :: Numeral.padded 2 (o.minutes.natAbs % 60)

/-- The offset in milliseconds. -/
def millis (o : Offset) : Int :=
  o.minutes * 60000

end Offset

namespace Zone

/-- Reads the name of a zone; blanks around it and the case of `utc`, `z` and `local` do not
matter. -/
def ofText? (cs : List Char) : Option Zone :=
  let cs := trim isBlank cs
  let name := String.ofList (cs.map Char.toLower)
  if name = "utc" ∨ name = "z" then some .utc
  else if name = "local" then some .host
  else (Offset.ofText? cs).map .offset

/-- Reads the name of a zone. -/
def parse (s : String) : Except ZoneError Zone :=
  match ofText? s.toList with
  | some z => .ok z
  | none => .error ⟨s⟩

/-- The written name of a zone. -/
def text : Zone → String
  | utc => "utc"
  | host => "local"
  | offset o => String.ofList o.text

/-- The clock of a zone, on a host with the given clock. -/
def clock (hostClock : Clock) : Zone → Clock
  | utc => Clock.utc
  | host => hostClock
  | offset o => Clock.fixed o.millis

end Zone

end WaveFinder
