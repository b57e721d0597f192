import WaveFinder.Text.Split
import WaveFinder.Zone.Clock

/-!
# Zone/Posix — clocks with a yearly summer time

The rule of a host's own zone, in the notation `STD offset DST [offset] , start , end` where the
offsets count *west* of Greenwich and the changes fall on the `w`-th weekday `d` of month `m`.  The
rule holds in every year.

The two directions are looked up in different ways.  The offset at an instant is decided by the
moments of the changes (`isSummerAt`).  The offsets of a wall-clock time are found by going through
the changes of its year in the order of their months (`offsetsAlong`); when the clock is put back, a
time within the hour shown twice has the occurrence with the new offset first.  A year in which both
changes fall into one month counts as one that begins and ends in summer, so the times that this
gets wrong have no instant at all: `Clock.resolve` finds that the clock does not show them.
-/

namespace WaveFinder

open Text

-- Sums of natural numbers are core's here, whatever else is in scope.
attribute [local instance (2000)] Zero.ofOfNat0

/-- The moment of a yearly change, on the clock that is in use until then. -/
structure Changeover where
  /-- The month, from 1. -/
  month : Nat
  /-- Which of the month's weekdays: 1 is the first, 5 the last. -/
  week : Nat
  /-- The weekday, from 0 for Sunday. -/
  weekday : Nat
  /-- The time of day, in seconds. -/
  time : Int
  deriving DecidableEq, Repr

/-- The summer time of a zone. -/
structure Summer where
  /-- Seconds ahead of UTC in summer. -/
  offset : Int
  /-- When summer time begins, on the standard clock. -/
  start : Changeover
  /-- When summer time ends, on the summer clock. -/
  stop : Changeover
  deriving DecidableEq, Repr

/-- A standard offset, and perhaps a summer time. -/
structure PosixRule where
  /-- Seconds ahead of UTC outside summer time. -/
  standard : Int
  /-- The summer time, if the zone has one. -/
  summer : Option Summer
  deriving DecidableEq, Repr

/-- The weekday of a day number, from 0 for Sunday; 1 January 1970 was a Thursday. -/
def weekdayOf (n : Int) : Int :=
  (n + 4) % 7

namespace Changeover

/-- The day number of the change in a year. -/
def dayIn (ch : Changeover) (y : Int) : Int :=
  let months := (Calendar.monthLengths (Calendar.isLeap y)).take (ch.month - 1)
  let first := Calendar.yearStart y - Calendar.epochDay + (months.sum : Int)
  let hit := first + ((ch.weekday : Int) - weekdayOf first) % 7 + 7 * ((ch.week : Int) - 1)
  if hit < first + Calendar.daysInMonth y ch.month then hit else hit - 7

/-- The wall-clock second of the change in a year. -/
def wallIn (ch : Changeover) (y : Int) : Int :=
  ch.dayIn y * 86400 + ch.time

end Changeover

namespace PosixRule

/-- The year that a second falls in. -/
def yearAt (s : Int) : Int :=
  Calendar.yearOf (s / 86400 + Calendar.epochDay)

/-- Whether summer time is in force at an instant, given in seconds.  If summer begins before it
ends in the year of the instant, it is in force from a beginning to the end in the same year, and
otherwise except from an end to the beginning in the same year; a change may fall into a neighbouring
year of UTC. -/
def isSummerAt (standard : Int) (summer : Summer) (s : Int) : Bool :=
  let start := fun y => summer.start.wallIn y - standard
  let stop := fun y => summer.stop.wallIn y - summer.offset
  let y := yearAt s
  let years := [y - 1, y, y + 1]
  if start y ≤ stop y then
    years.any fun z => start z ≤ s && s < stop z
  else
    !years.any fun z => stop z ≤ s && s < start z

/-- The seconds that the clock is ahead of UTC at an instant, given in seconds. -/
def offsetAt (rule : PosixRule) (s : Int) : Int :=
  match rule.summer with
  | none => rule.standard
  | some summer => if isSummerAt rule.standard summer s then summer.offset else rule.standard

/-- The offsets that a wall-clock second may have, given the offset that is in use first and the
changes to come, each with its wall-clock second and the offset after it.  A clock that is put
forward skips times; one that is put back repeats them, and the offset after the change is first. -/
def offsetsAlong (s : Int) (now : Int) : List (Int × Int) → List Int
  | [] => [now]
  | (w, next) :: changes =>
    if now ≤ next then
      if s < w then [now]
      else if s < w + (next - now) then []
      else offsetsAlong s next changes
    else
      if s < w + (next - now) then [now]
      else if s ≤ w then [next, now]
      else offsetsAlong s next changes

/-- The offsets that a wall-clock second may have. -/
def offsetsOf (rule : PosixRule) (s : Int) : List Int :=
  match rule.summer with
  | none => [rule.standard]
  | some summer =>
    let toSummer := (summer.start.wallIn (yearAt s), summer.offset)
    let toStandard := (summer.stop.wallIn (yearAt s), rule.standard)
    if summer.start.month < summer.stop.month then
      offsetsAlong s rule.standard [toSummer, toStandard]
    else
      offsetsAlong s summer.offset [toStandard, toSummer]

/-- The clock that follows a rule. -/
def clock (rule : PosixRule) : Clock where
  offsetAt := fun t => 1000 * rule.offsetAt (t / 1000)
  occurrences := fun w =>
    match rule.offsetsOf (w / 1000) with
    | [] => .skipped
    | [o] => .once (w - 1000 * o)
    | o :: p :: _ => .twice (w - 1000 * o) (w - 1000 * p)

/-! ## Notation -/

/-- Whether a text can be a zone's abbreviation: three to seven letters, digits and signs. -/
def isName (cs : List Char) : Bool :=
  3 ≤ cs.length && cs.length ≤ 7 && cs.all fun c => c.isAlphanum || c == '+' || c == '-'

/-- Reads a zone's abbreviation off the front: letters, or anything between angle brackets. -/
def scanName : List Char → Option (List Char)
  | '<' :: cs =>
    match cs.dropWhile (· != '>') with
    | '>' :: rest => if isName (cs.takeWhile (· != '>')) then some rest else none
    | _ => none
  | cs => if isName (cs.takeWhile Char.isAlpha) then some (cs.dropWhile Char.isAlpha) else none

/-- Reads a run of digits off the front. -/
def scanNat (cs : List Char) : Option (Nat × List Char) :=
  (Numeral.toNat? (cs.takeWhile Char.isDigit)).map fun n => (n, cs.dropWhile Char.isDigit)

/-- Reads a part `:dd` of a time, which may be missing. -/
def scanPart : List Char → Option (Nat × List Char)
  | ':' :: cs => scanNat cs
  | cs => some (0, cs)

/-- Reads a time of day `h[:mm[:ss]]` off the front, in seconds; the hour may be 24. -/
def scanTime (cs : List Char) : Option (Int × List Char) := do
  let (h, cs) ← scanNat cs
  let (m, cs) ← scanPart cs
  let (s, cs) ← scanPart cs
  if h ≤ 24 ∧ m ≤ 59 ∧ s ≤ 59 then some ((3600 * h + 60 * m + s : Nat), cs) else none

/-- Reads an offset `[+-]h[:mm[:ss]]` off the front, in seconds. -/
def scanOffset : List Char → Option (Int × List Char)
  | '-' :: cs => (scanTime cs).map fun r => (-r.1, r.2)
  | '+' :: cs => scanTime cs
  | cs => scanTime cs

/-- Reads a change `,Mm.w.d[/time]` off the front; it is at two o'clock unless a time is given. -/
def scanChangeover : List Char → Option (Changeover × List Char)
  | ',' :: 'M' :: cs => do
    let (month, cs) ← scanNat cs
    let (week, cs) ← scanNat (← dot? cs)
    let (weekday, cs) ← scanNat (← dot? cs)
    let (time, cs) ←
      match cs with
      | '/' :: cs => scanTime cs
      | cs => some (7200, cs)
    if 1 ≤ month ∧ month ≤ 12 ∧ 1 ≤ week ∧ week ≤ 5 ∧ weekday ≤ 6 then
      some (⟨month, week, weekday, time⟩, cs)
    else
      none
  | _ => none
where
  /-- Takes a full stop off the front. -/
  dot? : List Char → Option (List Char)
    | '.' :: cs => some cs
    | _ => none

/-- Reads the rule of a zone; blanks around it do not matter.  Summer time is an hour ahead of
standard time unless it is given. -/
def ofText? (cs : List Char) : Option PosixRule := do
  let cs ← scanName (trim isAsciiBlank cs)
  let (west, cs) ← scanOffset cs
  if cs.isEmpty then
    return ⟨-west, none⟩
  let cs ← scanName cs
  let (summerWest, cs) ←
    match cs with
    | ',' :: _ => some (west - 3600, cs)
    | _ => scanOffset cs
  let (start, cs) ← scanChangeover cs
  let (stop, cs) ← scanChangeover cs
  if cs.isEmpty then some ⟨-west, some ⟨-summerWest, start, stop⟩⟩ else none

end PosixRule

end WaveFinder
