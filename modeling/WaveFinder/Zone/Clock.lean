import WaveFinder.Calendar.Compact

/-!
# Zone/Clock — instants, wall clocks and the days between them

An instant is a number of milliseconds since the start of 1970 in UTC; a wall-clock time is the
same number read off a clock on the wall, as if that clock showed UTC.  A zone is known by two maps,

    instant ──offsetAt──▸ offset          wall-clock time ──occurrences──▸ instants

and nothing is assumed about how they fit together: a time has candidates only if the calendar
covers all its occurrences, and a candidate counts only if the zone's own offset takes it back to
the wall-clock time it was looked up for (`resolve_eq_some_iff`).  Days are read and written by
their midnights (`readDay?`, `dayText`), which undo each other (`dayText_of_readDay?`), and a bound
is widened to the last millisecond of its day (`endOfDay`).
-/

namespace WaveFinder

/-- The number of milliseconds in a day. -/
def dayMillis : Int := 86400000

/-- The instants that the calendar covers: from the first millisecond of its first year to the last
of its last, in UTC. -/
def inCalendar (t : Int) : Bool :=
  decide (-8334601228800000 ≤ t) && decide (t ≤ 8210266876799999)

theorem inCalendar_iff {t : Int} :
    inCalendar t = true ↔ -8334601228800000 ≤ t ∧ t ≤ 8210266876799999 := by
  rw [inCalendar, Bool.and_eq_true, decide_eq_true_eq, decide_eq_true_eq]

/-- The instants of the calendar are numbers that a record or query can hold. -/
theorem fitsWord_of_inCalendar {t : Int} (h : inCalendar t = true) :
    Text.Numeral.fitsWord t = true := by
  have hb := inCalendar_iff.1 h
  rw [Text.Numeral.fitsWord, Bool.and_eq_true, decide_eq_true_eq, decide_eq_true_eq]
  omega

/-- Whether two times are less than a day apart, as UTC and the time on a wall clock are. -/
def isWithinDay (t w : Int) : Bool :=
  decide (t - dayMillis < w) && decide (w < t + dayMillis)

namespace Date

/-- The first millisecond of a date, on a wall clock. -/
def midnight (d : Date) : Int :=
  d.dayNumber * dayMillis

/-- The last millisecond of a date, on a wall clock. -/
def lastMilli (d : Date) : Int :=
  d.midnight + (dayMillis - 1)

/-- The date that a wall-clock time falls on. -/
def ofWall (w : Int) : Date :=
  ofDayNumber (w / dayMillis)

@[simp]
theorem ofWall_midnight (d : Date) : ofWall d.midnight = d := by
  rw [ofWall, midnight, dayMillis, Int.mul_ediv_cancel _ (by decide), ofDayNumber_dayNumber]

@[simp]
theorem ofWall_lastMilli (d : Date) : ofWall d.lastMilli = d := by
  have : d.lastMilli / dayMillis = d.dayNumber := by
    simp only [lastMilli, midnight, dayMillis]
    omega
  rw [ofWall, this, ofDayNumber_dayNumber]

/-- A wall-clock time lies between the first and the last millisecond of its date. -/
theorem midnight_ofWall_le (w : Int) :
    (ofWall w).midnight ≤ w ∧ w ≤ (ofWall w).lastMilli := by
  simp only [lastMilli, midnight, ofWall, dayNumber_ofDayNumber, dayMillis]
  omega

end Date

/-- The instants at which a wall clock shows a given time. -/
inductive Occurrences where
  /-- The clock is put forward over the time. -/
  | skipped
  /-- The clock shows the time once. -/
  | once (t : Int)
  /-- The clock is put back and shows the time twice; the two instants may come in either order. -/
  | twice (first second : Int)
  deriving DecidableEq, Repr

/-- Which instant stands for a wall-clock time that occurs twice. -/
inductive Choice where
  | first
  | second
  deriving DecidableEq, Repr

namespace Occurrences

/-- Whether all the instants have a property. -/
def all (p : Int → Bool) : Occurrences → Bool
  | skipped => true
  | once t => p t
  | twice t u => p t && p u

/-- The chosen instant, if there is any. -/
def choose? (choice : Choice) : Occurrences → Option Int
  | skipped => none
  | once t => some t
  | twice t u =>
    match choice with
    | .first => some t
    | .second => some u

theorem of_choose?_of_all {p : Int → Bool} {choice : Choice} {o : Occurrences} {t : Int}
    (h : o.all p = true) (ht : o.choose? choice = some t) : p t = true := by
  cases o with
  | skipped => cases ht
  | once u => exact Option.some.inj ht ▸ h
  | twice u v =>
    obtain ⟨hu, hv⟩ := (Bool.and_eq_true _ _).mp h
    cases choice with
    | first => exact Option.some.inj ht ▸ hu
    | second => exact Option.some.inj ht ▸ hv

end Occurrences

/-- A zone, as the clocks in it behave. -/
structure Clock where
  /-- How far the wall clock is ahead of UTC at an instant, in milliseconds. -/
  offsetAt : Int → Int
  /-- The instants that a wall-clock time may stand for. -/
  occurrences : Int → Occurrences

/-- No wall-clock time can be read at an instant: the clock is a day or more off UTC, or it shows a
date that the calendar does not cover. -/
structure UnreadableClock where
  /-- The instant, which the calendar itself covers. -/
  instant : Int
  deriving DecidableEq, Repr

namespace Clock

variable (c : Clock)

/-- The wall-clock time at an instant. -/
def wallAt (t : Int) : Int :=
  t + c.offsetAt t

/-- The instants that may stand for a wall-clock time: its occurrences, provided that the calendar
covers each of them and that the clock is less than a day off UTC at each. -/
def candidates (w : Int) : Occurrences :=
  if (c.occurrences w).all fun t => inCalendar t && isWithinDay t w then
    c.occurrences w
  else
    .skipped

/-- The wall-clock time that is read at an instant. -/
def readAt (t : Int) : Except UnreadableClock Int :=
  if isWithinDay t (c.wallAt t) && inCalendar (c.wallAt t) then .ok (c.wallAt t) else .error ⟨t⟩

/-- The instant that stands for a wall-clock time: the chosen candidate, provided that the clock
does show the time then.  There is no answer if the clock cannot be read at the candidate. -/
def resolve (choice : Choice) (w : Int) : Except UnreadableClock (Option Int) :=
  match (c.candidates w).choose? choice with
  | none => .ok none
  | some t => (c.readAt t).map fun v => if v = w then some t else none

/-- The date at an instant.  There is none for instants outside the calendar. -/
def dateAt (t : Int) : Except UnreadableClock (Option Date) :=
  if inCalendar t then (c.readAt t).map fun w => some (Date.ofWall w) else .ok none

/-- The instant at which a date begins; there is none if the clock cannot be read at its midnight. -/
def startOfDate? (d : Date) : Option Int :=
  (c.resolve .first d.midnight).toOption.join

/-- Reads a day as `yyyyMMdd`; its value is the instant at which it begins. -/
def readDay? (cs : List Char) : Option Int :=
  (Date.ofCompact? cs).bind c.startOfDate?

/-- The day at an instant as `yyyyMMdd`. -/
def dayText (t : Int) : Except UnreadableClock (Option (List Char)) :=
  (c.dateAt t).map fun d => d.map Date.compact

/-- The last millisecond of the day that holds an instant.  An instant outside the calendar, and
one whose day does not end in a time that the clock shows, is left as it is. -/
def endOfDay (t : Int) : Except UnreadableClock Int := do
  match ← c.dateAt t with
  | none => return t
  | some d => return (← c.resolve .second d.lastMilli).getD t

/-- The clock that is ahead of UTC by a fixed number of milliseconds. -/
def fixed (offset : Int) : Clock where
  offsetAt := fun _ => offset
  occurrences := fun w => .once (w - offset)

/-- The clock that shows UTC. -/
def utc : Clock :=
  fixed 0

variable {c}

/-- A candidate lies in the calendar and less than a day from the wall-clock time. -/
theorem of_choose?_candidates {choice : Choice} {w t : Int}
    (h : (c.candidates w).choose? choice = some t) :
    inCalendar t = true ∧ isWithinDay t w = true := by
  rw [candidates] at h
  split at h
  next hall => exact (Bool.and_eq_true _ _).mp (Occurrences.of_choose?_of_all hall h)
  next => cases h

theorem readAt_eq_ok_iff {t w : Int} :
    c.readAt t = .ok w ↔ c.wallAt t = w ∧ isWithinDay t w = true ∧ inCalendar w = true := by
  rw [readAt]
  constructor
  · intro h
    split at h
    next hr =>
      cases h
      exact ⟨rfl, (Bool.and_eq_true _ _).mp hr⟩
    next => cases h
  · rintro ⟨rfl, hd, hw⟩
    rw [hd, hw, Bool.and_self, if_pos rfl]

/-- **Resolving never invents a time**: it gives the chosen candidate, and only where the clock
shows the wall-clock time at it. -/
theorem resolve_eq_some_iff {choice : Choice} {w t : Int} :
    c.resolve choice w = .ok (some t) ↔
      (c.candidates w).choose? choice = some t ∧ c.readAt t = .ok w := by
  rw [resolve]
  cases (c.candidates w).choose? choice with
  | none => simp
  | some u =>
    dsimp only
    constructor
    · intro h
      cases hv : c.readAt u with
      | error => simp [hv, Except.map] at h
      | ok v =>
        simp only [hv, Except.map, Except.ok.injEq, Option.ite_none_right_eq_some] at h
        obtain ⟨rfl, hu⟩ := h
        exact ⟨hu, Option.some.inj hu ▸ hv⟩
    · rintro ⟨hu, ht⟩
      cases hu
      simp [ht, Except.map]

@[simp]
theorem wallAt_fixed (offset t : Int) : (fixed offset).wallAt t = t + offset := rfl

/-- On a clock with a fixed offset a time of the calendar resolves wherever the calendar covers the
instant, too. -/
theorem resolve_fixed {offset w : Int} (h₀ : -dayMillis < offset) (h₁ : offset < dayMillis)
    (hw : inCalendar w = true) (choice : Choice) :
    (fixed offset).resolve choice w
      = .ok (if inCalendar (w - offset) then some (w - offset) else none) := by
  have hd : isWithinDay (w - offset) w = true := by
    simp only [isWithinDay, Bool.and_eq_true, decide_eq_true_eq]
    omega
  have hr : (fixed offset).readAt (w - offset) = .ok w :=
    readAt_eq_ok_iff.2 ⟨by simp, hd, hw⟩
  have hc : (fixed offset).candidates w
      = if inCalendar (w - offset) then .once (w - offset) else .skipped := by
    simp [candidates, fixed, Occurrences.all, hd]
  rw [resolve, hc]
  cases inCalendar (w - offset) with
  | false => rfl
  | true => simp [Occurrences.choose?, hr, Except.map]

/-- The calendar covers the midnights of years 0 to 9999. -/
theorem inCalendar_midnight {d : Date} (h₀ : 0 ≤ d.year) (h₁ : d.year ≤ 9999) :
    inCalendar d.midnight = true := by
  have hb := d.dayNumber_bounds
  have lo := Calendar.yearStart_mono h₀
  have hi := Calendar.yearStart_mono (show d.year + 1 ≤ 10000 by omega)
  simp only [Calendar.yearStart, Calendar.epochDay] at hb lo hi
  simp only [inCalendar, Bool.and_eq_true, Date.midnight, dayMillis]
  exact ⟨decide_eq_true (by omega), decide_eq_true (by omega)⟩

theorem startOfDate?_eq_some_iff {d : Date} {t : Int} :
    c.startOfDate? d = some t ↔ c.resolve .first d.midnight = .ok (some t) := by
  rw [startOfDate?]
  cases c.resolve .first d.midnight <;> simp [Except.toOption]

/-- The instant at which a date begins is a number that a record or query can hold. -/
theorem fitsWord_of_startOfDate? {d : Date} {t : Int} (h : c.startOfDate? d = some t) :
    Text.Numeral.fitsWord t = true := by
  have hchosen := (resolve_eq_some_iff.1 (startOfDate?_eq_some_iff.1 h)).1
  exact fitsWord_of_inCalendar (of_choose?_candidates hchosen).1

theorem readDay?_eq_some_iff {cs : List Char} {t : Int} :
    c.readDay? cs = some t ↔
      ∃ d, Date.ofCompact? cs = some d ∧ c.resolve .first d.midnight = .ok (some t) := by
  simp [readDay?, startOfDate?_eq_some_iff, Option.bind_eq_some_iff]

/-- The date at the instant at which a date begins is that date, on every clock. -/
theorem dateAt_of_resolve {choice : Choice} {d : Date} {t : Int}
    (h : c.resolve choice d.midnight = .ok (some t)) : c.dateAt t = .ok (some d) := by
  obtain ⟨hc, hw⟩ := resolve_eq_some_iff.1 h
  simp [dateAt, (of_choose?_candidates hc).1, hw, Except.map]

/-- From its beginning a day is widened to the last of its milliseconds, as far as that is found. -/
theorem endOfDay_of_startOfDate? {d : Date} {s : Int} (h : c.startOfDate? d = some s) :
    c.endOfDay s = (c.resolve .second d.lastMilli).map fun e => e.getD s := by
  simp only [endOfDay, dateAt_of_resolve (startOfDate?_eq_some_iff.1 h), bind, Except.bind]
  cases c.resolve .second d.lastMilli <;> rfl

/-- **A day that is read is written back as it was**, whatever the clock. -/
theorem dayText_of_readDay? {cs : List Char} {t : Int} (h : c.readDay? cs = some t) :
    c.dayText t = .ok (some cs) := by
  obtain ⟨d, hd, ht⟩ := readDay?_eq_some_iff.1 h
  obtain ⟨-, rfl⟩ := Date.ofCompact?_eq_some_iff.1 hd
  simp [dayText, dateAt_of_resolve ht, Except.map]

/-- Two texts that are read as the same instant are the same day. -/
theorem readDay?_inj {cs ds : List Char} {t : Int} (hc : c.readDay? cs = some t)
    (hd : c.readDay? ds = some t) : cs = ds := by
  have h := (dayText_of_readDay? hc).symm.trans (dayText_of_readDay? hd)
  exact Option.some.inj (Except.ok.inj h)

end Clock

end WaveFinder
