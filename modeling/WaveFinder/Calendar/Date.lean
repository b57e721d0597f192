/-!
# Calendar/Date — dates of the proleptic Gregorian calendar, and their day numbers

    Date ──dayNumber──▸ ℤ ──ofDayNumber──▸ Date

A date carries the proof that it exists; its day number counts from 1 January 1970.  Both ways of
going round give back what they started from (`ofDayNumber_dayNumber`, `dayNumber_ofDayNumber`), so
a date *is* its day number, and the calendar is a counting of the integers.
-/

namespace WaveFinder

-- Sums of natural numbers are core's here, whatever else is in scope.
attribute [local instance (2000)] Zero.ofOfNat0

namespace Calendar

/-- Leap years by the rule of 4, 100 and 400, for years of either sign; year 0 is one. -/
def isLeap (y : Int) : Bool :=
  y % 4 == 0 && (y % 100 != 0 || y % 400 == 0)

/-- The lengths of the twelve months. -/
def monthLengths (leap : Bool) : List Nat :=
  [31, if leap then 29 else 28, 31, 30, 31, 30, 31, 31, 30, 31, 30, 31]

/-- The number of days in a month; a month that does not exist has none. -/
def daysInMonth (y : Int) (m : Nat) : Nat :=
  if m = 0 then 0 else (monthLengths (isLeap y)).getD (m - 1) 0

/-- The number of days from 1 January of year 0 to 1 January of a year. -/
def yearStart (y : Int) : Int :=
  365 * y + (y + 3) / 4 - (y + 99) / 100 + (y + 399) / 400

/-- The year that holds a day, which is counted from 1 January of year 0.  Four hundred years have
146097 days, so the division misses by one year at most. -/
def yearOf (n : Int) : Int :=
  let y := 400 * n / 146097
  if n < yearStart y then y - 1 else if yearStart (y + 1) ≤ n then y + 1 else y

/-- Goes through lengths laid end to end: the index of the one that holds a position, and the
position in it. -/
def locate : List Nat → Nat → Nat × Nat
  | [], n => (0, n)
  | l :: ls, n => if n < l then (0, n) else ((locate ls (n - l)).1 + 1, (locate ls (n - l)).2)

/-- The number of days from 1 January of year 0 to 1 January 1970. -/
def epochDay : Int := 719528

theorem yearStart_succ (y : Int) :
    yearStart (y + 1) = yearStart y + if isLeap y then 366 else 365 := by
  unfold yearStart
  by_cases h : isLeap y = true
  · simp only [h, if_true]
    simp only [isLeap, Bool.and_eq_true, Bool.or_eq_true, beq_iff_eq, bne_iff_ne] at h
    omega
  · simp only [h]
    simp only [isLeap, Bool.and_eq_true, Bool.or_eq_true, beq_iff_eq, bne_iff_ne] at h
    simp only [Bool.false_eq_true, if_false]
    omega

theorem yearStart_le_add (y : Int) (k : Nat) : yearStart y ≤ yearStart (y + k) := by
  induction k with
  | zero => simp
  | succ k ih =>
    have h := yearStart_succ (y + k)
    rw [Int.natCast_succ, ← Int.add_assoc]
    split at h <;> omega

/-- Later years start later. -/
theorem yearStart_mono {y z : Int} (h : y ≤ z) : yearStart y ≤ yearStart z := by
  have := yearStart_le_add y (z - y).toNat
  rwa [show y + ((z - y).toNat : Int) = z by omega] at this

theorem yearStart_yearOf_le (n : Int) : yearStart (yearOf n) ≤ n := by
  unfold yearOf yearStart
  grind

theorem lt_yearStart_yearOf_succ (n : Int) : n < yearStart (yearOf n + 1) := by
  unfold yearOf yearStart
  grind

theorem sum_monthLengths (leap : Bool) : (monthLengths leap).sum = if leap then 366 else 365 := by
  cases leap <;> rfl

theorem locate_snd_lt {ls : List Nat} {n : Nat} (h : n < ls.sum) :
    (locate ls n).2 < ls.getD (locate ls n).1 0 := by
  induction ls generalizing n with
  | nil => simp at h
  | cons l ls ih =>
    rw [locate]
    split
    · simpa
    · simpa using @ih (n - l) (by simp only [List.sum_cons] at h; omega)

theorem take_sum_locate (ls : List Nat) (n : Nat) :
    (ls.take (locate ls n).1).sum + (locate ls n).2 = n := by
  induction ls generalizing n with
  | nil => simp [locate]
  | cons l ls ih =>
    rw [locate]
    split
    · simp
    · have := ih (n - l)
      simp only [List.take_succ_cons, List.sum_cons]
      omega

theorem locate_take_sum {ls : List Nat} {i j : Nat} (h : j < ls.getD i 0) :
    locate ls ((ls.take i).sum + j) = (i, j) := by
  induction ls generalizing i with
  | nil => simp at h
  | cons l ls ih =>
    cases i with
    | zero => simpa [locate] using h
    | succ i =>
      have h' : j < ls.getD i 0 := by simpa using h
      have e : l + (ls.take i).sum + j - l = (ls.take i).sum + j := by omega
      simp only [List.take_succ_cons, List.sum_cons, locate, e, ih h']
      rw [if_neg (by omega)]

end Calendar

open Calendar

/-- A date that exists. -/
structure Date where
  /-- The year, counted as astronomers do: year 0 comes before year 1. -/
  year : Int
  /-- The month, from 1. -/
  month : Nat
  /-- The day of the month, from 1. -/
  day : Nat
  /-- There is such a day in the month. -/
  isDay : 1 ≤ day ∧ day ≤ daysInMonth year month
  deriving DecidableEq

namespace Date

/-- The date of a year, month and day, if it exists. -/
def of? (year : Int) (month day : Nat) : Option Date :=
  if h : 1 ≤ day ∧ day ≤ daysInMonth year month then some ⟨year, month, day, h⟩ else none

/-- The number of days from 1 January 1970 to a date. -/
def dayNumber (d : Date) : Int :=
  yearStart d.year - epochDay +
    ((((monthLengths (isLeap d.year)).take (d.month - 1)).sum + (d.day - 1) : Nat) : Int)

/-- The day of its year that a day number falls on, from 0. -/
def dayOfYear (n : Int) : Nat :=
  (n + epochDay - yearStart (yearOf (n + epochDay))).toNat

theorem dayOfYear_lt (n : Int) :
    dayOfYear n < (monthLengths (isLeap (yearOf (n + epochDay)))).sum := by
  have h₁ := yearStart_yearOf_le (n + epochDay)
  have h₂ := lt_yearStart_yearOf_succ (n + epochDay)
  rw [yearStart_succ] at h₂
  rw [sum_monthLengths, dayOfYear]
  split <;> simp_all <;> omega

/-- The date of a day number. -/
def ofDayNumber (n : Int) : Date :=
  let y := yearOf (n + epochDay)
  let p := locate (monthLengths (isLeap y)) (dayOfYear n)
  { year := y
    month := p.1 + 1
    day := p.2 + 1
    isDay := ⟨Nat.le_add_left .., by
      simpa [daysInMonth] using Nat.succ_le_of_lt (locate_snd_lt (dayOfYear_lt n))⟩ }

theorem ext {d e : Date} (hy : d.year = e.year) (hm : d.month = e.month) (hd : d.day = e.day) :
    d = e := by
  cases d; cases e; simp_all

theorem month_pos (d : Date) : 1 ≤ d.month := by
  have h := d.isDay
  rcases Nat.eq_zero_or_pos d.month with h0 | h0
  · simp [daysInMonth, h0] at h; omega
  · exact h0

theorem day_pred_lt (d : Date) :
    d.day - 1 < (monthLengths (isLeap d.year)).getD (d.month - 1) 0 := by
  have h := d.isDay
  have hm := d.month_pos
  rw [daysInMonth, if_neg (by omega)] at h
  omega

/-- **A day number is the number of its date.** -/
theorem dayNumber_ofDayNumber (n : Int) : (ofDayNumber n).dayNumber = n := by
  have h₁ := yearStart_yearOf_le (n + epochDay)
  have h₂ := take_sum_locate (monthLengths (isLeap (yearOf (n + epochDay)))) (dayOfYear n)
  simp only [dayNumber, ofDayNumber, Nat.add_sub_cancel, h₂]
  simp only [dayOfYear]
  omega

/-- A year holds a day that is counted from 1 January of year 0 if the day lies between the starts
of the year and of the next. -/
theorem yearOf_eq {y n : Int} (h₁ : yearStart y ≤ n) (h₂ : n < yearStart (y + 1)) :
    yearOf n = y := by
  have h₃ := yearStart_yearOf_le n
  have h₄ := lt_yearStart_yearOf_succ n
  rcases Int.lt_trichotomy (yearOf n) y with h | h | h
  · have := yearStart_mono (show yearOf n + 1 ≤ y by omega)
    omega
  · exact h
  · have := yearStart_mono (show y + 1 ≤ yearOf n by omega)
    omega

theorem dayNumber_bounds (d : Date) :
    yearStart d.year ≤ d.dayNumber + epochDay ∧
      d.dayNumber + epochDay < yearStart (d.year + 1) := by
  have h := locate_take_sum d.day_pred_lt
  have hlt : ((monthLengths (isLeap d.year)).take (d.month - 1)).sum + (d.day - 1)
      < (monthLengths (isLeap d.year)).sum := by
    rcases Nat.lt_or_ge (((monthLengths (isLeap d.year)).take (d.month - 1)).sum + (d.day - 1))
      (monthLengths (isLeap d.year)).sum with h' | h'
    · exact h'
    · have hd := d.day_pred_lt
      have hsplit := List.take_append_drop (d.month - 1) (monthLengths (isLeap d.year))
      have hs := congrArg List.sum hsplit
      rw [List.sum_append] at hs
      have hdrop : (monthLengths (isLeap d.year)).getD (d.month - 1) 0
          ≤ ((monthLengths (isLeap d.year)).drop (d.month - 1)).sum := by
        rcases Nat.lt_or_ge (d.month - 1) (monthLengths (isLeap d.year)).length with hl | hl
        · rw [List.drop_eq_getElem_cons hl, List.sum_cons]
          simp [List.getD_eq_getElem?_getD, hl]
        · simp [List.getD_eq_getElem?_getD, hl]
      omega
  rw [sum_monthLengths] at hlt
  rw [yearStart_succ]
  unfold dayNumber
  constructor
  · omega
  · cases hl : isLeap d.year <;>
      simp only [hl, Bool.false_eq_true, if_true, if_false] at hlt ⊢ <;> omega

/-- **A date is the date of its day number.** -/
theorem ofDayNumber_dayNumber (d : Date) : ofDayNumber d.dayNumber = d := by
  have hb := d.dayNumber_bounds
  have hy : yearOf (d.dayNumber + epochDay) = d.year := yearOf_eq hb.1 hb.2
  have hn : dayOfYear d.dayNumber
      = ((monthLengths (isLeap d.year)).take (d.month - 1)).sum + (d.day - 1) := by
    rw [dayOfYear, hy, dayNumber]
    omega
  have hl := locate_take_sum d.day_pred_lt
  have hm := d.month_pos
  have hd := d.isDay.1
  apply ext
  · exact hy
  · simp only [ofDayNumber, hy, hn, hl]
    omega
  · simp only [ofDayNumber, hy, hn, hl]
    omega

end Date

end WaveFinder
