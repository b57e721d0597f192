import WaveFinder.Proofs.Zone.DayEnds

/-!
# Proofs/Zone/DayRounding — every instant and the end of its day, at a fixed offset

    instant ──dateAt──▸ date ──lastMilli──▸ end of the day

The calendar covers whole days of UTC, and with an offset its first and its last day are cut.  Three
things can become of an instant.  If its day ends within the calendar it is widened to that end; if
its day ends beyond, or the instant itself lies outside, it is left as it is (`widened`).  But an
instant that the calendar covers, and whose time on the wall it does not, cannot be read at all
(`leavesCalendar`): there, and nowhere else, neither the day nor its end is told
(`exists_dayText_endOfDay_iff`).

Widening is a closure of the instants at which the clock can be read (`endOfDay_isClosure`).  The
two ways in which it leaves an instant as it is do no harm to the order: an instant outside lies
before the whole calendar or after it, and a day that ends beyond the calendar is the last of all.

The midnights of the years 0 to 9999 are far from all this.  Whatever the offset at which they were
found, at any other they have a date and an end of their day (`IsInReach`).
-/

namespace WaveFinder

open Text

variable {o t u l : Int}

/-! ## Ends of days -/

/-- The last millisecond of the day, at an offset, in which an instant falls. -/
def dayEnd (o t : Int) : Int :=
  (Date.ofWall (t + o)).lastMilli - o

/-- An instant is the last of the day, at an offset, in which another falls: they have the date in
common, and the clock shows the last millisecond before midnight. -/
def IsDayEnd (o t l : Int) : Prop :=
  Date.ofWall (l + o) = Date.ofWall (t + o) ∧ (l + o) % dayMillis = dayMillis - 1

theorem dayEnd_eq (o t : Int) :
    dayEnd o t = (t + o) / dayMillis * dayMillis + (dayMillis - 1) - o := by
  rw [dayEnd, Date.lastMilli, Date.midnight, Date.ofWall, Date.dayNumber_ofDayNumber]

theorem Date.ofWall_inj {v w : Int} : ofWall v = ofWall w ↔ v / dayMillis = w / dayMillis := by
  constructor
  · intro h
    have hday := congrArg Date.dayNumber h
    rwa [ofWall, ofWall, dayNumber_ofDayNumber, dayNumber_ofDayNumber] at hday
  · intro h
    rw [ofWall, ofWall, h]

/-- **Every instant has one end of its day.** -/
theorem isDayEnd_iff : IsDayEnd o t l ↔ l = dayEnd o t := by
  rw [IsDayEnd, Date.ofWall_inj, dayEnd_eq, dayMillis]
  omega

theorem le_dayEnd (o t : Int) : t ≤ dayEnd o t ∧ dayEnd o t < t + dayMillis := by
  rw [dayEnd_eq, dayMillis]
  omega

theorem dayEnd_dayEnd (o t : Int) : dayEnd o (dayEnd o t) = dayEnd o t := by
  rw [dayEnd_eq, dayEnd_eq, dayMillis]
  omega

/-- A later instant falls in the same day or after its end. -/
theorem dayEnd_eq_or_lt (h : t ≤ u) : dayEnd o t = dayEnd o u ∨ dayEnd o t < u := by
  rw [dayEnd_eq, dayEnd_eq, dayMillis]
  omega

/-! ## Widening -/

/-- What an instant is widened to: the end of its day, provided that the calendar covers the instant
and the end. -/
def widened (o t : Int) : Int :=
  if inCalendar t && inCalendar (dayEnd o t) then dayEnd o t else t

theorem le_widened (o t : Int) : t ≤ widened o t := by
  rw [widened]
  split
  · exact (le_dayEnd o t).1
  · exact Int.le_refl t

theorem widened_widened (o t : Int) : widened o (widened o t) = widened o t := by
  by_cases h : (inCalendar t && inCalendar (dayEnd o t)) = true
  · have hend : widened o t = dayEnd o t := if_pos h
    obtain ⟨-, hin⟩ := (Bool.and_eq_true _ _).mp h
    rw [hend, widened, dayEnd_dayEnd, hin, Bool.and_self, if_pos rfl]
  · have hsame : widened o t = t := if_neg h
    rw [hsame, hsame]

/-- **Widening keeps the order.** -/
theorem widened_mono (h : t ≤ u) : widened o t ≤ widened o u := by
  by_cases ht : (inCalendar t && inCalendar (dayEnd o t)) = true
  · have hend : widened o t = dayEnd o t := if_pos ht
    have hu := le_widened o u
    rw [hend]
    obtain hsame | hlt := dayEnd_eq_or_lt (o := o) h
    · -- Of one day whose end is covered, an instant that is left as it is lies past the calendar.
      obtain ⟨hin, hcovered⟩ := (Bool.and_eq_true _ _).mp ht
      by_cases hinu : inCalendar u = true
      · rw [hsame] at hcovered ⊢
        have hend' : widened o u = dayEnd o u := if_pos (by rw [hinu, hcovered, Bool.and_self])
        exact Int.le_of_eq hend'.symm
      · rw [inCalendar_iff] at hin hcovered hinu
        omega
    · omega
  · have hsame : widened o t = t := if_neg ht
    rw [hsame]
    exact Int.le_trans h (le_widened o u)

/-- The calendar is made of whole days. -/
theorem inCalendar_lastMilli_ofWall {w : Int} (h : inCalendar w = true) :
    inCalendar (Date.ofWall w).lastMilli = true := by
  rw [Date.lastMilli, Date.midnight, Date.ofWall, Date.dayNumber_ofDayNumber, dayMillis]
  rw [inCalendar_iff] at h ⊢
  omega

/-! ## Instants at which the clock cannot be read -/

/-- Whether the calendar covers an instant but not the time that the clock shows then. -/
def leavesCalendar (o t : Int) : Bool :=
  inCalendar t && !inCalendar (t + o)

theorem leavesCalendar_eq_false_iff :
    leavesCalendar o t = false ↔ (inCalendar t = true → inCalendar (t + o) = true) := by
  rw [leavesCalendar]
  cases inCalendar t <;> cases inCalendar (t + o) <;> decide

theorem leavesCalendar_of_inCalendar_eq_false (h : inCalendar t = false) :
    leavesCalendar o t = false := by
  rw [leavesCalendar, h, Bool.false_and]

/-- Widening leads to no such instant. -/
theorem leavesCalendar_widened (h : leavesCalendar o t = false) :
    leavesCalendar o (widened o t) = false := by
  rw [widened]
  split
  · next hin =>
    rw [leavesCalendar_eq_false_iff] at h ⊢
    intro _
    rw [dayEnd, Int.sub_add_cancel]
    exact inCalendar_lastMilli_ofWall (h ((Bool.and_eq_true _ _).mp hin).1)
  · exact h

namespace Clock

section Offset

variable (h₀ : -dayMillis < o) (h₁ : o < dayMillis)
include h₀ h₁

/-- **The date at any instant.** -/
theorem dateAt_fixed_eq (t : Int) :
    (fixed o).dateAt t = if leavesCalendar o t then .error ⟨t⟩
      else .ok (if inCalendar t then some (Date.ofWall (t + o)) else none) := by
  have hwithin : isWithinDay t (t + o) = true := (isNear_fixed h₀ h₁).isWithinDay_wallAt t
  rw [dateAt, readAt, wallAt_fixed, hwithin, leavesCalendar]
  cases inCalendar t <;> cases inCalendar (t + o) <;> rfl

theorem dayText_fixed_eq (t : Int) :
    (fixed o).dayText t = if leavesCalendar o t then .error ⟨t⟩
      else .ok (if inCalendar t then some (Date.ofWall (t + o)).compact else none) := by
  rw [dayText, dateAt_fixed_eq h₀ h₁]
  cases leavesCalendar o t <;> cases inCalendar t <;> rfl

/-- **The end of the day at any instant.** -/
theorem endOfDay_fixed_eq (t : Int) :
    (fixed o).endOfDay t = if leavesCalendar o t then .error ⟨t⟩ else .ok (widened o t) := by
  rw [endOfDay, dateAt_fixed_eq h₀ h₁]
  by_cases hleaves : leavesCalendar o t = true
  · rw [hleaves]
    rfl
  · rw [Bool.not_eq_true] at hleaves
    rw [hleaves]
    by_cases hin : inCalendar t = true
    · have hend : (fixed o).resolve .second (Date.ofWall (t + o)).lastMilli
          = .ok (if inCalendar (dayEnd o t) then some (dayEnd o t) else none) :=
        resolve_fixed h₀ h₁
          (inCalendar_lastMilli_ofWall (leavesCalendar_eq_false_iff.1 hleaves hin)) .second
      rw [widened, hin, Bool.true_and]
      simp only [Bool.false_eq_true, if_false, if_true, bind, Except.bind, hend]
      cases inCalendar (dayEnd o t) <;> rfl
    · rw [Bool.not_eq_true] at hin
      rw [widened, hin]
      rfl

theorem endOfDay_fixed_eq_ok_iff {e : Int} :
    (fixed o).endOfDay t = .ok e ↔ leavesCalendar o t = false ∧ widened o t = e := by
  rw [endOfDay_fixed_eq h₀ h₁]
  cases leavesCalendar o t <;> simp

/-- **Widening to the end of the day is a closure**, on a clock with a fixed offset.  It gives an
instant wherever the calendar covers the time on the wall or does not cover the instant, and there
it never goes back, comes to rest after one step and keeps the order.  Every instant has one end of
its day, with which it shares the date and at which the clock shows the last millisecond before
midnight; the instant is widened to that end if the calendar covers both of them, and otherwise it
is left as it is. -/
theorem endOfDay_isClosure :
    (∀ t, (∃ e, (fixed o).endOfDay t = .ok e)
        ↔ (inCalendar t = true → inCalendar (t + o) = true))
      ∧ (∀ t e, (fixed o).endOfDay t = .ok e → t ≤ e ∧ (fixed o).endOfDay e = .ok e)
      ∧ (∀ t u d e, t ≤ u → (fixed o).endOfDay t = .ok d → (fixed o).endOfDay u = .ok e → d ≤ e)
      ∧ ∀ t e, (fixed o).endOfDay t = .ok e →
          ∃ l, (∀ u, IsDayEnd o t u ↔ u = l)
            ∧ e = if inCalendar t && inCalendar l then l else t := by
  simp only [endOfDay_fixed_eq_ok_iff h₀ h₁]
  refine ⟨fun t => ?_, ?_, ?_, ?_⟩
  · rw [← leavesCalendar_eq_false_iff, exists_and_left]
    exact and_iff_left ⟨_, rfl⟩
  · intro t e h
    obtain ⟨hread, rfl⟩ := h
    exact ⟨le_widened o t, leavesCalendar_widened hread, widened_widened o t⟩
  · intro t u d e htu hd he
    obtain ⟨-, rfl⟩ := hd
    obtain ⟨-, rfl⟩ := he
    exact widened_mono htu
  · intro t e h
    obtain ⟨-, rfl⟩ := h
    exact ⟨dayEnd o t, fun u => isDayEnd_iff, rfl⟩

end Offset

/-- An hour behind UTC two instants a millisecond apart are widened in their order, and the last
instant of the calendar is left as it is, since its day ends an hour beyond. -/
theorem endOfDay_isClosure_lastDay :
    (∃ d e, (fixed (-3600000)).endOfDay 8210266790399999 = .ok d
        ∧ (fixed (-3600000)).endOfDay 8210266790400000 = .ok e ∧ d ≤ e
        ∧ (fixed (-3600000)).endOfDay e = .ok e)
      ∧ IsDayEnd (-3600000) 8210266876799999 8210266880399999
      ∧ (fixed (-3600000)).endOfDay 8210266876799999 = .ok 8210266876799999 := by
  obtain ⟨hreturns, hup, hmono, hend⟩ :=
    endOfDay_isClosure (o := -3600000) (by decide) (by decide)
  obtain ⟨d, hd⟩ := (hreturns 8210266790399999).2 fun _ => by decide
  obtain ⟨e, he⟩ := (hreturns 8210266790400000).2 fun _ => by decide
  obtain ⟨f, hf⟩ := (hreturns 8210266876799999).2 fun _ => by decide
  have hday : IsDayEnd (-3600000) 8210266876799999 8210266880399999 := ⟨by decide, by decide⟩
  obtain ⟨l, hl, hfl⟩ := hend _ f hf
  have hbeyond : inCalendar l = false := by
    rw [← (hl _).1 hday]
    decide
  rw [hbeyond, Bool.and_false, if_neg (by decide)] at hfl
  exact ⟨⟨d, e, hd, he, hmono _ _ d e (by decide) hd he, (hup _ e he).2⟩, hday, hfl ▸ hf⟩

end Clock

/-! ## Midnights at other offsets -/

/-- An instant is in reach of a clock: the calendar covers it and the time that the clock shows
then, and both are numbers of 64 bits. -/
structure IsInReach (c : Clock) (t : Int) : Prop where
  covered : inCalendar t = true
  coveredWall : inCalendar (c.wallAt t) = true
  fits : Numeral.fitsWord t = true
  fitsWall : Numeral.fitsWord (c.wallAt t) = true

theorem IsInReach.of_inCalendar {c : Clock} (h : inCalendar t = true)
    (hwall : inCalendar (c.wallAt t) = true) : IsInReach c t :=
  ⟨h, hwall, fitsWord_of_inCalendar h, fitsWord_of_inCalendar hwall⟩

theorem IsInReach.leavesCalendar_eq_false (h : IsInReach (Clock.fixed o) t) :
    leavesCalendar o t = false :=
  leavesCalendar_eq_false_iff.2 fun _ => h.coveredWall

namespace Clock

section Offsets

variable {o' : Int} {d : Date} (h₀ : -dayMillis < o) (h₁ : o < dayMillis) (h₀' : -dayMillis < o')
  (h₁' : o' < dayMillis) (hy : 0 ≤ d.year ∧ d.year ≤ 9999)
include h₀ h₁ h₀' h₁' hy

/-- **A midnight of the years 0 to 9999 at one offset, and whatever comes less than a day after it,
is in reach at any other.** -/
theorem isInReach_fixed (ht : d.midnight - o ≤ t) (ht' : t < d.midnight - o + dayMillis) :
    IsInReach (fixed o') t := by
  have hb := Date.midnight_bounds hy.1 hy.2
  rw [dayMillis] at *
  refine .of_inCalendar (inCalendar_iff.2 (by omega)) (inCalendar_iff.2 ?_)
  rw [wallAt_fixed]
  omega

theorem isInReach_midnight_sub : IsInReach (fixed o') (d.midnight - o) :=
  isInReach_fixed h₀ h₁ h₀' h₁' hy (Int.le_refl _) (Int.lt_add_of_pos_right _ (by decide))

/-- A midnight at one offset falls on a date at any other. -/
theorem dateAt_fixed :
    (fixed o').dateAt (d.midnight - o) = .ok (some (Date.ofWall (d.midnight - o + o'))) := by
  have hreach := isInReach_midnight_sub h₀ h₁ h₀' h₁' hy
  rw [dateAt_fixed_eq h₀' h₁', hreach.leavesCalendar_eq_false, hreach.covered]
  rfl

/-- A midnight at one offset is widened to the end of its day at any other. -/
theorem endOfDay_midnight_sub :
    (fixed o').endOfDay (d.midnight - o) = .ok (dayEnd o' (d.midnight - o)) := by
  have hreach := isInReach_midnight_sub h₀ h₁ h₀' h₁' hy
  have hend := le_dayEnd o' (d.midnight - o)
  have hlast := isInReach_fixed h₀ h₁ h₀' h₁' hy hend.1 hend.2
  rw [endOfDay_fixed_eq h₀' h₁', hreach.leavesCalendar_eq_false, widened, hreach.covered,
    hlast.covered]
  rfl

omit h₀' h₁' in
/-- **From its beginning a day is widened to its last millisecond.** -/
theorem endOfDay_fixed : (fixed o).endOfDay (d.midnight - o) = .ok (d.lastMilli - o) := by
  rw [endOfDay_midnight_sub h₀ h₁ h₀ h₁ hy, dayEnd, Int.sub_add_cancel, Date.ofWall_midnight]

end Offsets

end Clock

/-! ## In any zone but the host's -/

namespace Zone

variable {z : Zone}

/-- **Where the day of an instant and its end are told**, in UTC and at every offset: wherever the
calendar covers the time on the wall, or does not cover the instant to begin with.  An instant that
the calendar does not cover has no day and is left as it is. -/
theorem exists_dayText_endOfDay_iff (hz : z ≠ .host) (hostClock : Clock) (t : Int) :
    ((∃ r, (z.clock hostClock).dayText t = .ok r)
        ↔ (inCalendar t = true → inCalendar ((z.clock hostClock).wallAt t) = true))
      ∧ ((∃ e, (z.clock hostClock).endOfDay t = .ok e)
        ↔ (inCalendar t = true → inCalendar ((z.clock hostClock).wallAt t) = true))
      ∧ (inCalendar t = false → (z.clock hostClock).dayText t = .ok none
          ∧ (z.clock hostClock).endOfDay t = .ok t) := by
  obtain ⟨o, h₀, h₁, -, hclock⟩ := exists_clock_eq_fixed hz hostClock
  rw [hclock, Clock.wallAt_fixed, ← leavesCalendar_eq_false_iff, Clock.dayText_fixed_eq h₀ h₁,
    Clock.endOfDay_fixed_eq h₀ h₁]
  refine ⟨?_, ?_, fun hin => ?_⟩
  · cases leavesCalendar o t <;> simp
  · cases leavesCalendar o t <;> simp
  · rw [leavesCalendar_of_inCalendar_eq_false hin, widened, hin]
    exact ⟨rfl, rfl⟩

/-- A day less a minute ahead of UTC the first millisecond after the calendar is left as it is, and
the last one before the clock leaves the calendar still has a day that ends. -/
theorem exists_dayText_endOfDay_iff_ahead :
    ∃ z, parse "+23:59" = .ok z ∧ z ≠ .host
      ∧ (z.clock .utc).endOfDay 8210266876800000 = .ok 8210266876800000
      ∧ (∃ r, (z.clock .utc).dayText 8210266790459999 = .ok r)
      ∧ ∃ e, (z.clock .utc).endOfDay 8210266790459999 = .ok e := by
  obtain ⟨z, hparse, hz, hwall⟩ : ∃ z, parse "+23:59" = .ok z ∧ z ≠ .host
      ∧ inCalendar ((z.clock .utc).wallAt 8210266790459999) = true :=
    ⟨_, rfl, by decide, by decide⟩
  obtain ⟨-, -, houtside⟩ := exists_dayText_endOfDay_iff hz .utc 8210266876800000
  obtain ⟨hday, hend, -⟩ := exists_dayText_endOfDay_iff hz .utc 8210266790459999
  exact ⟨z, hparse, hz, (houtside (by decide)).2, hday.2 fun _ => hwall, hend.2 fun _ => hwall⟩

/-- A minute ahead of UTC the last instant of the calendar is already past it on the wall; it has
neither a day nor an end of a day, and it is not left as it is. -/
theorem dayText_endOfDay_ne_ok_lastInstant :
    ∃ z, parse "+00:01" = .ok z ∧ z ≠ .host ∧ inCalendar 8210266876799999 = true
      ∧ (z.clock .utc).dayText 8210266876799999 = .error ⟨8210266876799999⟩
      ∧ (z.clock .utc).endOfDay 8210266876799999 = .error ⟨8210266876799999⟩ :=
  ⟨_, rfl, by decide, by decide, rfl, rfl⟩

end Zone

end WaveFinder
