import WaveFinder.Proofs.Pointwise
import WaveFinder.Proofs.Zone.FixedDays

/-!
# Proofs/Zone/DayEnds — how far the widened bound of a day reaches

    date ──startOfDate?──▸ beginning ──endOfDay──▸ bound

A clock is near UTC if it is less than a day off, and then every day that begins can be widened
(`IsNear.exists_endOfDay`).  It is regular if, besides, its offset changes by whole seconds and
between whole seconds, and a wall-clock time is looked up as the earliest and the latest of the
instants at which the clock shows it.

On a regular clock the bound is the latest instant that shows the last millisecond of the day.  If
that is the latest instant of the day at all, nothing of the day lies beyond the bound.  Otherwise
something does (`IsRegular.endOfDay_covers_iff`): the clock may be put forward over the end of the
day, and then the bound is the very beginning; or it may be put back to the day when that has ended
and put forward again before it ends once more.
-/

namespace WaveFinder

namespace Date

variable {d : Date} {w : Int}

theorem ofWall_eq_iff : ofWall w = d ↔ d.midnight ≤ w ∧ w ≤ d.lastMilli := by
  constructor
  · rintro rfl
    exact midnight_ofWall_le w
  · rintro ⟨h₀, h₁⟩
    have hday : w / dayMillis = d.dayNumber := by
      simp only [lastMilli, midnight, dayMillis] at h₀ h₁ ⊢
      omega
    rw [ofWall, hday, ofDayNumber_dayNumber]

end Date

namespace Clock

variable {c : Clock} {d : Date} {s t w : Int}

/-! ## Clocks near UTC -/

/-- A clock that is less than a day off UTC at every instant. -/
def IsNear (c : Clock) : Prop :=
  ∀ t, -dayMillis < c.offsetAt t ∧ c.offsetAt t < dayMillis

theorem isNear_fixed {o : Int} (h₀ : -dayMillis < o) (h₁ : o < dayMillis) : (fixed o).IsNear :=
  fun _ => ⟨h₀, h₁⟩

namespace IsNear

theorem isWithinDay_wallAt (h : c.IsNear) (t : Int) : isWithinDay t (c.wallAt t) = true := by
  have hoff := h t
  rw [isWithinDay, Bool.and_eq_true, decide_eq_true_eq, decide_eq_true_eq, wallAt]
  omega

/-- Around a date of the years 0 to 9999 every instant lies in the calendar and the clock can be
read at it. -/
theorem readAt_of_le (h : c.IsNear) (hy : 0 ≤ d.year ∧ d.year ≤ 9999)
    (h₀ : d.midnight - dayMillis ≤ t) (h₁ : t ≤ d.lastMilli + dayMillis) :
    inCalendar t = true ∧ c.readAt t = .ok (c.wallAt t) := by
  have hb := Date.midnight_bounds hy.1 hy.2
  have hoff := h t
  simp only [Date.lastMilli, dayMillis] at h₀ h₁ hoff
  refine ⟨inCalendar_iff.2 (by omega), readAt_eq_ok_iff.2 ⟨rfl, h.isWithinDay_wallAt t, ?_⟩⟩
  rw [inCalendar_iff, wallAt]
  omega

/-- **The instants of a date** are those at which the clock shows a time of it. -/
theorem dateAt_eq_iff (h : c.IsNear) (hy : 0 ≤ d.year ∧ d.year ≤ 9999) :
    c.dateAt t = .ok (some d) ↔ Date.ofWall (c.wallAt t) = d := by
  rw [dateAt]
  constructor
  · intro hdate
    split at hdate
    · obtain ⟨w, hw, hd⟩ := Except.map_eq_ok_iff.1 hdate
      rw [(readAt_eq_ok_iff.1 hw).1]
      exact Option.some.inj hd
    · cases hdate
  · intro hd
    have hoff := h t
    obtain ⟨h₀, h₁⟩ := Date.ofWall_eq_iff.1 hd
    obtain ⟨hin, hread⟩ := h.readAt_of_le hy (t := t) (by rw [wallAt] at h₀; omega)
      (by rw [wallAt] at h₁; omega)
    rw [if_pos hin, hread, ← hd]
    rfl

/-- A time of a date of the years 0 to 9999 can be resolved, to an instant or to none. -/
theorem exists_resolve (h : c.IsNear) (hy : 0 ≤ d.year ∧ d.year ≤ 9999) (hd : Date.ofWall w = d)
    (choice : Choice) : ∃ r, c.resolve choice w = .ok r := by
  rw [resolve]
  rcases hchoose : (c.candidates w).choose? choice with _ | u
  · exact ⟨none, rfl⟩
  · obtain ⟨h₀, h₁⟩ := Date.ofWall_eq_iff.1 hd
    have hday := (of_choose?_candidates hchoose).2
    rw [isWithinDay, Bool.and_eq_true, decide_eq_true_eq, decide_eq_true_eq] at hday
    obtain ⟨-, hread⟩ := h.readAt_of_le hy (t := u) (by omega) (by omega)
    dsimp only
    rw [hread]
    exact ⟨_, rfl⟩

/-- **Every day that begins can be widened.** -/
theorem exists_endOfDay (h : c.IsNear) (hy : 0 ≤ d.year ∧ d.year ≤ 9999)
    (hs : c.startOfDate? d = some s) : ∃ e, c.endOfDay s = .ok e := by
  obtain ⟨r, hr⟩ := h.exists_resolve hy (Date.ofWall_lastMilli d) .second
  rw [endOfDay_of_startOfDate? hs, hr]
  exact ⟨_, rfl⟩

end IsNear

end Clock

/-! ## Regular clocks -/

/-- The occurrences of a wall-clock time on a clock: the instants at which the clock shows it, or
the earliest and the latest of them where it shows the time more than once. -/
def Occurrences.AreOf (c : Clock) (w : Int) : Occurrences → Prop
  | skipped => ∀ t, c.wallAt t ≠ w
  | once t => ∀ u, c.wallAt u = w ↔ u = t
  | twice t u => t < u ∧ c.wallAt t = w ∧ c.wallAt u = w ∧ ∀ v, c.wallAt v = w → t ≤ v ∧ v ≤ u

namespace Clock

variable {c : Clock} {d : Date} {s t w : Int}

/-- A clock that follows the rules of a zone: it is near UTC, its offset changes by whole seconds
and between whole seconds, and times are looked up as the clock shows them. -/
structure IsRegular (c : Clock) : Prop where
  near : c.IsNear
  whole : ∀ t, 1000 ∣ c.offsetAt t
  steady : ∀ t, c.offsetAt t = c.offsetAt (t / 1000 * 1000)
  lookup : ∀ w, (c.occurrences w).AreOf c w

namespace IsRegular

/-- Where a regular clock shows a whole second, it shows the next millisecond a millisecond
later. -/
theorem wallAt_succ (h : c.IsRegular) (ht : 1000 ∣ c.wallAt t) :
    c.wallAt (t + 1) = c.wallAt t + 1 := by
  have hoff := h.whole t
  rw [wallAt] at ht
  have hsec : (t + 1) / 1000 * 1000 = t / 1000 * 1000 := by omega
  rw [wallAt, wallAt, h.steady (t + 1), h.steady t, hsec]
  omega

/-- **The second choice for a time** is the latest instant at which the clock shows it; there is
none only if it never does. -/
theorem resolve_second_cases (h : c.IsRegular) (hy : 0 ≤ d.year ∧ d.year ≤ 9999)
    (hd : Date.ofWall w = d) :
    (c.resolve .second w = .ok none ∧ ∀ t, c.wallAt t ≠ w)
      ∨ ∃ u, c.resolve .second w = .ok (some u) ∧ c.wallAt u = w
        ∧ ∀ v, c.wallAt v = w → v ≤ u := by
  have hlook := h.lookup w
  -- An instant that shows the time is a candidate, and the clock can be read at it.
  have hshows : ∀ u, c.wallAt u = w →
      (inCalendar u && isWithinDay u w) = true ∧ c.readAt u = .ok w := by
    rintro u rfl
    have hoff := h.near u
    obtain ⟨h₀, h₁⟩ := Date.ofWall_eq_iff.1 hd
    obtain ⟨hin, hread⟩ := h.near.readAt_of_le hy (t := u) (by rw [wallAt] at h₀; omega)
      (by rw [wallAt] at h₁; omega)
    exact ⟨by rw [hin, h.near.isWithinDay_wallAt u, Bool.and_self], hread⟩
  rcases hocc : c.occurrences w with _ | u | ⟨t, u⟩
  all_goals rw [hocc] at hlook
  · refine .inl ⟨?_, hlook⟩
    rw [resolve, candidates, hocc, ite_self]
    rfl
  · have hu : c.wallAt u = w := (hlook u).2 rfl
    refine .inr ⟨u, resolve_eq_some_iff.2 ⟨?_, (hshows u hu).2⟩, hu, fun v hv => ?_⟩
    · rw [candidates, hocc, Occurrences.all, if_pos (hshows u hu).1]
      rfl
    · exact Int.le_of_eq ((hlook v).1 hv)
  · obtain ⟨-, ht, hu, hbetween⟩ := hlook
    refine .inr ⟨u, resolve_eq_some_iff.2 ⟨?_, (hshows u hu).2⟩, hu, fun v hv => ?_⟩
    · rw [candidates, hocc, Occurrences.all, (hshows t ht).1, (hshows u hu).1, Bool.and_self,
        if_pos rfl]
      rfl
    · exact (hbetween v hv).2

/-- **How far the bound of a day reaches.**  A day that begins can be widened, and its bound is an
instant of the day.  No instant of the day lies beyond the bound if the latest one shows the last
millisecond, and only then. -/
theorem endOfDay_covers_iff (h : c.IsRegular) (hy : 0 ≤ d.year ∧ d.year ≤ 9999)
    (hs : c.startOfDate? d = some s) :
    ∃ e, c.endOfDay s = .ok e ∧ c.dateAt e = .ok (some d)
      ∧ ((∀ t, c.dateAt t = .ok (some d) → t ≤ e)
        ↔ ∃ l, c.wallAt l = d.lastMilli ∧ ∀ t, c.dateAt t = .ok (some d) → t ≤ l) := by
  rw [endOfDay_of_startOfDate? hs]
  rcases h.resolve_second_cases hy (Date.ofWall_lastMilli d) with
    ⟨hend, hno⟩ | ⟨e, hend, he, hlatest⟩
  · -- Nothing shows the last millisecond, and the second one comes after the bound.
    have hstart : c.wallAt s = d.midnight :=
      (readAt_eq_ok_iff.1 (resolve_eq_some_iff.1 (startOfDate?_eq_some_iff.1 hs)).2).1
    have hdate : c.dateAt s = .ok (some d) := dateAt_of_resolve (startOfDate?_eq_some_iff.1 hs)
    have hnext : c.dateAt (s + 1) = .ok (some d) := by
      have hsec : 1000 ∣ c.wallAt s := by
        rw [hstart, Date.midnight, dayMillis]
        omega
      rw [h.near.dateAt_eq_iff hy, h.wallAt_succ hsec, hstart, Date.ofWall_eq_iff, Date.lastMilli,
        dayMillis]
      omega
    rw [hend]
    refine ⟨s, rfl, hdate, iff_of_false ?_ ?_⟩
    · intro hle
      have := hle (s + 1) hnext
      omega
    · rintro ⟨l, hl, -⟩
      exact hno l hl
  · rw [hend]
    refine ⟨e, rfl, ?_, fun hle => ⟨e, he, hle⟩, ?_⟩
    · rw [h.near.dateAt_eq_iff hy, he, Date.ofWall_lastMilli]
    · rintro ⟨l, hl, hle⟩ t ht
      exact Int.le_trans (hle t ht) (hlatest l hl)

end IsRegular

end Clock

end WaveFinder
