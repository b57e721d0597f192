import WaveFinder.Proofs.Calendar.Order
import WaveFinder.Proofs.Zone.DayEnds

/-!
# Proofs/Zone/DayText — days as text and days as instants

    text ──readDay?──▸ instant ──dayText──▸ text

On a clock with a fixed offset the two maps are adjoint.  Going right from a day and back loses
nothing; going left from an instant and back gives the midnight that it is preceded by
(`exists_readDay?_dayText`).  Reading keeps the order of the texts, and days that come next after
each other are read a day apart (`readDay?_dayText_adjoint`).
-/

namespace WaveFinder

open Text Calendar

/-- Eight digits that name a day: the month is one of the twelve, and the day is no later than the
last of the month. -/
structure IsDayText (cs : List Char) : Prop where
  length : cs.length = 8
  digits : ∀ c ∈ cs, c.isDigit = true
  month : 1 ≤ Nat.ofDigitChars 10 ((cs.drop 4).take 2) 0
    ∧ Nat.ofDigitChars 10 ((cs.drop 4).take 2) 0 ≤ 12
  day : 1 ≤ Nat.ofDigitChars 10 (cs.drop 6) 0
    ∧ Nat.ofDigitChars 10 (cs.drop 6) 0
      ≤ monthLength (Nat.ofDigitChars 10 (cs.take 4) 0 : Nat)
        (Nat.ofDigitChars 10 ((cs.drop 4).take 2) 0)

variable {cs ds : List Char} {d e : Date} {o t u : Int}

theorem isDayText_iff : IsDayText cs ↔ ∃ d : Date, d.IsNamedBy cs := by
  constructor
  · intro h
    obtain ⟨d, hyear, hmonth, hday⟩ := Date.exists_iff.2 ⟨h.month, h.day⟩
    exact ⟨d, h.length, h.digits, hyear, hmonth, hday⟩
  · intro h
    obtain ⟨d, hd⟩ := h
    obtain ⟨hmonth, hday⟩ := Date.exists_iff.1 ⟨d, hd.year, hd.month, hd.day⟩
    exact ⟨hd.length, hd.digits, hmonth, hday⟩

namespace Clock

section Offset

variable (h₀ : -dayMillis < o) (h₁ : o < dayMillis)
include h₀ h₁

/-- **The texts that are read** are those that name a day. -/
theorem exists_readDay?_fixed_iff : (∃ t, (fixed o).readDay? cs = some t) ↔ IsDayText cs := by
  simp only [readDay?_fixed_eq_some_iff h₀ h₁, isDayText_iff]
  rw [exists_comm]
  exact exists_congr fun d => exists_and_left.trans (and_iff_left ⟨_, rfl⟩)

theorem eq_midnight_of_readDay? (hd : d.IsNamedBy cs) (ht : (fixed o).readDay? cs = some t) :
    t = d.midnight - o := by
  obtain ⟨e, he, ht⟩ := (readDay?_fixed_eq_some_iff h₀ h₁).1 ht
  rw [ht, hd.unique he]

/-- **Earlier texts are read as earlier instants.** -/
theorem readDay?_fixed_lt_iff (ht : (fixed o).readDay? cs = some t)
    (hu : (fixed o).readDay? ds = some u) : cs < ds ↔ t < u := by
  obtain ⟨d, hd, rfl⟩ := (readDay?_fixed_eq_some_iff h₀ h₁).1 ht
  obtain ⟨e, he, rfl⟩ := (readDay?_fixed_eq_some_iff h₀ h₁).1 hu
  rw [hd.lt_iff he, ← Date.dayNumber_lt_iff, Date.midnight, Date.midnight, dayMillis]
  omega

/-- **Days that come next after each other are a day apart**, and only these. -/
theorem readDay?_fixed_next_iff (hd : d.IsNamedBy cs) (he : e.IsNamedBy ds)
    (ht : (fixed o).readDay? cs = some t) (hu : (fixed o).readDay? ds = some u) :
    d.Next e ↔ u = t + dayMillis := by
  rw [eq_midnight_of_readDay? h₀ h₁ hd ht, eq_midnight_of_readDay? h₀ h₁ he hu,
    ← Date.dayNumber_eq_add_one_iff, Date.midnight, Date.midnight, dayMillis]
  omega

/-- **An instant is written as the day that it falls in**, and what is read back is the midnight
that it is preceded by. -/
theorem exists_readDay?_dayText (hy : 0 ≤ (Date.ofWall (t + o)).year
    ∧ (Date.ofWall (t + o)).year ≤ 9999) :
    ∃ cs b, (fixed o).dayText t = .ok (some cs) ∧ (fixed o).readDay? cs = some b
      ∧ dayMillis ∣ b + o ∧ b ≤ t ∧ t < b + dayMillis := by
  have hdate : (fixed o).dateAt t = .ok (some (Date.ofWall (t + o))) :=
    ((isNear_fixed h₀ h₁).dateAt_eq_iff hy).2 rfl
  have hread := (readDay?_fixed_eq_some_iff h₀ h₁).2
    ⟨_, Date.isNamedBy_compact_iff.2 ⟨hy, rfl⟩, rfl⟩
  refine ⟨_, _, ?_, hread, ?_, ?_⟩
  · rw [dayText, hdate]
    rfl
  · rw [Int.sub_add_cancel, Date.midnight]
    exact Int.dvd_mul_left _ _
  · have hb := Date.midnight_ofWall_le (t + o)
    rw [Date.lastMilli] at hb
    omega

/-- 1 January 1970 is where days are counted from. -/
theorem readDay?_fixed_firstDay : (fixed o).readDay? "19700101".toList = some (-o) := by
  have hnamed : Date.IsNamedBy ⟨1970, 1, 1, by decide⟩ "19700101".toList :=
    Date.ofCompact?_eq_some_iff_isNamedBy.1 rfl
  have hzero : Date.dayNumber ⟨1970, 1, 1, by decide⟩ = 0 := by decide
  refine (readDay?_fixed_eq_some_iff h₀ h₁).2 ⟨_, hnamed, ?_⟩
  rw [Date.midnight, hzero, Int.zero_mul, Int.zero_sub]

/-- **Days as text and as instants are adjoint**, on a clock with a fixed offset.  A text is read if
and only if it is eight digits that name a day, and then it is what is written for its instant.
1 January 1970 begins as far before the count of instants as the clock is ahead; earlier texts are
read as earlier instants, and days come next after each other if and only if they are read a day
apart.  An instant of the years 0 to 9999 is written as a day, which is read as the midnight by the
clock that is no later than the instant and less than a day before it. -/
theorem readDay?_dayText_adjoint :
    (∀ cs, (∃ t, (fixed o).readDay? cs = some t) ↔ IsDayText cs)
      ∧ (∀ cs t, (fixed o).readDay? cs = some t → (fixed o).dayText t = .ok (some cs))
      ∧ (fixed o).readDay? "19700101".toList = some (-o)
      ∧ (∀ cs ds t u, (fixed o).readDay? cs = some t → (fixed o).readDay? ds = some u →
          (cs < ds ↔ t < u))
      ∧ (∀ cs ds t u (d e : Date), (fixed o).readDay? cs = some t →
          (fixed o).readDay? ds = some u → d.IsNamedBy cs → e.IsNamedBy ds →
          (d.Next e ↔ u = t + dayMillis))
      ∧ ∀ t, 0 ≤ (Date.ofWall (t + o)).year → (Date.ofWall (t + o)).year ≤ 9999 →
          ∃ cs b, (fixed o).dayText t = .ok (some cs) ∧ (fixed o).readDay? cs = some b
            ∧ dayMillis ∣ b + o ∧ b ≤ t ∧ t < b + dayMillis := by
  refine ⟨fun cs => exists_readDay?_fixed_iff h₀ h₁, fun cs t => dayText_of_readDay?,
    readDay?_fixed_firstDay h₀ h₁, ?_, ?_, ?_⟩
  · intro cs ds t u ht hu
    exact readDay?_fixed_lt_iff h₀ h₁ ht hu
  · intro cs ds t u d e ht hu hd he
    exact readDay?_fixed_next_iff h₀ h₁ hd he ht hu
  · intro t hy₀ hy₁
    exact exists_readDay?_dayText h₀ h₁ ⟨hy₀, hy₁⟩

end Offset

/-- A minute less than a day behind UTC the leap day of year 0 is read, 1 March of that year a day
later, and the last millisecond of year 9999 is still written as a day. -/
theorem readDay?_dayText_adjoint_behind :
    ∃ t u, (fixed (-86340000)).readDay? "00000229".toList = some t
      ∧ (fixed (-86340000)).readDay? "00000301".toList = some u ∧ u = t + dayMillis
      ∧ ∃ cs b, (fixed (-86340000)).dayText 253402387139999 = .ok (some cs)
        ∧ (fixed (-86340000)).readDay? cs = some b ∧ dayMillis ∣ b + -86340000
        ∧ b ≤ 253402387139999 ∧ 253402387139999 < b + dayMillis := by
  obtain ⟨hread, -, -, -, hnext, hwritten⟩ :=
    readDay?_dayText_adjoint (o := -86340000) (by decide) (by decide)
  have hfeb : Date.IsNamedBy ⟨0, 2, 29, by decide⟩ "00000229".toList :=
    Date.ofCompact?_eq_some_iff_isNamedBy.1 rfl
  have hmar : Date.IsNamedBy ⟨0, 3, 1, by decide⟩ "00000301".toList :=
    Date.ofCompact?_eq_some_iff_isNamedBy.1 rfl
  obtain ⟨t, ht⟩ := (hread _).2 (isDayText_iff.2 ⟨_, hfeb⟩)
  obtain ⟨u, hu⟩ := (hread _).2 (isDayText_iff.2 ⟨_, hmar⟩)
  have hday := (hnext _ _ t u _ _ ht hu hfeb hmar).1 (.month (by decide) rfl rfl rfl)
  exact ⟨t, u, ht, hu, hday, hwritten 253402387139999 (by decide) (by decide)⟩

end Clock

end WaveFinder
