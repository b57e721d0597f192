import WaveFinder.Zone.Basic

/-!
# Proofs/Zone/FixedDays — days on a clock that never changes

A clock with a fixed offset, less than a day either way, shows every midnight of the years 0 to 9999
exactly once, at an instant that the calendar covers.  So it reads eight digits as a day if they
name a date at all (`Date.IsNamedBy`), and the day begins at the date's midnight less the offset
(`readDay?_fixed_eq_some_iff`).
-/

namespace WaveFinder

open Text

/-! ## Dates and their eight digits -/

/-- Eight digits that name a date: four of the year, two of the month and two of the day. -/
structure Date.IsNamedBy (d : Date) (cs : List Char) : Prop where
  length : cs.length = 8
  digits : ∀ c ∈ cs, c.isDigit = true
  year : d.year = (Nat.ofDigitChars 10 (cs.take 4) 0 : Nat)
  month : d.month = Nat.ofDigitChars 10 ((cs.drop 4).take 2) 0
  day : d.day = Nat.ofDigitChars 10 (cs.drop 6) 0

namespace Date

variable {cs : List Char} {d : Date}

/-- **The compact form is read where eight digits name a date.** -/
theorem ofCompact?_eq_some_iff_isNamedBy : ofCompact? cs = some d ↔ d.IsNamedBy cs := by
  constructor
  · intro h
    obtain ⟨hl, hd, hyear, hmonth, hday⟩ := parts_of_ofCompact? h
    exact ⟨hl, hd, hyear, hmonth, hday⟩
  · rintro ⟨hl, hd, hyear, hmonth, hday⟩
    have hall : cs.all Char.isDigit = true := List.all_eq_true.2 hd
    simp only [ofCompact?, hl, hall, BEq.rfl, Bool.and_self, if_true, ← hyear, ← hmonth, ← hday]
    exact d.of?_self

theorem IsNamedBy.unique {e : Date} (hd : d.IsNamedBy cs) (he : e.IsNamedBy cs) : d = e := by
  have h := (ofCompact?_eq_some_iff_isNamedBy.2 hd).symm.trans
    (ofCompact?_eq_some_iff_isNamedBy.2 he)
  exact Option.some.inj h

theorem IsNamedBy.year_bounds (h : d.IsNamedBy cs) : 0 ≤ d.year ∧ d.year ≤ 9999 :=
  year_bounds_of_ofCompact? (ofCompact?_eq_some_iff_isNamedBy.2 h)

/-- The compact form is eight digits for years 0 to 9999; before and after there is a sign in
it. -/
theorem isNamedBy_compact_iff {e : Date} :
    e.IsNamedBy d.compact ↔ (0 ≤ d.year ∧ d.year ≤ 9999) ∧ e = d := by
  by_cases hy : 0 ≤ d.year ∧ d.year ≤ 9999
  · have hd : d.IsNamedBy d.compact :=
      ofCompact?_eq_some_iff_isNamedBy.1 (ofCompact?_compact hy.1 hy.2)
    constructor
    · exact fun he => ⟨hy, he.unique hd⟩
    · rintro ⟨-, rfl⟩
      exact hd
  · refine iff_of_false (fun he => ?_) fun h => hy h.1
    have hsign := he.digits (if d.year < 0 then '-' else '+')
      (by rw [compact, compactYear, if_neg hy]; simp)
    split at hsign <;> exact absurd hsign (by decide)

theorem compact_ne_nil (d : Date) : d.compact ≠ [] :=
  List.append_ne_nil_of_right_ne_nil _
    (List.append_ne_nil_of_right_ne_nil _ (Numeral.ofNat_ne_nil d.day))

theorem of_mem_compact {c : Char} (h : c ∈ d.compact) : c.isDigit = true ∨ c = '-' ∨ c = '+' := by
  rw [compact, compactYear, List.mem_append, List.mem_append] at h
  rcases h with (h | h) | h
  · split at h
    · exact .inl (Numeral.isDigit_of_mem_padded h)
    · rcases List.mem_cons.1 h with rfl | h
      · split <;> simp
      · exact .inl (Numeral.isDigit_of_mem_padded h)
  · exact .inl (Numeral.isDigit_of_mem_padded h)
  · exact .inl (Numeral.isDigit_of_mem_padded h)

/-- The midnights of the years 0 to 9999, on a wall clock. -/
theorem midnight_bounds (h₀ : 0 ≤ d.year) (h₁ : d.year ≤ 9999) :
    -62167219200000 ≤ d.midnight ∧ d.midnight ≤ 253402214400000 := by
  have hb := d.dayNumber_bounds
  have lo := Calendar.yearStart_mono h₀
  have hi := Calendar.yearStart_mono (show d.year + 1 ≤ 10000 by omega)
  simp only [Calendar.yearStart, Calendar.epochDay] at hb lo hi
  rw [midnight, dayMillis]
  omega

end Date

/-! ## Instants as text -/

/-- The numeral of an integer is its decimal text. -/
theorem ofList_ofInt (n : Int) : String.ofList (Numeral.ofInt n) = toString n := by
  rw [Int.toString_eq_repr, Int.repr_eq_if, Numeral.ofInt]
  by_cases h : n < 0
  · rw [if_pos h, if_neg (by omega), Nat.repr_eq_ofList_toDigits, Numeral.ofNat,
      show (-n).toNat = n.natAbs by omega, ← String.toList_inj]
    simp
  · rw [if_neg h, if_pos (by omega), Nat.repr_eq_ofList_toDigits, Numeral.ofNat,
      show n.toNat = n.natAbs by omega]

theorem toString_int_inj {m n : Int} : toString m = toString n ↔ m = n := by
  refine ⟨fun h => ?_, congrArg _⟩
  rw [← ofList_ofInt, ← ofList_ofInt, String.ofList_inj] at h
  have hread := congrArg Numeral.toInt? h
  rwa [Numeral.toInt?_ofInt, Numeral.toInt?_ofInt, Option.some.injEq] at hread

/-! ## Midnights -/

namespace Clock

variable {o : Int} {cs : List Char}

/-- On any clock a day is read where eight digits name a date, as the instant at which it
begins. -/
theorem readDay?_eq_some_iff_isNamedBy {c : Clock} {t : Int} :
    c.readDay? cs = some t ↔ ∃ d : Date, d.IsNamedBy cs ∧ c.startOfDate? d = some t := by
  simp only [readDay?, Option.bind_eq_some_iff, Date.ofCompact?_eq_some_iff_isNamedBy]

/-- A midnight and the instant at which a clock less than a day off shows it lie in the
calendar. -/
theorem inCalendar_midnight_sub (h₀ : -dayMillis < o) (h₁ : o < dayMillis) {d : Date}
    (hy : 0 ≤ d.year ∧ d.year ≤ 9999) : inCalendar (d.midnight - o) = true := by
  have hb := Date.midnight_bounds hy.1 hy.2
  rw [dayMillis] at h₀ h₁
  rw [inCalendar_iff]
  omega

/-- **A date begins at the instant of its midnight.** -/
theorem startOfDate?_fixed (h₀ : -dayMillis < o) (h₁ : o < dayMillis) {d : Date}
    (hy : 0 ≤ d.year ∧ d.year ≤ 9999) : (fixed o).startOfDate? d = some (d.midnight - o) := by
  rw [startOfDate?_eq_some_iff, resolve_fixed h₀ h₁ (inCalendar_midnight hy.1 hy.2),
    if_pos (inCalendar_midnight_sub h₀ h₁ hy)]

/-- **A day is read as the instant of its midnight.** -/
theorem readDay?_fixed_eq_some_iff (h₀ : -dayMillis < o) (h₁ : o < dayMillis) {t : Int} :
    (fixed o).readDay? cs = some t ↔ ∃ d : Date, d.IsNamedBy cs ∧ t = d.midnight - o := by
  rw [readDay?_eq_some_iff_isNamedBy]
  refine exists_congr fun d => and_congr_right fun hd => ?_
  rw [startOfDate?_fixed h₀ h₁ hd.year_bounds, Option.some.injEq, eq_comm]

end Clock

/-- Every zone but the host's has a clock with a fixed offset of whole minutes, less than a day
either way. -/
theorem Zone.exists_clock_eq_fixed {z : Zone} (h : z ≠ .host) (hostClock : Clock) :
    ∃ o, -dayMillis < o ∧ o < dayMillis ∧ 60000 ∣ o ∧ z.clock hostClock = Clock.fixed o := by
  rcases z with _ | _ | o
  · exact ⟨0, by decide, by decide, by decide, rfl⟩
  · exact absurd rfl h
  · obtain ⟨h₀, h₁⟩ := o.isBounded
    refine ⟨o.millis, ?_, ?_, ?_, rfl⟩ <;> rw [Offset.millis]
    · rw [dayMillis]
      omega
    · rw [dayMillis]
      omega
    · omega

end WaveFinder
