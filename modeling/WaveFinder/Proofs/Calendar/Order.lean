import WaveFinder.Proofs.Zone.FixedDays

/-!
# Proofs/Calendar/Order — dates in the order in which they come

    eight digits ──IsNamedBy──▸ date ──dayNumber──▸ ℤ

Both arrows keep the order.  A date that comes earlier by its year, then by its month, then by its
day has the smaller day number (`dayNumber_lt_iff`), and its eight digits come first as text
(`IsNamedBy.lt_iff`): they are the numeral of the date, the year in front.  The dates that come next
after each other, which the lengths of the months decide (`Next`), have day numbers that follow each
other (`dayNumber_eq_add_one_iff`), so that no date is left out or counted twice.
-/

namespace WaveFinder

-- Sums of natural numbers are core's here, whatever else is in scope.
attribute [local instance (2000)] Zero.ofOfNat0

open Text

/-! ## Numerals of one length -/

/-- Of two digits with something below their place after them, the digits decide unless they are
the same. -/
theorem mul_add_lt_mul_add_iff {p a b x y : Nat} (hx : x < p) (hy : y < p) :
    p * a + x < p * b + y ↔ a < b ∨ a = b ∧ x < y := by
  have houtweighs : ∀ {a b x y : Nat}, x < p → a < b → p * a + x < p * b + y := by
    intro a b x y hx hab
    have hle : p * (a + 1) ≤ p * b := Nat.mul_le_mul_left p hab
    rw [Nat.mul_add_one] at hle
    omega
  constructor
  · intro h
    by_cases hab : a = b
    · subst hab
      exact .inr ⟨rfl, by omega⟩
    · refine .inl (Nat.lt_of_not_le fun hba => ?_)
      have hlt := houtweighs (y := x) hy (show b < a by omega)
      omega
  · intro h
    obtain hab | ⟨rfl, hxy⟩ := h
    · exact houtweighs hx hab
    · omega

/-- **Numerals of one length are in the order of their values.** -/
theorem Text.Numeral.lt_iff_ofDigitChars_lt {cs ds : List Char} (hc : ∀ c ∈ cs, c.isDigit = true)
    (hd : ∀ d ∈ ds, d.isDigit = true) (hl : cs.length = ds.length) :
    cs < ds ↔ Nat.ofDigitChars 10 cs 0 < Nat.ofDigitChars 10 ds 0 := by
  induction cs generalizing ds with
  | nil =>
    obtain rfl := List.eq_nil_of_length_eq_zero hl.symm
    exact iff_of_false (List.not_lt_nil _) (Nat.lt_irrefl _)
  | cons c cs ih =>
    obtain _ | ⟨d, ds⟩ := ds
    · simp at hl
    obtain ⟨hcdigit, hcs⟩ := List.forall_mem_cons.1 hc
    obtain ⟨hddigit, hds⟩ := List.forall_mem_cons.1 hd
    have hl' : cs.length = ds.length := Nat.succ.inj hl
    have lc := ofDigitChars_lt hcs
    have ld := ofDigitChars_lt hds
    rw [← hl'] at ld
    rw [List.cons_lt_cons_iff, Nat.ofDigitChars_cons, Nat.ofDigitChars_cons,
      Nat.ofDigitChars_eq_ofDigitChars_zero, Nat.ofDigitChars_eq_ofDigitChars_zero (l := ds), ← hl',
      Nat.mul_zero, Nat.zero_add, Nat.zero_add, mul_add_lt_mul_add_iff lc ld, ih hcs hds hl']
    have bc := digit_bounds hcdigit
    have bd := digit_bounds hddigit
    have hlt : c < d ↔ c.toNat - '0'.toNat < d.toNat - '0'.toNat := by
      rw [show '0'.toNat = 48 from rfl]
      change c.toNat < d.toNat ↔ _
      omega
    have heq : c = d ↔ c.toNat - '0'.toNat = d.toNat - '0'.toNat := by
      rw [show '0'.toNat = 48 from rfl, ← Char.toNat_inj]
      omega
    rw [hlt, heq]

/-! ## Lengths of the months -/

namespace Calendar

/-- Leap years: 4 divides the year, and 400 does if 100 does. -/
theorem isLeap_iff {y : Int} : isLeap y = true ↔ 4 ∣ y ∧ (100 ∣ y → 400 ∣ y) := by
  rw [isLeap, Bool.and_eq_true, Bool.or_eq_true, beq_iff_eq, beq_iff_eq, bne_iff_ne]
  omega

/-- The length of a month as it is learnt by heart: thirty days in April, June, September and
November, and all the rest thirty-one but February, which has twenty-nine in leap years. -/
def monthLength (y : Int) (m : Nat) : Nat :=
  if m = 2 then if 4 ∣ y ∧ (100 ∣ y → 400 ∣ y) then 29 else 28
  else if m = 4 ∨ m = 6 ∨ m = 9 ∨ m = 11 then 30
  else 31

theorem one_le_monthLength (y : Int) (m : Nat) : 1 ≤ monthLength y m := by
  unfold monthLength
  split <;> split <;> decide

theorem daysInMonth_eq_monthLength {y : Int} {m : Nat} (h₁ : 1 ≤ m) (h₂ : m ≤ 12) :
    daysInMonth y m = monthLength y m := by
  have htable : ∀ leap : Bool, ∀ m < 13, 1 ≤ m → (monthLengths leap).getD (m - 1) 0
      = if m = 2 then if leap then 29 else 28
        else if m = 4 ∨ m = 6 ∨ m = 9 ∨ m = 11 then 30 else 31 := by decide
  simp only [monthLength, ← isLeap_iff]
  rw [daysInMonth, if_neg (by omega), htable _ m (by omega) h₁]

theorem sum_take_add_one (ls : List Nat) (n : Nat) :
    (ls.take (n + 1)).sum = (ls.take n).sum + ls.getD n 0 := by
  rw [List.take_add_one, List.sum_append, List.getD_eq_getElem?_getD]
  cases ls[n]? <;> simp

theorem sum_take_mono (ls : List Nat) {m n : Nat} (h : m ≤ n) :
    (ls.take m).sum ≤ (ls.take n).sum := by
  obtain ⟨k, rfl⟩ := Nat.le.dest h
  induction k with
  | zero => exact Nat.le_refl _
  | succ k ih =>
    have hnext := sum_take_add_one ls (m + k)
    have hle := ih (Nat.le_add_right m k)
    rw [← Nat.add_assoc]
    omega

end Calendar

namespace Date

open Calendar

variable {d e : Date} {cs ds : List Char}

/-- A date exists if its month and its day do. -/
theorem exists_iff {y : Int} {m n : Nat} :
    (∃ d : Date, d.year = y ∧ d.month = m ∧ d.day = n)
      ↔ (1 ≤ m ∧ m ≤ 12) ∧ 1 ≤ n ∧ n ≤ monthLength y m := by
  constructor
  · intro h
    obtain ⟨d, rfl, rfl, rfl⟩ := h
    have hm : 1 ≤ d.month ∧ d.month ≤ 12 := ⟨d.month_pos, d.month_le⟩
    refine ⟨hm, d.isDay.1, ?_⟩
    rw [← daysInMonth_eq_monthLength hm.1 hm.2]
    exact d.isDay.2
  · intro h
    obtain ⟨hm, hn⟩ := h
    rw [← daysInMonth_eq_monthLength hm.1 hm.2] at hn
    exact ⟨⟨y, m, n, hn⟩, rfl, rfl, rfl⟩

/-! ## The order of dates -/

/-- One date comes before another: by its year, then by its month, then by its day. -/
def Before (d e : Date) : Prop :=
  d.year < e.year
    ∨ d.year = e.year ∧ (d.month < e.month ∨ d.month = e.month ∧ d.day < e.day)

theorem Before.dayNumber_lt (h : Before d e) : d.dayNumber < e.dayNumber := by
  obtain hyear | ⟨hyear, hmonth | ⟨hmonth, hday⟩⟩ := h
  · have hd := d.dayNumber_bounds
    have he := e.dayNumber_bounds
    have hstart := yearStart_mono (show d.year + 1 ≤ e.year by omega)
    omega
  · have hd := d.day_pred_lt
    have hm := d.month_pos
    have hnext := sum_take_add_one (monthLengths (isLeap d.year)) (d.month - 1)
    have hle := sum_take_mono (monthLengths (isLeap d.year))
      (show d.month - 1 + 1 ≤ e.month - 1 by omega)
    rw [dayNumber, dayNumber, ← hyear]
    omega
  · have hd := d.isDay.1
    rw [dayNumber, dayNumber, ← hyear, ← hmonth]
    omega

/-- Of two dates one comes before the other, unless they are the same. -/
theorem before_or_eq_or_before (d e : Date) : Before d e ∨ d = e ∨ Before e d := by
  by_cases h : d.year = e.year ∧ d.month = e.month ∧ d.day = e.day
  · exact .inr (.inl (ext h.1 h.2.1 h.2.2))
  · unfold Before
    omega

/-- **Dates are counted in the order in which they come.** -/
theorem dayNumber_lt_iff : d.dayNumber < e.dayNumber ↔ Before d e := by
  constructor
  · intro h
    obtain hde | rfl | hed := before_or_eq_or_before d e
    · exact hde
    · exact absurd h (Int.lt_irrefl _)
    · have := hed.dayNumber_lt
      omega
  · exact Before.dayNumber_lt

theorem dayNumber_inj (h : d.dayNumber = e.dayNumber) : d = e := by
  rw [← d.ofDayNumber_dayNumber, h, ofDayNumber_dayNumber]

/-! ## The next date -/

/-- The date that comes next after another: the next day of the month, the first of the next month
after the last day of a month, or the first of the next year after the last day of a year. -/
inductive Next (d : Date) : Date → Prop
  | day {e : Date} : e.year = d.year → e.month = d.month → e.day = d.day + 1 → Next d e
  | month {e : Date} : d.day = monthLength d.year d.month → e.year = d.year →
      e.month = d.month + 1 → e.day = 1 → Next d e
  | year {e : Date} : d.month = 12 → d.day = 31 → e.year = d.year + 1 → e.month = 1 → e.day = 1 →
      Next d e

theorem Next.dayNumber_eq (h : Next d e) : e.dayNumber = d.dayNumber + 1 := by
  have hd := d.isDay.1
  have hm := d.month_pos
  cases h with
  | day hyear hmonth hday =>
    rw [dayNumber, dayNumber, hyear, hmonth, hday]
    omega
  | month hlast hyear hmonth hday =>
    have hlast' : d.day = (monthLengths (isLeap d.year)).getD (d.month - 1) 0 := by
      rw [hlast, ← daysInMonth_eq_monthLength hm d.month_le, daysInMonth, if_neg (by omega)]
    have hnext := sum_take_add_one (monthLengths (isLeap d.year)) (d.month - 1)
    rw [dayNumber, dayNumber, hyear, hmonth, hday, show d.month + 1 - 1 = d.month - 1 + 1 by omega]
    omega
  | year hmonth hlast hyear hmonth' hday =>
    have hyearEnd : ((((monthLengths (isLeap d.year)).take (12 - 1)).sum + 31 : Nat) : Int)
        = if isLeap d.year then 366 else 365 := by
      cases isLeap d.year <;> rfl
    rw [dayNumber, dayNumber, hyear, hmonth, hlast, hmonth', hday, yearStart_succ, ← hyearEnd,
      Nat.sub_self, List.take_zero, List.sum_nil]
    omega

/-- Every date is followed by another. -/
theorem exists_next (d : Date) : ∃ e, Next d e := by
  obtain ⟨⟨hm, hm'⟩, hd, hd'⟩ := exists_iff.1 ⟨d, rfl, rfl, rfl⟩
  by_cases hday : d.day < monthLength d.year d.month
  · obtain ⟨e, hyear, hmonth, hday'⟩ := exists_iff.2
      ⟨⟨hm, hm'⟩, Nat.le_add_left 1 d.day, hday⟩
    exact ⟨e, .day hyear hmonth hday'⟩
  have hlast : d.day = monthLength d.year d.month := by omega
  by_cases hmonth : d.month < 12
  · obtain ⟨e, hyear, hmonth', hday'⟩ := exists_iff.2
      ⟨⟨Nat.le_add_left 1 d.month, hmonth⟩, Nat.le_refl 1, one_le_monthLength d.year _⟩
    exact ⟨e, .month hlast hyear hmonth' hday'⟩
  · have hdecember : d.month = 12 := by omega
    obtain ⟨e, hyear, hmonth', hday'⟩ := exists_iff.2
      ⟨⟨Nat.le_refl 1, by decide⟩, Nat.le_refl 1, one_le_monthLength (d.year + 1) 1⟩
    rw [hdecember] at hlast
    exact ⟨e, .year hdecember hlast hyear hmonth' hday'⟩

/-- **The next date has the next number**, and only the next date has. -/
theorem dayNumber_eq_add_one_iff : e.dayNumber = d.dayNumber + 1 ↔ Next d e := by
  constructor
  · intro h
    obtain ⟨e', he'⟩ := d.exists_next
    obtain rfl : e' = e := dayNumber_inj (he'.dayNumber_eq.trans h.symm)
    exact he'
  · exact Next.dayNumber_eq

/-! ## Eight digits -/

/-- The value of the eight digits of a date. -/
theorem IsNamedBy.ofDigitChars_eq (h : d.IsNamedBy cs) :
    (Nat.ofDigitChars 10 cs 0 : Int) = 10000 * d.year + 100 * d.month + d.day := by
  have hsplit : cs.take 4 ++ ((cs.drop 4).take 2 ++ cs.drop 6) = cs := by
    rw [show cs.drop 6 = (cs.drop 4).drop 2 by rw [List.drop_drop], List.take_append_drop,
      List.take_append_drop]
  have hmonth : ((cs.drop 4).take 2).length = 2 := by simp [h.length]
  have hday : (cs.drop 6).length = 2 := by simp [h.length]
  have hvalue := congrArg (fun ds => Nat.ofDigitChars 10 ds 0) hsplit
  rw [Nat.ofDigitChars_append, Nat.ofDigitChars_append, Nat.ofDigitChars_eq_ofDigitChars_zero,
    Nat.ofDigitChars_eq_ofDigitChars_zero (l := (cs.drop 4).take 2), hmonth, hday, ← h.month,
    ← h.day] at hvalue
  have hyear := h.year
  omega

/-- **The digits of dates are in the order of the dates.** -/
theorem IsNamedBy.lt_iff (hd : d.IsNamedBy cs) (he : e.IsNamedBy ds) : cs < ds ↔ Before d e := by
  rw [Numeral.lt_iff_ofDigitChars_lt hd.digits he.digits (hd.length.trans he.length.symm)]
  have hdvalue := hd.ofDigitChars_eq
  have hevalue := he.ofDigitChars_eq
  have hm := d.month_le
  have hm' := e.month_le
  have hn := d.day_le
  have hn' := e.day_le
  unfold Before
  omega

end Date

end WaveFinder
