import WaveFinder.Calendar.Date
import WaveFinder.Text.Blank
import WaveFinder.Text.Numeral

/-!
# Calendar/Compact — dates as `yyyyMMdd`

The compact form writes a date without separators.  Two readers go with it: `ofCompact?` takes
eight digits and nothing else, so it reads years 0 to 9999, and there reading and writing undo each
other (`ofCompact?_eq_some_iff`); `ofLoose?` also takes blanks before each number, short numbers and
a signed year, which is what a date given on the command line may look like.
-/

namespace WaveFinder.Date

open Calendar Text

/-- The first year of the calendar that instants can be placed in. -/
def firstYear : Int := -262143

/-- The last year of the calendar that instants can be placed in. -/
def lastYear : Int := 262142

/-- Whether the calendar covers the date's year. -/
def isCovered (d : Date) : Bool :=
  decide (firstYear ≤ d.year) && decide (d.year ≤ lastYear)

/-- The year in compact form: four digits, or a sign and at least four digits where four digits do
not suffice. -/
def compactYear (y : Int) : List Char :=
  if 0 ≤ y ∧ y ≤ 9999 then
    Numeral.padded 4 y.natAbs
  else
    (if y < 0 then '-' else '+') :: Numeral.padded 4 y.natAbs

/-- The compact form of a date. -/
def compact (d : Date) : List Char :=
  compactYear d.year ++ Numeral.padded 2 d.month ++ Numeral.padded 2 d.day

/-- Reads eight digits that name a date. -/
def ofCompact? (cs : List Char) : Option Date :=
  if cs.length == 8 && cs.all Char.isDigit then
    let number := fun ds => Nat.ofDigitChars 10 ds 0
    of? (number (cs.take 4)) (number ((cs.drop 4).take 2)) (number (cs.drop 6))
  else
    none

/-- Reads a number of at least one and at most `width` digits off the front, blanks before it
skipped. -/
def scanNumber (width : Nat) (cs : List Char) : Option (Nat × List Char) :=
  let cs := cs.dropWhile isBlank
  let digits := (cs.take width).takeWhile Char.isDigit
  if digits.isEmpty then none else some (Nat.ofDigitChars 10 digits 0, cs.drop digits.length)

/-- Reads a year off the front: up to four digits, or a sign and all the digits after it. -/
def scanYear (cs : List Char) : Option (Int × List Char) :=
  match cs.dropWhile isBlank with
  | '-' :: cs => signed (fun n => -(n : Int)) cs
  | '+' :: cs => signed Int.ofNat cs
  | cs => (scanNumber 4 cs).map fun r => (r.1, r.2)
where
  /-- Reads the digits after a sign, which follow it without a blank. -/
  signed (f : Nat → Int) (cs : List Char) : Option (Int × List Char) :=
    let digits := cs.takeWhile Char.isDigit
    if digits.isEmpty then none
    else some (f (Nat.ofDigitChars 10 digits 0), cs.drop digits.length)

/-- Reads a date with blanks allowed before each number, and with months and days of one digit.
Nothing may follow, and the calendar must cover the year. -/
def ofLoose? (cs : List Char) : Option Date := do
  let (year, cs) ← scanYear cs
  let (month, cs) ← scanNumber 2 cs
  let (day, cs) ← scanNumber 2 cs
  if cs.isEmpty then (of? year month day).filter isCovered else none

theorem month_le (d : Date) : d.month ≤ 12 := by
  have h := d.day_pred_lt
  rcases Nat.lt_or_ge (d.month - 1) (monthLengths (isLeap d.year)).length with hl | hl
  · have : (monthLengths (isLeap d.year)).length = 12 := rfl
    omega
  · simp [List.getD_eq_getElem?_getD, hl] at h

theorem getD_monthLengths_le (leap : Bool) (m : Nat) : (monthLengths leap).getD m 0 ≤ 31 := by
  have h : ∀ l ∈ monthLengths leap, l ≤ 31 := by cases leap <;> decide
  rcases Nat.lt_or_ge m (monthLengths leap).length with hl | hl
  · simpa [List.getD_eq_getElem?_getD, hl] using h _ (List.getElem_mem hl)
  · simp [List.getD_eq_getElem?_getD, hl]

theorem day_le (d : Date) : d.day ≤ 31 := by
  have h := d.day_pred_lt
  have := getD_monthLengths_le (isLeap d.year) (d.month - 1)
  omega

theorem of?_self (d : Date) : of? d.year d.month d.day = some d := by
  simp [of?, d.isDay]

theorem compact_of_year {d : Date} (h₀ : 0 ≤ d.year) (h₁ : d.year ≤ 9999) :
    d.compact = Numeral.padded 4 d.year.natAbs ++ Numeral.padded 2 d.month
      ++ Numeral.padded 2 d.day := by
  rw [compact, compactYear, if_pos ⟨h₀, h₁⟩]

/-- **A date of years 0 to 9999 is read back from its compact form.** -/
theorem ofCompact?_compact {d : Date} (h₀ : 0 ≤ d.year) (h₁ : d.year ≤ 9999) :
    ofCompact? d.compact = some d := by
  have hm := d.month_le
  have hd := d.day_le
  have ly : (Numeral.padded 4 d.year.natAbs).length = 4 :=
    Numeral.length_padded (by decide) (by omega)
  have lm : (Numeral.padded 2 d.month).length = 2 := Numeral.length_padded (by decide) (by omega)
  have ld : (Numeral.padded 2 d.day).length = 2 := Numeral.length_padded (by decide) (by omega)
  have digits : d.compact.all Char.isDigit = true := by
    rw [compact_of_year h₀ h₁]
    simp only [List.all_append, Bool.and_eq_true, List.all_eq_true]
    exact ⟨⟨fun _ => Numeral.isDigit_of_mem_padded, fun _ => Numeral.isDigit_of_mem_padded⟩,
      fun _ => Numeral.isDigit_of_mem_padded⟩
  have len : d.compact.length = 8 := by
    rw [compact_of_year h₀ h₁]
    simp only [List.length_append, ly, lm, ld]
  have ty : d.compact.take 4 = Numeral.padded 4 d.year.natAbs := by
    rw [compact_of_year h₀ h₁, List.append_assoc, List.take_left' ly]
  have dy : d.compact.drop 4 = Numeral.padded 2 d.month ++ Numeral.padded 2 d.day := by
    rw [compact_of_year h₀ h₁, List.append_assoc, List.drop_left' ly]
  have tm : (d.compact.drop 4).take 2 = Numeral.padded 2 d.month := by
    rw [dy, List.take_left' lm]
  have dm : d.compact.drop 6 = Numeral.padded 2 d.day := by
    have : d.compact.drop 6 = (d.compact.drop 4).drop 2 := by rw [List.drop_drop]
    rw [this, dy, List.drop_left' lm]
  rw [ofCompact?]
  simp only [len, digits, BEq.rfl, Bool.and_self, if_true, ty, tm, dm, Numeral.ofDigitChars_padded]
  rw [show ((d.year.natAbs : Nat) : Int) = d.year by omega]
  exact d.of?_self

/-- What is read as a date has eight digits: four for the year, two for the month, two for the
day. -/
theorem parts_of_ofCompact? {cs : List Char} {d : Date} (h : ofCompact? cs = some d) :
    cs.length = 8 ∧ (∀ c ∈ cs, c.isDigit = true) ∧
      d.year = (Nat.ofDigitChars 10 (cs.take 4) 0 : Nat) ∧
      d.month = Nat.ofDigitChars 10 ((cs.drop 4).take 2) 0 ∧
      d.day = Nat.ofDigitChars 10 (cs.drop 6) 0 := by
  rw [ofCompact?] at h
  split at h
  · next hc =>
    simp only [Bool.and_eq_true, beq_iff_eq, List.all_eq_true] at hc
    simp only [of?] at h
    split at h
    · obtain rfl := Option.some.inj h
      exact ⟨hc.1, hc.2, rfl, rfl, rfl⟩
    · simp at h
  · simp at h

theorem year_bounds_of_ofCompact? {cs : List Char} {d : Date} (h : ofCompact? cs = some d) :
    0 ≤ d.year ∧ d.year ≤ 9999 := by
  obtain ⟨hl, hd, hy, -, -⟩ := parts_of_ofCompact? h
  have hlt := Numeral.ofDigitChars_lt fun c (hc : c ∈ cs.take 4) => hd c (List.mem_of_mem_take hc)
  rw [List.length_take, hl, show (10 ^ min 4 8 : Nat) = 10000 from rfl] at hlt
  omega

/-- A text that is read as a date is the compact form of the date. -/
theorem compact_of_ofCompact? {cs : List Char} {d : Date} (h : ofCompact? cs = some d) :
    d.compact = cs := by
  have hb := year_bounds_of_ofCompact? h
  obtain ⟨hl, hd, hy, hm, hday⟩ := parts_of_ofCompact? h
  have piece : ∀ {ds : List Char} {n : Nat}, ds.length = n → n ≠ 0 → (∀ c ∈ ds, c ∈ cs) →
      Numeral.padded n (Nat.ofDigitChars 10 ds 0) = ds := by
    rintro ds n rfl hn hsub
    exact Numeral.padded_ofDigitChars (fun c hc => hd c (hsub c hc))
      (List.ne_nil_of_length_pos (Nat.pos_of_ne_zero hn))
  rw [compact_of_year hb.1 hb.2, hy, hm, hday, Int.natAbs_natCast,
    piece (by simp [hl]) (by decide) fun c => List.mem_of_mem_take,
    piece (by simp [hl]) (by decide) fun c hc => List.mem_of_mem_drop (List.mem_of_mem_take hc),
    piece (by simp [hl]) (by decide) fun c => List.mem_of_mem_drop]
  rw [List.append_assoc, show cs.drop 6 = (cs.drop 4).drop 2 by rw [List.drop_drop],
    List.take_append_drop, List.take_append_drop]

/-- **The compact dates are the compact forms of the dates of years 0 to 9999.** -/
theorem ofCompact?_eq_some_iff {cs : List Char} {d : Date} :
    ofCompact? cs = some d ↔ (0 ≤ d.year ∧ d.year ≤ 9999) ∧ cs = d.compact := by
  constructor
  · intro h
    exact ⟨year_bounds_of_ofCompact? h, (compact_of_ofCompact? h).symm⟩
  · rintro ⟨hb, rfl⟩
    exact ofCompact?_compact hb.1 hb.2

end WaveFinder.Date
