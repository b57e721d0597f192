import WaveFinder.Proofs.Text.Blank
import WaveFinder.Proofs.Text.LetterCase
import WaveFinder.Zone.Basic

/-!
# Proofs/Zone/Names — the names of zones, and the one that is written

    text ──trim──▸ name ──IsNamedBy──▸ zone ──Zone.text──▸ name

A zone has many names: `utc` and `z` in letters of either case, `local`, and for an offset a sign
with four digits after it, among which colons may stand anywhere.  A text is read as the zone that
it names once the blanks around it are gone (`Zone.parse_eq_ok_iff_isNamedBy`), and no text names
two.  The name that is written is one of them, so it is read as the zone again (`Zone.parse_text`),
and two zones are one if they are written alike.
-/

namespace WaveFinder

open Text

/-! ## Names -/

namespace Offset

/-- A text says hours and minutes: without its colons it is two digits for hours below 24 and two
for minutes below 60. -/
structure SaysTime (cs : List Char) (h m : Nat) : Prop where
  hour_lt : h < 24
  minute_lt : m < 60
  digits : cs.filter (· != ':') = Numeral.padded 2 h ++ Numeral.padded 2 m

/-- A text is a name of an offset: a sign, and the hours and minutes ahead of UTC or behind. -/
inductive IsNamedBy (o : Offset) : List Char → Prop
  | ahead {cs : List Char} {h m : Nat} : SaysTime cs h m → o.minutes = 60 * h + m →
      IsNamedBy o ('+' :: cs)
  | behind {cs : List Char} {h m : Nat} : SaysTime cs h m → o.minutes = -(60 * h + m) →
      IsNamedBy o ('-' :: cs)

end Offset

namespace Zone

/-- A text is a name of a zone; the case of letters does not matter. -/
inductive IsNamedBy : Zone → List Char → Prop
  | utc {cs : List Char} : cs.map Char.toLower = ['u', 't', 'c'] ∨ cs.map Char.toLower = ['z'] →
      IsNamedBy .utc cs
  | host {cs : List Char} : cs.map Char.toLower = ['l', 'o', 'c', 'a', 'l'] → IsNamedBy .host cs
  | offset {o : Offset} {cs : List Char} : o.IsNamedBy cs → IsNamedBy (.offset o) cs

/-- A text has the form of a name: it is one of three words, or a sign with hours and minutes. -/
inductive IsName : List Char → Prop
  | word {cs : List Char} : cs.map Char.toLower = ['u', 't', 'c'] ∨ cs.map Char.toLower = ['z']
      ∨ cs.map Char.toLower = ['l', 'o', 'c', 'a', 'l'] → IsName cs
  | offset {sign : Char} {cs : List Char} {h m : Nat} : sign = '+' ∨ sign = '-' →
      Offset.SaysTime cs h m → IsName (sign :: cs)

/-- A text has the form in which names of zones are written. -/
def IsWritten (s : String) : Prop :=
  s = "utc" ∨ s = "local" ∨ ∃ sign a b c d : Char, s.toList = [sign, a, b, ':', c, d]
    ∧ (sign = '+' ∨ sign = '-') ∧ ∀ e ∈ [a, b, c, d], e.isDigit = true

end Zone

/-! ## Offsets -/

namespace Offset

variable {o : Offset} {cs : List Char} {n h m : Nat}

theorem of?_eq_some_iff {i : Int} : of? i = some o ↔ o.minutes = i := by
  rw [of?]
  constructor
  · intro h
    split at h
    · rw [← Option.some.inj h]
    · cases h
  · rintro rfl
    rw [dif_pos o.isBounded]

theorem SaysTime.exists_minutes_eq (htime : SaysTime cs h m) :
    (∃ o : Offset, o.minutes = 60 * h + m) ∧ ∃ o : Offset, o.minutes = -(60 * h + m) := by
  have hh := htime.hour_lt
  have hm := htime.minute_lt
  exact ⟨⟨⟨60 * h + m, by omega⟩, rfl⟩, ⟨⟨-(60 * h + m), by omega⟩, rfl⟩⟩

/-- Two digits are the numeral of their value. -/
theorem two_digits (hlength : cs.length = 2) (hdigits : ∀ c ∈ cs, c.isDigit = true) :
    Nat.ofDigitChars 10 cs 0 < 100 ∧ Numeral.padded 2 (Nat.ofDigitChars 10 cs 0) = cs := by
  have hlt := Numeral.ofDigitChars_lt hdigits
  have hpadded := Numeral.padded_ofDigitChars hdigits (List.ne_nil_of_length_pos (by omega))
  rw [hlength] at hlt hpadded
  exact ⟨hlt, hpadded⟩

/-- **Four digits are read as two numerals of two digits each**, the second of them below 60. -/
theorem hourMinutes?_eq_some_iff :
    hourMinutes? cs = some n
      ↔ ∃ h m, h < 100 ∧ m < 60 ∧ cs = Numeral.padded 2 h ++ Numeral.padded 2 m
          ∧ n = 60 * h + m := by
  rw [hourMinutes?]
  constructor
  · intro hread
    split at hread
    · next hform =>
      obtain ⟨hlength, hdigits⟩ := (Bool.and_eq_true _ _).mp hform
      rw [beq_iff_eq] at hlength
      rw [List.all_eq_true] at hdigits
      have htake : (cs.take 2).length = 2 := by
        rw [List.length_take]
        omega
      have hdrop : (cs.drop 2).length = 2 := by
        rw [List.length_drop]
        omega
      obtain ⟨hlt, hhour⟩ := two_digits htake fun c hc => hdigits c (List.mem_of_mem_take hc)
      obtain ⟨-, hminute⟩ := two_digits hdrop fun c hc => hdigits c (List.mem_of_mem_drop hc)
      dsimp only at hread
      split at hread
      · next hm =>
        refine ⟨_, _, hlt, hm, ?_, (Option.some.inj hread).symm⟩
        rw [hhour, hminute, List.take_append_drop]
      · cases hread
    · cases hread
  · rintro ⟨h, m, hh, hm, rfl, rfl⟩
    have hhour : (Numeral.padded 2 h).length = 2 := Numeral.length_padded (by decide) hh
    have hminute : (Numeral.padded 2 m).length = 2 :=
      Numeral.length_padded (by decide) (Nat.lt_trans hm (by decide))
    have hdigits : (Numeral.padded 2 h ++ Numeral.padded 2 m).all Char.isDigit = true := by
      rw [List.all_append, Bool.and_eq_true, List.all_eq_true, List.all_eq_true]
      exact ⟨fun _ => Numeral.isDigit_of_mem_padded, fun _ => Numeral.isDigit_of_mem_padded⟩
    rw [List.length_append, hhour, hminute, hdigits]
    simp only [List.take_left' hhour, List.drop_left' hhour, Numeral.ofDigitChars_padded]
    rw [if_pos (by decide), if_pos hm]

/-- Hours and minutes that make an offset are less than a day. -/
theorem exists_saysTime_iff {i : Int} (hi : o.minutes = i ∨ o.minutes = -i) :
    (∃ n : Nat, hourMinutes? (cs.filter (· != ':')) = some n ∧ i = n)
      ↔ ∃ h m : Nat, SaysTime cs h m ∧ i = 60 * h + m := by
  have hbounds := o.isBounded
  simp only [hourMinutes?_eq_some_iff]
  constructor
  · rintro ⟨n, ⟨h, m, -, hm, hdigits, rfl⟩, rfl⟩
    exact ⟨h, m, ⟨by omega, hm, hdigits⟩, by omega⟩
  · rintro ⟨h, m, htime, rfl⟩
    have hlt := htime.hour_lt
    exact ⟨_, ⟨h, m, by omega, htime.minute_lt, htime.digits, rfl⟩, by omega⟩

/-- **A text is read as the offset that it names.** -/
theorem ofText?_eq_some_iff : ofText? cs = some o ↔ o.IsNamedBy cs := by
  constructor
  · intro hread
    rw [ofText?.eq_def] at hread
    split at hread
    · next rest =>
      obtain ⟨n, hn, hof⟩ := Option.bind_eq_some_iff.1 hread
      rw [of?_eq_some_iff] at hof
      obtain ⟨h, m, htime, hi⟩ := (exists_saysTime_iff (i := n) (.inl hof)).1 ⟨n, hn, rfl⟩
      exact .ahead htime (hof.trans hi)
    · next rest =>
      obtain ⟨n, hn, hof⟩ := Option.bind_eq_some_iff.1 hread
      rw [of?_eq_some_iff] at hof
      obtain ⟨h, m, htime, hi⟩ := (exists_saysTime_iff (i := n) (.inr hof)).1 ⟨n, hn, rfl⟩
      exact .behind htime (by rw [hof, hi])
    · cases hread
  · rintro (⟨htime, hminutes⟩ | ⟨htime, hminutes⟩)
    · obtain ⟨n, hn, hi⟩ := (exists_saysTime_iff (.inl hminutes)).2 ⟨_, _, htime, rfl⟩
      rw [ofText?, hn, Option.bind_some, of?_eq_some_iff, hminutes, hi]
    · obtain ⟨n, hn, hi⟩ := (exists_saysTime_iff (.inr hminutes)).2 ⟨_, _, htime, rfl⟩
      rw [ofText?, hn, Option.bind_some, of?_eq_some_iff, hminutes, hi]

theorem IsNamedBy.unique {o' : Offset} (h : o.IsNamedBy cs) (h' : o'.IsNamedBy cs) : o = o' := by
  rw [← ofText?_eq_some_iff] at h h'
  rw [h] at h'
  exact Option.some.inj h'

/-- A name of an offset begins with its sign, and there is no blank in it. -/
theorem IsNamedBy.exists_cons (h : o.IsNamedBy cs) :
    (∃ c rest, cs = c :: rest ∧ (c = '+' ∨ c = '-')) ∧ ∀ c ∈ cs, isBlank c = false := by
  have hrest : ∀ {cs h m}, SaysTime cs h m → ∀ c ∈ cs, isBlank c = false := by
    intro cs h m htime c hc
    by_cases hcolon : c = ':'
    · rw [hcolon]
      decide
    · have hkept : c ∈ Numeral.padded 2 h ++ Numeral.padded 2 m := by
        rw [← htime.digits]
        exact List.mem_filter.2 ⟨hc, bne_iff_ne.2 hcolon⟩
      have hdigit : c.isDigit = true := by
        obtain hc | hc := List.mem_append.1 hkept <;> exact Numeral.isDigit_of_mem_padded hc
      refine isBlank_of_isAlphanum ?_
      rw [Char.isAlphanum, hdigit, Bool.or_true]
  rcases h with ⟨htime, -⟩ | ⟨htime, -⟩
  · exact ⟨⟨'+', _, rfl, .inl rfl⟩, List.forall_mem_cons.2 ⟨by decide, hrest htime⟩⟩
  · exact ⟨⟨'-', _, rfl, .inr rfl⟩, List.forall_mem_cons.2 ⟨by decide, hrest htime⟩⟩

/-! ### The name that is written -/

theorem filter_padded (width n : Nat) :
    (Numeral.padded width n).filter (· != ':') = Numeral.padded width n := by
  refine List.filter_eq_self.2 fun c hc => bne_iff_ne.2 ?_
  rintro rfl
  exact absurd (Numeral.isDigit_of_mem_padded hc) (by decide)

theorem saysTime_padded (hh : h < 24) (hm : m < 60) :
    SaysTime (Numeral.padded 2 h ++ ':' :: Numeral.padded 2 m) h m := by
  refine ⟨hh, hm, ?_⟩
  rw [List.filter_append, List.filter_cons_of_neg (by decide), filter_padded, filter_padded]

/-- **What is written for an offset names it.** -/
theorem isNamedBy_text (o : Offset) : o.IsNamedBy o.text := by
  have hbounds := o.isBounded
  have htime := saysTime_padded (h := o.minutes.natAbs / 60) (m := o.minutes.natAbs % 60)
    (by omega) (by omega)
  rw [text, List.cons_append]
  split
  · exact .behind htime (by omega)
  · exact .ahead htime (by omega)

end Offset

/-! ## Zones -/

namespace Zone

variable {z w : Zone} {cs : List Char} {s : String}

/-- A name of an offset is no name made of letters. -/
theorem map_toLower_ne_of_offset {o : Offset} {d : Char} {ds : List Char} (h : o.IsNamedBy cs)
    (hd : d ≠ '+' ∧ d ≠ '-') : cs.map Char.toLower ≠ d :: ds := by
  obtain ⟨⟨c, rest, rfl, hc⟩, -⟩ := h.exists_cons
  intro heq
  have hhead : c.toLower = d := (List.cons.inj heq).1
  obtain rfl | rfl := hc
  · exact hd.1 hhead.symm
  · exact hd.2 hhead.symm

/-- **No text names two zones.** -/
theorem IsNamedBy.unique (h : z.IsNamedBy cs) (h' : w.IsNamedBy cs) : z = w := by
  rcases h with hutc | hhost | hoffset <;> rcases h' with hutc' | hhost' | hoffset'
  · rfl
  · rw [hhost'] at hutc
    exact absurd hutc (by decide)
  · obtain hutc | hutc := hutc <;>
      exact absurd hutc (map_toLower_ne_of_offset hoffset' (by decide))
  · rw [hhost] at hutc'
    exact absurd hutc' (by decide)
  · rfl
  · exact absurd hhost (map_toLower_ne_of_offset hoffset' (by decide))
  · obtain hutc | hutc := hutc' <;>
      exact absurd hutc (map_toLower_ne_of_offset hoffset (by decide))
  · exact absurd hhost' (map_toLower_ne_of_offset hoffset (by decide))
  · rw [hoffset.unique hoffset']

/-- **What has the form of a name names a zone**, and nothing else does: any hours and minutes are
less than a day. -/
theorem exists_isNamedBy_iff : (∃ z : Zone, z.IsNamedBy cs) ↔ IsName cs := by
  constructor
  · rintro ⟨z, (hutc | hutc) | hhost | ⟨htime, -⟩ | ⟨htime, -⟩⟩
    · exact .word (.inl hutc)
    · exact .word (.inr (.inl hutc))
    · exact .word (.inr (.inr hhost))
    · exact .offset (.inl rfl) htime
    · exact .offset (.inr rfl) htime
  · rintro ((hutc | hutc | hhost) | ⟨rfl | rfl, htime⟩)
    · exact ⟨.utc, .utc (.inl hutc)⟩
    · exact ⟨.utc, .utc (.inr hutc)⟩
    · exact ⟨.host, .host hhost⟩
    · obtain ⟨o, ho⟩ := htime.exists_minutes_eq.1
      exact ⟨.offset o, .offset (.ahead htime ho)⟩
    · obtain ⟨o, ho⟩ := htime.exists_minutes_eq.2
      exact ⟨.offset o, .offset (.behind htime ho)⟩

/-- A text is read as the zone that it names once the blanks around it are gone. -/
theorem ofText?_eq_some_iff : ofText? cs = some z ↔ z.IsNamedBy (trim isBlank cs) := by
  have hname : ∀ {ds : List Char} {t : String}, String.ofList ds = t ↔ ds = t.toList := by
    intro ds t
    rw [← String.toList_inj, String.toList_ofList]
  simp only [ofText?, hname]
  constructor
  · intro hread
    split at hread
    · next hutc =>
      obtain rfl := Option.some.inj hread
      exact .utc hutc
    · split at hread
      · next hhost =>
        obtain rfl := Option.some.inj hread
        exact .host hhost
      · obtain ⟨o, ho, rfl⟩ := Option.map_eq_some_iff.1 hread
        exact .offset (Offset.ofText?_eq_some_iff.1 ho)
  · rintro (hutc | hhost | hoffset)
    · exact if_pos hutc
    · rw [if_neg]
      · exact if_pos hhost
      · rw [hhost]
        decide
    · rw [if_neg, if_neg, Offset.ofText?_eq_some_iff.2 hoffset, Option.map_some]
      · exact map_toLower_ne_of_offset hoffset (by decide)
      · rintro (hutc | hutc) <;>
          exact absurd hutc (map_toLower_ne_of_offset hoffset (by decide))

theorem parse_eq_ok_iff : parse s = .ok z ↔ ofText? s.toList = some z := by
  rw [parse]
  cases ofText? s.toList with
  | none => simp
  | some w => simp

/-- There is something in a name, and no blank. -/
theorem IsNamedBy.ne_nil (h : z.IsNamedBy cs) : cs ≠ [] ∧ ∀ c ∈ cs, isBlank c = false := by
  have hletters : ∀ {ds : List Char}, cs.map Char.toLower = ds → ds ≠ [] →
      ds.all Char.isAlpha = true → cs ≠ [] ∧ ∀ c ∈ cs, isBlank c = false := by
    rintro ds rfl hne hds
    refine ⟨fun hnil => hne (by rw [hnil, List.map_nil]), fun c hc => ?_⟩
    have halpha := List.all_eq_true.1 hds _ (List.mem_map_of_mem hc)
    rw [isAlpha_toLower] at halpha
    refine isBlank_of_isAlphanum ?_
    rw [Char.isAlphanum, halpha, Bool.true_or]
  rcases h with (hutc | hutc) | hhost | hoffset
  · exact hletters hutc (List.cons_ne_nil _ _) rfl
  · exact hletters hutc (List.cons_ne_nil _ _) rfl
  · exact hletters hhost (List.cons_ne_nil _ _) rfl
  · obtain ⟨⟨c, rest, rfl, -⟩, hblank⟩ := hoffset.exists_cons
    exact ⟨List.cons_ne_nil _ _, hblank⟩

/-- **A text is read as a zone if it is a name of the zone with blanks around it.** -/
theorem parse_eq_ok_iff_isNamedBy :
    parse s = .ok z
      ↔ ∃ before name after, s.toList = before ++ name ++ after
          ∧ (∀ c ∈ before ++ after, isBlank c = true) ∧ z.IsNamedBy name := by
  rw [parse_eq_ok_iff, ofText?_eq_some_iff]
  constructor
  · intro h
    obtain ⟨before, after, hsplit, hblank⟩ := exists_eq_append_trim isBlank s.toList
    exact ⟨before, _, after, hsplit, hblank, h⟩
  · rintro ⟨before, name, after, hsplit, hblank, h⟩
    rw [hsplit, trim_append hblank h.ne_nil.1 h.ne_nil.2]
    exact h

theorem parse_eq_error_iff {e : ZoneError} :
    parse s = .error e ↔ (∀ z, parse s ≠ .ok z) ∧ e.text = s := by
  rw [parse]
  rcases e with ⟨text⟩
  cases ofText? s.toList with
  | none => simp [eq_comm]
  | some w => simp

/-! ### The name that is written -/

theorem isNamedBy_text (z : Zone) : z.IsNamedBy z.text.toList := by
  rcases z with _ | _ | o
  · exact .utc (.inl rfl)
  · exact .host rfl
  · rw [text, String.toList_ofList]
    exact .offset o.isNamedBy_text

/-- **What is written for a zone is read as the zone.** -/
theorem parse_text (z : Zone) : parse z.text = .ok z :=
  parse_eq_ok_iff_isNamedBy.2 ⟨[], _, [], by rw [List.nil_append, List.append_nil],
    fun _ hc => absurd hc List.not_mem_nil, z.isNamedBy_text⟩

/-- Zones that are written alike are one. -/
theorem text_injective : Function.Injective text := by
  intro z w h
  have hread := parse_text z
  rw [h, parse_text w] at hread
  exact (Except.ok.inj hread).symm

theorem isWritten_text (z : Zone) : IsWritten z.text := by
  rcases z with _ | _ | o
  · exact .inl rfl
  · exact .inr (.inl rfl)
  · have hbounds := o.isBounded
    have htwo : ∀ n < 60, ∃ a b, Numeral.padded 2 n = [a, b] := fun n hn =>
      List.length_eq_two.1 (Numeral.length_padded (by decide) (Nat.lt_trans hn (by decide)))
    obtain ⟨a, b, hhour⟩ := htwo (o.minutes.natAbs / 60) (by omega)
    obtain ⟨c, d, hminute⟩ := htwo (o.minutes.natAbs % 60) (by omega)
    refine .inr (.inr ⟨if o.minutes < 0 then '-' else '+', a, b, c, d, ?_, ?_, ?_⟩)
    · rw [text, String.toList_ofList, Offset.text, hhour, hminute]
      rfl
    · split
      · exact .inr rfl
      · exact .inl rfl
    · intro e he
      have hmem : e ∈ [a, b] ++ [c, d] := he
      rw [← hhour, ← hminute] at hmem
      obtain he | he := List.mem_append.1 hmem <;> exact Numeral.isDigit_of_mem_padded he

theorem exists_parse_iff_isName :
    (∃ z, parse s = .ok z)
      ↔ ∃ before name after, s.toList = before ++ name ++ after
          ∧ (∀ c ∈ before ++ after, isBlank c = true) ∧ IsName name := by
  simp only [parse_eq_ok_iff_isNamedBy, ← exists_isNamedBy_iff]
  constructor
  · rintro ⟨z, before, name, after, hsplit, hblank, hname⟩
    exact ⟨before, name, after, hsplit, hblank, z, hname⟩
  · rintro ⟨before, name, after, hsplit, hblank, z, hname⟩
    exact ⟨z, before, name, after, hsplit, hblank, hname⟩

/-- **Names of zones are read exactly, and written as one of them.**  A text is read if and only if
it has the form of a name with blanks around it, and is read as the zone that this names; of every
other text the error has the text as it was given.  What is written for a zone that was read has one
of the forms `utc`, `local` and sign, hours, colon and minutes; it is read as the zone again, and
two texts that are read name the same zone if and only if the same is written for both. -/
theorem parse_iff_isNamedBy (s : String) :
    ((∃ z, parse s = .ok z)
        ↔ ∃ before name after, s.toList = before ++ name ++ after
          ∧ (∀ c ∈ before ++ after, isBlank c = true) ∧ IsName name)
      ∧ (∀ z, parse s = .ok z
        ↔ ∃ before name after, s.toList = before ++ name ++ after
          ∧ (∀ c ∈ before ++ after, isBlank c = true) ∧ z.IsNamedBy name)
      ∧ ((∃ z, parse s = .ok z) ∨ parse s = .error ⟨s⟩)
      ∧ (∀ z, parse s = .ok z → parse z.text = .ok z ∧ IsWritten z.text)
      ∧ ∀ t z w, parse s = .ok z → parse t = .ok w → (z = w ↔ z.text = w.text) := by
  refine ⟨exists_parse_iff_isName, fun z => parse_eq_ok_iff_isNamedBy, ?_,
    fun z _ => ⟨parse_text z, isWritten_text z⟩, fun _ z w _ _ => text_injective.eq_iff.symm⟩
  rcases h : parse s with e | z
  · obtain ⟨-, rfl⟩ := parse_eq_error_iff.1 h
    exact .inr rfl
  · exact .inl ⟨z, rfl⟩

/-- Colons may stand anywhere after the sign, and blanks of any kind around the name; hour 24 is
none, and the error has the blank. -/
theorem parse_iff_isNamedBy_colons :
    ∃ z w, parse "\u00A0-0:8:00\n" = .ok z ∧ parse "-0800" = .ok w ∧ z = w ∧ z.text = "-08:00"
      ∧ parse "-08:00" = .ok z ∧ Offset.SaysTime "0:8:00".toList 8 0
      ∧ parse " +24:00" = .error ⟨" +24:00"⟩ := by
  obtain ⟨z, hz, htext⟩ : ∃ z, parse "\u00A0-0:8:00\n" = .ok z ∧ z.text = "-08:00" :=
    ⟨.offset ⟨-480, by decide⟩, by decide +kernel, by decide +kernel⟩
  obtain ⟨w, hw, htext'⟩ : ∃ w, parse "-0800" = .ok w ∧ w.text = "-08:00" :=
    ⟨.offset ⟨-480, by decide⟩, by decide +kernel, by decide +kernel⟩
  obtain ⟨-, -, -, hwritten, hsame⟩ := parse_iff_isNamedBy "\u00A0-0:8:00\n"
  obtain ⟨-, -, hfails, -, -⟩ := parse_iff_isNamedBy " +24:00"
  have hagain := (hwritten z hz).1
  rw [htext] at hagain
  refine ⟨z, w, hz, hw, (hsame _ z w hz hw).2 (htext.trans htext'.symm), htext, hagain,
    ⟨by decide, by decide, by decide +kernel⟩, hfails.resolve_left ?_⟩
  rintro ⟨z, hz⟩
  have hnone : Zone.ofText? " +24:00".toList = none := by decide +kernel
  rw [parse_eq_ok_iff, hnone] at hz
  cases hz

end Zone

end WaveFinder
