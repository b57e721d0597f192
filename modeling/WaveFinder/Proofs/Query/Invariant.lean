import WaveFinder.Proofs.Query.Bounds
import WaveFinder.Proofs.Query.Orders
import WaveFinder.Proofs.Query.RoundTrip

/-!
# Proofs/Query/Invariant — what can be relied on in a query that was read

Looking something up in a query never fails: a value that is no sort key is passed over, one that is
no date field counts as none named, and one that is no number as 0.  None of this happens to a query
that was read.  Each of its values was told by a token and has passed the check of its key, which
makes for an invariant (`IsChecked`), and under the invariant the look-ups give back what the
values say (`isChecked_of_parse`).
-/

namespace WaveFinder

open Text

namespace Query

variable {c e : Clock} {o : Int} {k : Key} {s text v w : String} {q : Query}

/-! ## Single values -/

theorem isWritable_ofInt (n : Int) : IsWritable (String.ofList (Numeral.ofInt n)) where
  ne_empty h := Numeral.ofInt_ne_nil n (by simpa using congrArg String.toList h)
  colon h := by
    rw [String.toList_ofList] at h
    rcases Numeral.of_mem_ofInt h with h | h <;> exact absurd h (by decide)
  blank d h := by
    rw [String.toList_ofList] at h
    rcases Numeral.of_mem_ofInt h with h | rfl
    · exact isAsciiBlank_of_isDigit h
    · decide

/-- What a word says can be written again. -/
theorem Says.isWritable {token : List Char} (h : Says token k v)
    (hword : ∀ d ∈ token, isAsciiBlank d = false) : IsWritable v := by
  obtain ⟨rfl, hne, hcolon⟩ := says_iff.1 h
  exact ⟨hne, hcolon, fun d hd => hword d (List.mem_append_right _ (List.mem_cons_of_mem _ hd))⟩

/-- A value is kept as it is, or as a number. -/
theorem Keeps.eq_or_exists (h : Keeps c k v w) :
    w = v ∨ ∃ n, w = String.ofList (Numeral.ofInt n) := by
  rcases k
  case firstDay => exact .inr (h.imp fun n hn => hn.2)
  case lastDay => exact .inr (h.imp fun n hn => hn.2)
  case order => exact .inl h.1
  case dateField => exact .inl h.1
  all_goals exact .inl h

/-- **What a query that was read holds can be written**: it is not empty, and there is neither a
colon nor an ASCII blank in it. -/
theorem isWritable_of_mem_values (hq : parse c s = .ok q) (hv : v ∈ q.values k) :
    IsWritable v := by
  obtain ⟨token, htoken, w, hs, hkeep⟩ := exists_tells_of_mem_pairs hq (mem_pairs.2 hv)
  rcases hkeep.eq_or_exists with rfl | ⟨n, rfl⟩
  · exact hs.isWritable (mem_runs htoken).2
  · exact isWritable_ofInt n

/-! ## What is written -/

/-- What is written for a value is a date or the value itself. -/
theorem eq_or_exists_of_valueText (h : valueText e k v = .ok w) :
    w = v ∨ ∃ d : Date, w = String.ofList d.compact := by
  rw [valueText] at h
  split at h
  · split at h
    · exact .inl (Except.ok.inj h).symm
    · obtain ⟨day, hday, rfl⟩ := Except.map_eq_ok_iff.1 h
      obtain ⟨d, -, rfl⟩ := Except.map_eq_ok_iff.1 hday
      rcases d with _ | d
      · exact .inl rfl
      · exact .inr ⟨d, rfl⟩
  · exact .inl (Except.ok.inj h).symm

/-- What is written for a value that a query holds can be a value again. -/
theorem isWritable_of_valueText (hq : parse c s = .ok q) (hv : v ∈ q.values k)
    (h : valueText e k v = .ok w) : IsWritable w := by
  rcases eq_or_exists_of_valueText h with rfl | ⟨d, rfl⟩
  · exact isWritable_of_mem_values hq hv
  · exact isWritable_compact d

/-- **The tokens that a query is written with are the tokens of its text**, on whichever clock it is
written. -/
theorem tokens_of_render (hq : parse c s = .ok q) (hr : q.render e = .ok text) :
    ∃ ts, q.tokenTexts e = .ok ts ∧ tokens text = ts.map String.toList := by
  obtain ⟨ts, hts, rfl⟩ := Except.map_eq_ok_iff.1 hr
  have hwords : ∀ t ∈ ts.map String.toList, t ≠ [] ∧ ∀ d ∈ t, isAsciiBlank d = false := by
    intro t ht
    obtain ⟨u, hu, rfl⟩ := List.mem_map.1 ht
    obtain ⟨⟨k, v⟩, hp, htext⟩ := exists_left_of_mem (Except.mapM_eq_ok_iff.1 hts) hu
    obtain ⟨w, hw, rfl⟩ := Except.map_eq_ok_iff.1 htext
    exact isWord_tokenText (isWritable_of_valueText hq (mem_pairs.1 hp) hw)
  refine ⟨ts, hts, ?_⟩
  have htokens := tokens_intercalate_of_words hwords
  simpa [Function.comp_def] using htokens

/-! ## The values of a key -/

theorem ne_nil_of_mem_entries {e : Key × List String} (he : e ∈ q.entries) : e.2 ≠ [] := by
  obtain ⟨k, hk, rfl⟩ := List.mem_map.1 he
  have hhas : q.has k = true := (List.mem_filter.1 hk).2
  simpa [has] using hhas

/-- A list whose members are all alike and which holds none of them twice has one member, if it has
any. -/
theorem eq_singleton_of_nodup {vs : List String} (hnodup : vs.Nodup)
    (hagree : ∀ u ∈ vs, ∀ w ∈ vs, u = w) (hv : v ∈ vs) : vs = [v] := by
  rcases vs with _ | ⟨u, us⟩
  · exact absurd hv List.not_mem_nil
  · obtain ⟨hu, -⟩ := List.nodup_cons.1 hnodup
    have hus : us = [] := by
      refine List.eq_nil_iff_forall_not_mem.2 fun w hw => hu ?_
      rwa [hagree u (List.mem_cons_self ..) w (List.mem_cons_of_mem _ hw)]
    rw [hus, hagree v hv u (List.mem_cons_self ..)]

/-- **A query has room for one date field**, however often the text names it. -/
theorem values_dateField_of_parse (hq : parse c s = .ok q) (h : q.has .dateField = true) :
    ∃ f : DateField, q.values .dateField = [f.token] := by
  obtain ⟨v, hv⟩ : ∃ v, v ∈ q.values .dateField :=
    List.exists_mem_of_ne_nil _ (by simpa [has] using h)
  have hagree := dateFieldsAgree_pairs_of_parse hq
  rw [DateFieldsAgree, Option.toList_none, List.nil_append, given_pairs] at hagree
  obtain ⟨token, -, w, -, hkeep⟩ := exists_tells_of_mem_pairs hq (mem_pairs.2 hv)
  obtain ⟨rfl, f, rfl⟩ := hkeep
  exact ⟨f, eq_singleton_of_nodup (nodup_values_of_parse hq _) hagree hv⟩

/-- **Days are kept as their midnights**, those of the years 0 to 9999. -/
theorem exists_date_of_mem_values (h₀ : -dayMillis < o) (h₁ : o < dayMillis)
    (hq : parse (Clock.fixed o) s = .ok q) (hk : k.isDay = true) (hv : v ∈ q.values k) :
    ∃ d : Date, (0 ≤ d.year ∧ d.year ≤ 9999) ∧ v = toString (d.midnight - o) := by
  obtain ⟨token, -, w, -, hkeep⟩ := exists_tells_of_mem_pairs hq (mem_pairs.2 hv)
  obtain ⟨-, hcomes⟩ := (keeps_fixed_iff h₀ h₁).1 hkeep
  obtain ⟨d, hd, hmidnight⟩ := (if_pos hk).mp hcomes
  exact ⟨d, hd.year_bounds, hmidnight⟩

/-- The midnights of days are numbers that a query can hold. -/
theorem exists_midnight_of_mem_values (h₀ : -dayMillis < o) (h₁ : o < dayMillis)
    (hq : parse (Clock.fixed o) s = .ok q) (hk : k.isDay = true) (hv : v ∈ q.values k) :
    ∃ d : Date, v = toString (d.midnight - o) ∧ Numeral.fitsWord (d.midnight - o) = true := by
  obtain ⟨d, hy, hmidnight⟩ := exists_date_of_mem_values h₀ h₁ hq hk hv
  exact ⟨d, hmidnight, fitsWord_of_inCalendar (Clock.inCalendar_midnight_sub h₀ h₁ hy)⟩

/-! ## The invariant -/

/-- What holds of every query that was read on a clock with an offset: each value has passed the
check of its key. -/
structure IsChecked (o : Int) (q : Query) : Prop where
  /-- A key that is there has a value. -/
  ne_nil : ∀ e ∈ q.entries, e.2 ≠ []
  /-- No value comes twice under a key. -/
  nodup : ∀ k, (q.values k).Nodup
  /-- A value is not empty and holds neither a colon nor an ASCII blank. -/
  isWritable : ∀ k, ∀ v ∈ q.values k, IsWritable v
  /-- An order is a sort key. -/
  order : ∀ v ∈ q.values .order, ∃ key : SortKey, key.token = v
  /-- There is one date field if there is any. -/
  dateField : q.has .dateField = true → ∃ f : DateField, q.values .dateField = [f.token]
  /-- A day is the decimal text of its midnight, which is a number of 64 bits. -/
  day : ∀ k, k.isDay = true → ∀ v ∈ q.values k,
    ∃ d : Date, v = toString (d.midnight - o) ∧ Numeral.fitsWord (d.midnight - o) = true

theorem isChecked (h₀ : -dayMillis < o) (h₁ : o < dayMillis)
    (hq : parse (Clock.fixed o) s = .ok q) : q.IsChecked o where
  ne_nil _ := ne_nil_of_mem_entries
  nodup := nodup_values_of_parse hq
  isWritable _ _ := isWritable_of_mem_values hq
  order v hv := by
    rw [values_order_of_parse hq] at hv
    exact (List.mem_map.1 hv).imp fun key hkey => hkey.2
  dateField := values_dateField_of_parse hq
  day _ hk _ := exists_midnight_of_mem_values h₀ h₁ hq hk

/-- Under the invariant the date field can be looked up wherever it is named. -/
theorem IsChecked.isSome_dateField? (h : q.IsChecked o) :
    q.dateField?.isSome = q.has .dateField := by
  rcases hhas : q.has .dateField with _ | _
  · rw [dateField?, first?_eq_none_iff.2 hhas]
    rfl
  · obtain ⟨f, hf⟩ := h.dateField hhas
    rw [dateField?, first?, hf, List.head?_cons, Option.bind_some, DateField.ofToken?_token]
    rfl

/-- **A query that was read satisfies the invariant, and no look-up falls back.**  There is one sort
key for each order, and the standard one is used only if there is no order; a date field is found
if one is named; and the instant of a key of days is the midnight of the first date that the text
names for it. -/
theorem isChecked_of_parse (h₀ : -dayMillis < o) (h₁ : o < dayMillis)
    (hq : parse (Clock.fixed o) s = .ok q) :
    q.IsChecked o
      ∧ (Ranking.ofQuery q).keys.map SortKey.token
          = (if q.has .order then q.values .order else [SortKey.standard.token])
      ∧ q.dateField?.isSome = q.has .dateField
      ∧ ∀ k, k.isDay = true → q.has k = true →
          ∃ d, FirstDate k d (tokens s) ∧ q.instant k = d.midnight - o := by
  have hchecked := isChecked h₀ h₁ hq
  refine ⟨hchecked, ?_, hchecked.isSome_dateField?, fun k hk hhas => ?_⟩
  · have hkeys : q.sortKeys.map SortKey.token = q.values .order := by
      rw [sortKeys_of_parse hq, values_order_of_parse hq]
    rw [Ranking.ofQuery, Ranking.keys_ofKeys, has, ← hkeys]
    rcases q.sortKeys with _ | ⟨key, keys⟩ <;> rfl
  · rcases instant_cases h₀ h₁ hk hq with ⟨-, hno, -⟩ | ⟨d, hd, -, hinstant⟩
    · exact absurd hhas (by rw [hno]; decide)
    · exact ⟨d, hd, hinstant⟩

/-- Half past five behind UTC, with two opposed orders of which one is named twice, and with two
last days. -/
theorem isChecked_of_parse_opposedOrders :
    ∃ text q, text = "orderby:datedesc usedate:createdate orderby:dateasc orderby:datedesc"
          ++ " to:99991231 to:20240229"
      ∧ parse (Clock.fixed (-19800000)) text = .ok q
      ∧ q.IsChecked (-19800000)
      ∧ (Ranking.ofQuery q).keys.map SortKey.token = ["datedesc", "dateasc"]
      ∧ q.dateField?.isSome = true
      ∧ ∃ d, FirstDate .lastDay d (tokens text) ∧ q.instant .lastDay = d.midnight + 19800000 := by
  obtain ⟨text, q, htext, hq, horder, horders, hfield, hday⟩ : ∃ text q,
      text = "orderby:datedesc usedate:createdate orderby:dateasc orderby:datedesc"
          ++ " to:99991231 to:20240229"
      ∧ parse (Clock.fixed (-19800000)) text = .ok q
      ∧ q.has .order = true ∧ q.values .order = ["datedesc", "dateasc"]
      ∧ q.has .dateField = true ∧ q.has .lastDay = true := ⟨_, _, rfl, rfl, rfl, rfl, rfl, rfl⟩
  obtain ⟨hchecked, hkeys, hfound, hinstant⟩ := isChecked_of_parse (by decide) (by decide) hq
  rw [if_pos horder, horders] at hkeys
  obtain ⟨d, hd, hlast⟩ := hinstant .lastDay rfl hday
  exact ⟨text, q, htext, hq, hchecked, hkeys, hfound.trans hfield, d, hd,
    by rw [hlast, Int.sub_neg]⟩

end Query

end WaveFinder
