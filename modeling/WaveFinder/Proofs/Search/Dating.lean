import WaveFinder.Proofs.Query.Bounds
import WaveFinder.Proofs.Query.RoundTrip
import WaveFinder.Proofs.Search.Latest
import WaveFinder.Proofs.Zone.DayRounding

/-!
# Proofs/Search/Dating — which days a search lets through

    text ──parse──▸ query ──Window.ofQuery──▸ window ──contains──▸ times

On a clock with a fixed offset of whole seconds the sides of a window are the midnight of the first
date and the last millisecond of the last one (`Frames`).  A time from the start of 1970 on lies in
the window if its day lies between the dates (`Frames.contains_iff`): the open side is written as 0,
but of the instants that a side can have only the very first of 1970 is 0, and no such time comes
before it.

An entry without conversation has no time, though, and there the two readings of 0 come apart.  A
search from 1 January 1970 on in UTC is taken for one without a date
(`isUnbounded_iff_of_says_day`).
-/

namespace WaveFinder

open Query

/-! ## The window of a text -/

namespace Window

variable {clock : Clock} {o t e : Int} {text : String} {q : Query} {ts : List (List Char)}
  {w : Window}

/-- The window of a query that names no last day is open at that side. -/
theorem ofQuery_of_has_eq_false (h : q.has .lastDay = false) :
    ofQuery clock q = .ok ⟨q.dateField?.getD .modified, q.instant .firstDay, 0⟩ := by
  rw [ofQuery, h]
  rfl

/-- The window of a query that names a last day closes with the bound of that day. -/
theorem ofQuery_of_endOfDay (h : q.has .lastDay = true)
    (he : clock.endOfDay (q.instant .lastDay) = .ok e) :
    ofQuery clock q = .ok ⟨q.dateField?.getD .modified, q.instant .firstDay, e⟩ := by
  rw [ofQuery, if_pos h, he]
  rfl

/-- A window has the dates of tokens for its sides: it opens with the midnight of the first date
and closes with the last millisecond of the last one, and a side without a date is 0. -/
structure Frames (o : Int) (ts : List (List Char)) (w : Window) : Prop where
  first : (Omits .firstDay ts ∧ w.first = 0)
    ∨ ∃ d, FirstDate .firstDay d ts ∧ w.first = d.midnight - o
  last : (Omits .lastDay ts ∧ w.last = 0)
    ∨ ∃ d, FirstDate .lastDay d ts ∧ w.last = d.lastMilli - o

/-- **On a fixed clock every query has a window**, on the time that its text picks and framed by the
dates of its text. -/
theorem exists_frames (h₀ : -dayMillis < o) (h₁ : o < dayMillis)
    (hq : parse (Clock.fixed o) text = .ok q) :
    ∃ w, ofQuery (Clock.fixed o) q = .ok w ∧ w.field = fieldNamed (tokens text)
      ∧ Frames o (tokens text) w := by
  have hfirst : (Omits .firstDay (tokens text) ∧ q.instant .firstDay = 0)
      ∨ ∃ d, FirstDate .firstDay d (tokens text) ∧ q.instant .firstDay = d.midnight - o := by
    rcases instant_cases h₀ h₁ (k := .firstDay) rfl hq with ⟨homits, -, hw⟩ | ⟨d, hd, -, hw⟩
    · exact .inl ⟨homits, hw⟩
    · exact .inr ⟨d, hd, hw⟩
  have hfield := getD_dateField? h₀ h₁ hq
  rcases instant_cases h₀ h₁ (k := .lastDay) rfl hq with ⟨homits, hno, -⟩ | ⟨d, hd, hhas, hlast⟩
  · exact ⟨_, ofQuery_of_has_eq_false hno, hfield, hfirst, .inl ⟨homits, rfl⟩⟩
  · have hend : (Clock.fixed o).endOfDay (q.instant .lastDay) = .ok (d.lastMilli - o) := by
      rw [hlast, Clock.endOfDay_fixed h₀ h₁ hd.year_bounds]
    exact ⟨_, ofQuery_of_endOfDay hhas hend, hfield, hfirst, .inr ⟨d, hd, rfl⟩⟩

/-- A last millisecond is at no whole number of seconds, so it is never mistaken for an open
side. -/
theorem lastMilli_sub_ne_zero (hsec : 1000 ∣ o) (d : Date) : d.lastMilli - o ≠ 0 := by
  rw [Date.lastMilli, Date.midnight, dayMillis]
  omega

/-- **A time lies in a window if its day lies between the dates of the window.** -/
theorem Frames.contains_iff (h : Frames o ts w) (hsec : 1000 ∣ o) (ht : 0 ≤ t) :
    w.contains t = true
      ↔ (Omits .firstDay ts ∨ ∃ d, FirstDate .firstDay d ts ∧ d.dayNumber ≤ (t + o) / dayMillis)
        ∧ (Omits .lastDay ts
          ∨ ∃ d, FirstDate .lastDay d ts ∧ (t + o) / dayMillis ≤ d.dayNumber) := by
  rw [contains, Bool.and_eq_true]
  refine and_congr ?_ ?_
  · rcases h.first with ⟨homits, hw⟩ | ⟨d, hd, hw⟩
    · rw [hw]
      exact iff_of_true rfl (.inl homits)
    · -- A side that comes to 0 is open, which for these times is no different.
      have hside : (w.first == 0 || decide (w.first ≤ t)) = true ↔ w.first ≤ t := by
        rw [Bool.or_eq_true, beq_iff_eq, decide_eq_true_eq]
        exact or_iff_right_of_imp fun h0 => h0 ▸ ht
      have hday : w.first ≤ t ↔ d.dayNumber ≤ (t + o) / dayMillis := by
        rw [hw, Date.midnight, dayMillis]
        omega
      rw [hside, hday, hd.omits_or_exists_iff]
  · rcases h.last with ⟨homits, hw⟩ | ⟨d, hd, hw⟩
    · rw [hw]
      exact iff_of_true rfl (.inl homits)
    · have hside : (w.last == 0 || decide (t ≤ w.last)) = true ↔ t ≤ w.last := by
        rw [Bool.or_eq_true, beq_iff_eq, decide_eq_true_eq]
        exact or_iff_right fun h0 => lastMilli_sub_ne_zero hsec d (hw ▸ h0)
      have hday : t ≤ w.last ↔ (t + o) / dayMillis ≤ d.dayNumber := by
        rw [hw, Date.lastMilli, Date.midnight, dayMillis]
        omega
      rw [hside, hday, hd.omits_or_exists_iff]

theorem contains_of_isUnbounded (h : w.isUnbounded = true) (t : Int) : w.contains t = true := by
  rw [isUnbounded, Bool.and_eq_true] at h
  rw [contains, h.1, h.2, Bool.true_or, Bool.true_or, Bool.and_self]

/-- **When a window is open on both sides**: nothing closes it, and what opens it, if anything, is
the first midnight of 1970, in UTC. -/
theorem Frames.isUnbounded_iff (h : Frames o ts w) (h₀ : -dayMillis < o) (h₁ : o < dayMillis)
    (hsec : 1000 ∣ o) :
    w.isUnbounded = true
      ↔ Omits .lastDay ts
        ∧ (Omits .firstDay ts ∨ ∃ d, FirstDate .firstDay d ts ∧ o = 0 ∧ d.dayNumber = 0) := by
  rw [isUnbounded, Bool.and_eq_true, beq_iff_eq, beq_iff_eq, and_comm]
  refine and_congr ?_ ?_
  · rcases h.last with ⟨homits, hw⟩ | ⟨d, hd, hw⟩
    · exact iff_of_true hw homits
    · exact iff_of_false (hw ▸ lastMilli_sub_ne_zero hsec d) hd.not_omits
  · rcases h.first with ⟨homits, hw⟩ | ⟨d, hd, hw⟩
    · exact iff_of_true hw (.inl homits)
    · rw [dayMillis] at h₀ h₁
      rw [hd.omits_or_exists_iff, hw, Date.midnight, dayMillis]
      omega

end Window

/-! ## The criteria of a query -/

namespace Criteria

variable {clock : Clock} {localDomain : String} {q : Query} {c : Criteria}

/-- **What criteria are made of**: the window of the query and its two lists of people. -/
theorem ofQuery_eq_ok_iff :
    ofQuery clock localDomain q = .ok c
      ↔ Window.ofQuery clock q = .ok c.window ∧ q.addresses localDomain .creator = .ok c.creators
        ∧ q.addresses localDomain .person = .ok c.people := by
  simp only [ofQuery, Except.bind_eq_ok_iff, Except.mapError_eq_ok_iff]
  constructor
  · rintro ⟨w, hw, as, has, bs, hbs, h⟩
    obtain rfl : (⟨w, as, bs⟩ : Criteria) = c := Except.ok.inj h
    exact ⟨hw, has, hbs⟩
  · rintro ⟨hw, has, hbs⟩
    exact ⟨_, hw, _, has, _, hbs, rfl⟩

end Criteria

theorem Query.addresses_of_values_eq_nil {q : Query} {k : Key} (h : q.values k = [])
    (localDomain : String) : q.addresses localDomain k = .ok [] := by
  rw [addresses, h]
  rfl

theorem Query.exists_says_of_mem_values {c : Clock} {s : String} {q : Query} {k : Key} {v : String}
    (hq : parse c s = .ok q) (hv : v ∈ q.values k) : ∃ t ∈ tokens s, ∃ w, Says t k w := by
  obtain ⟨t, ht, w, hs, -⟩ := exists_tells_of_mem_pairs hq (mem_pairs.2 hv)
  exact ⟨t, ht, w, hs⟩

theorem Query.values_eq_nil_of_omits {c : Clock} {s : String} {q : Query} {k : Key}
    (hq : parse c s = .ok q) (h : Omits k (tokens s)) : q.values k = [] := by
  refine List.eq_nil_iff_forall_not_mem.2 fun v hv => ?_
  obtain ⟨t, ht, w, hs⟩ := exists_says_of_mem_values hq hv
  exact h t ht w hs

namespace Criteria

variable {ι : Type} {o : Int} {text : String} {q : Query} {c : Criteria} {s : Summary ι}

theorem meetsWindow_of_nonneg (h : 0 ≤ timeOf c.window.field s) :
    c.meetsWindow s = c.window.contains (timeOf c.window.field s) := by
  rw [meetsWindow, decide_eq_true h, Bool.true_and, Bool.or_eq_right_iff_imp]
  exact fun hopen => c.window.contains_of_isUnbounded hopen _

/-- **A search by dates is exact to the day.**  On a clock that is ahead of UTC by whole seconds, a
text of days and a date field resolves to criteria under every domain; and an entry whose latest
time of that field is known and not from before 1970 meets them if the day of that time, by the
clock, is no earlier than the first date that the text opens with and no later than the first that
it closes with. -/
theorem meets_iff_day (h₀ : -dayMillis < o) (h₁ : o < dayMillis) (hsec : 1000 ∣ o)
    (hq : parse (Clock.fixed o) text = .ok q)
    (honly : ∀ token ∈ tokens text, ∃ k v, Says token k v ∧ (k.isDay = true ∨ k = .dateField))
    (localDomain : String) {t : Int}
    (ht : (s.conversation.map (fieldNamed (tokens text)).time).max? = some t) (hpos : 0 ≤ t) :
    ∃ c, ofQuery (Clock.fixed o) localDomain q = .ok c
      ∧ (c.meets s = true
        ↔ (Omits .firstDay (tokens text)
            ∨ ∃ d, FirstDate .firstDay d (tokens text) ∧ d.dayNumber ≤ (t + o) / dayMillis)
          ∧ (Omits .lastDay (tokens text)
            ∨ ∃ d, FirstDate .lastDay d (tokens text) ∧ (t + o) / dayMillis ≤ d.dayNumber)) := by
  have hnobody : ∀ k : Key, k.isDay = false → k ≠ .dateField →
      q.addresses localDomain k = .ok [] := by
    intro k hday hfield
    refine addresses_of_values_eq_nil (values_eq_nil_of_omits hq fun token htoken v hs => ?_) _
    obtain ⟨j, w, hs', hj⟩ := honly token htoken
    obtain ⟨rfl, -⟩ := hs.unique hs'
    rcases hj with hj | hj
    · exact absurd hj (by simp [hday])
    · exact hfield hj
  obtain ⟨w, hw, hfield, hframes⟩ := Window.exists_frames h₀ h₁ hq
  refine ⟨⟨w, [], []⟩, ofQuery_eq_ok_iff.2 ⟨hw, hnobody _ rfl (by decide), hnobody _ rfl
    (by decide)⟩, ?_⟩
  have htime : timeOf w.field s = t := by
    rw [timeOf_eq_latest, hfield, Summary.latest_of_max? ht]
    omega
  rw [← hframes.contains_iff hsec hpos, ← htime]
  have hwindow : meetsWindow ⟨w, [], []⟩ s = w.contains (timeOf w.field s) :=
    meetsWindow_of_nonneg (by rw [htime]; exact hpos)
  rw [meets, hwindow]
  simp [meetsCreators, meetsPeople]

/-- Half past five ahead of UTC, a wave made in the last millisecond of 2 January 2023 is found by a
search for that day, though a part of it that is no conversation is from the next. -/
theorem meets_iff_day_lastMoment :
    ∃ q c, parse (Clock.fixed 19800000) "usedate:createdate from:20230102 to:20230102" = .ok q
      ∧ ofQuery (Clock.fixed 19800000) "example.com" q = .ok c
      ∧ c.meets (⟨"w", [⟨1672684199999, 0, Address.unknown, true, true, []⟩,
        ⟨1672684200000, 0, Address.unknown, false, false, []⟩]⟩ : Summary String) = true := by
  have hfield : Says "usedate:createdate".toList .dateField "createdate" :=
    splitToken?_eq_some_iff.1 rfl
  have hfirst : Says "from:20230102".toList .firstDay "20230102" := splitToken?_eq_some_iff.1 rfl
  have hlast : Says "to:20230102".toList .lastDay "20230102" := splitToken?_eq_some_iff.1 rfl
  have hdate : Date.IsNamedBy ⟨2023, 1, 2, by decide⟩ "20230102".toList :=
    Date.ofCompact?_eq_some_iff_isNamedBy.1 rfl
  have htokens : tokens "usedate:createdate from:20230102 to:20230102"
      = ["usedate:createdate".toList, "from:20230102".toList, "to:20230102".toList] := rfl
  obtain ⟨q, hq⟩ : ∃ q, parse (Clock.fixed 19800000)
      "usedate:createdate from:20230102 to:20230102" = .ok q := ⟨_, rfl⟩
  obtain ⟨c, hc, hmeets⟩ := meets_iff_day (t := 1672684199999) (s := (⟨"w",
      [⟨1672684199999, 0, Address.unknown, true, true, []⟩,
        ⟨1672684200000, 0, Address.unknown, false, false, []⟩]⟩ : Summary String))
    (by decide) (by decide) (by decide) hq
    (by
      rw [htokens]
      simp only [List.forall_mem_cons]
      exact ⟨⟨_, _, hfield, .inr rfl⟩, ⟨_, _, hfirst, .inl rfl⟩, ⟨_, _, hlast, .inl rfl⟩,
        fun t ht => absurd ht List.not_mem_nil⟩)
    "example.com" rfl (by decide)
  rw [htokens] at hmeets
  have hskip : ∀ v, ¬ Says "usedate:createdate".toList .firstDay v ∧
      ¬ Says "usedate:createdate".toList .lastDay v ∧ ¬ Says "from:20230102".toList .lastDay v :=
    fun v => ⟨fun hv => absurd (hfield.unique hv).1 (by decide),
      fun hv => absurd (hfield.unique hv).1 (by decide),
      fun hv => absurd (hfirst.unique hv).1 (by decide)⟩
  refine ⟨q, c, hq, hc, hmeets.2 ⟨.inr ⟨_, .later (fun v => (hskip v).1) (.here hfirst hdate), ?_⟩,
    .inr ⟨_, .later (fun v => (hskip v).2.1) (.later (fun v => (hskip v).2.2) (.here hlast hdate)),
      ?_⟩⟩⟩
  · decide
  · decide

/-! ## Entries without conversation -/

theorem meetsWindow_of_conversation_eq_nil (h : s.conversation = []) :
    c.meetsWindow s = c.window.isUnbounded := by
  have htime : ¬ 0 ≤ timeOf c.window.field s := by
    rw [timeOf_eq_latest, Summary.latest_of_conversation_eq_nil h]
    decide
  rw [meetsWindow, decide_eq_false htime, Bool.false_and, Bool.or_false]

/-- **When a day leaves a search undated.**  On a clock that is ahead of UTC by whole seconds, a
text that names a day comes to an open window only if it opens, in UTC, with 1 January 1970 and
closes with nothing; in every other case no entry without conversation meets the criteria. -/
theorem isUnbounded_iff_of_says_day (h₀ : -dayMillis < o) (h₁ : o < dayMillis) (hsec : 1000 ∣ o)
    (hq : parse (Clock.fixed o) text = .ok q)
    (hday : ∃ token ∈ tokens text, ∃ k v, Says token k v ∧ k.isDay = true)
    {localDomain : String} (hc : ofQuery (Clock.fixed o) localDomain q = .ok c) :
    (c.window.isUnbounded = true
        ↔ o = 0 ∧ Omits .lastDay (tokens text)
          ∧ ∃ d, FirstDate .firstDay d (tokens text) ∧ d.dayNumber = 0)
      ∧ (c.window.isUnbounded = false →
          ∀ s : Summary ι, s.conversation = [] → c.meets s = false) := by
  obtain ⟨w, hw, -, hframes⟩ := Window.exists_frames h₀ h₁ hq
  obtain rfl : w = c.window := Except.ok.inj (hw.symm.trans (ofQuery_eq_ok_iff.1 hc).1)
  refine ⟨?_, fun hdated s hs => ?_⟩
  · rw [hframes.isUnbounded_iff h₀ h₁ hsec]
    constructor
    · rintro ⟨hlast, hfirst | ⟨d, hd, ho, h0⟩⟩
      · obtain ⟨token, htoken, k, v, hs, hk⟩ := hday
        rcases k
        case firstDay => exact absurd hs (hfirst token htoken v)
        case lastDay => exact absurd hs (hlast token htoken v)
        all_goals exact absurd hk (by decide)
      · exact ⟨ho, hlast, d, hd, h0⟩
    · rintro ⟨ho, hlast, d, hd, h0⟩
      exact ⟨hlast, .inr ⟨d, hd, ho, h0⟩⟩
  · rw [meets, meetsWindow_of_conversation_eq_nil hs, hdated, Bool.false_and, Bool.false_and]

/-- The search from 1 January 1970 on in UTC has an open window and finds a wave without
conversation. -/
theorem isUnbounded_firstMidnight :
    ∃ q c, parse Clock.utc "from:19700101" = .ok q
      ∧ ofQuery Clock.utc "example.com" q = .ok c ∧ c.window.isUnbounded = true
      ∧ (Wave.summary ⟨"w+m", [⟨"user+a@example.com", ⟨"a@example.com"⟩, 1, 1, []⟩]⟩).conversation
          = []
      ∧ c.meets (Wave.summary ⟨"w+m", [⟨"user+a@example.com", ⟨"a@example.com"⟩, 1, 1, []⟩]⟩)
          = true :=
  ⟨_, _, rfl, rfl, rfl, rfl, rfl⟩

/-- A minute ahead of UTC the same day begins before 1970 and dates the search. -/
theorem isUnbounded_iff_of_says_day_minuteAhead :
    ∃ q c, parse (Clock.fixed 60000) "from:19700101" = .ok q
      ∧ ofQuery (Clock.fixed 60000) "example.com" q = .ok c
      ∧ c.meets (⟨"w", []⟩ : Summary String) = false := by
  have hday : ∃ token ∈ tokens "from:19700101", ∃ k v, Says token k v ∧ k.isDay = true :=
    ⟨_, List.mem_cons_self .., _, _, splitToken?_eq_some_iff.1 rfl, rfl⟩
  obtain ⟨q, hq⟩ : ∃ q, parse (Clock.fixed 60000) "from:19700101" = .ok q := ⟨_, rfl⟩
  obtain ⟨c, hc, hdated⟩ : ∃ c, ofQuery (Clock.fixed 60000) "example.com" q = .ok c
      ∧ c.window.isUnbounded = false := by
    cases hq
    exact ⟨_, rfl, rfl⟩
  have hsearch := isUnbounded_iff_of_says_day (ι := String) (by decide) (by decide) (by decide) hq
    hday hc
  exact ⟨q, c, hq, hc, hsearch.2 hdated _ rfl⟩

end Criteria

end WaveFinder
