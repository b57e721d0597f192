import WaveFinder.Proofs.Query.Rezoning
import WaveFinder.Proofs.Search.Dating
import WaveFinder.Proofs.Zone.DayRounding

/-!
# Proofs/Search/Reach — how far the instants of a search reach

    text ──parse──▸ query ──render──▸ text
                      ╰──Window.ofQuery──▸ last instant

A text names days of the years 0 to 9999 and the calendar reaches a quarter of a million years
further either way, while no zone moves an instant by as much as a day.  So whatever the zones are
in which a text is read, written and searched, the clock can be read at each instant on the way, and
no day that a text has brought in is ever without an answer (`isInReach_of_parse`).
-/

namespace WaveFinder

open Text Query

variable {o o' t : Int} {d : Date} {s : String} {q : Query}

/-- A last millisecond is never mistaken for an open side, if the clock is off by whole seconds. -/
theorem dayEnd_ne_zero (hsec : 1000 ∣ o) (t : Int) : dayEnd o t ≠ 0 :=
  Window.lastMilli_sub_ne_zero hsec _

/-! ## The window and the criteria -/

/-- The first value for a key of days is a midnight, and it is the instant of the query. -/
theorem Query.exists_midnight_of_first? (h₀ : -dayMillis < o) (h₁ : o < dayMillis) {k : Key}
    (hk : k.isDay = true) (hq : parse (Clock.fixed o) s = .ok q)
    (ht : q.first? k = some (toString t)) :
    ∃ d : Date, (0 ≤ d.year ∧ d.year ≤ 9999) ∧ t = d.midnight - o ∧ q.instant k = t := by
  obtain ⟨d, hy, hd⟩ := exists_date_of_mem_values h₀ h₁ hq hk (List.mem_of_mem_head? ht)
  obtain rfl := toString_int_inj.1 hd
  rw [← ofList_ofInt] at ht
  exact ⟨d, hy, rfl, instant_of_first? ht
    (fitsWord_of_inCalendar (Clock.inCalendar_midnight_sub h₀ h₁ hy))⟩

/-- **A query that was read at one offset has a window at any other**, which closes with the end of
the day in which its last day begins. -/
theorem Window.exists_ofQuery_fixed (h₀ : -dayMillis < o) (h₁ : o < dayMillis)
    (h₀' : -dayMillis < o') (h₁' : o' < dayMillis) (hq : parse (Clock.fixed o) s = .ok q) :
    ∃ w, ofQuery (Clock.fixed o') q = .ok w
      ∧ ∀ t : Int, q.first? .lastDay = some (toString t) → w.last = dayEnd o' t := by
  obtain ⟨-, hno, -⟩ | ⟨d, hd, hhas, hlast⟩ := instant_cases h₀ h₁ (k := .lastDay) rfl hq
  · refine ⟨_, ofQuery_of_has_eq_false hno, fun t ht => ?_⟩
    rw [first?_eq_none_iff.2 hno] at ht
    cases ht
  · have hend := Clock.endOfDay_midnight_sub h₀ h₁ h₀' h₁' hd.year_bounds
    rw [← hlast] at hend
    refine ⟨_, ofQuery_of_endOfDay hhas hend, fun t ht => ?_⟩
    obtain ⟨-, -, -, hinstant⟩ := exists_midnight_of_first? h₀ h₁ rfl hq ht
    rw [hinstant]

/-- Once there is a window, criteria can only be missing for a participant that is no address. -/
theorem Criteria.exists_address_of_ofQuery_eq_error {clock : Clock} {localDomain : String}
    {w : Window} {r : Refusal} (hw : Window.ofQuery clock q = .ok w)
    (hr : ofQuery clock localDomain q = .error r) : ∃ raw fault, r = .address raw fault := by
  have haddresses : ∀ {k : Key}, q.addresses localDomain k = .error r →
      ∃ raw fault, r = .address raw fault := by
    intro k h
    obtain ⟨-, raw, -, -, -, hraw⟩ := Except.mapM_eq_error_iff.1 h
    obtain ⟨fault, -, hfault⟩ := Except.mapError_eq_error_iff.1 hraw
    exact ⟨raw, fault, hfault.symm⟩
  simp only [ofQuery, Except.bind_eq_error_iff, Except.mapError_eq_error_iff, hw] at hr
  obtain ⟨fault, hfault, -⟩ | ⟨_, -, hcreators | ⟨_, -, hpeople | ⟨_, -, hno⟩⟩⟩ := hr
  · cases hfault
  · exact haddresses hcreators
  · exact haddresses hpeople
  · cases hno

namespace Query

section Offsets

variable {k : Key} {v : String} (h₀ : -dayMillis < o) (h₁ : o < dayMillis)
  (hq : parse (Clock.fixed o) s = .ok q)
include h₀ h₁ hq

/-- Every day that a query holds is an instant that is in reach at any offset. -/
theorem exists_isInReach_of_mem_values (hk : k.isDay = true) (hv : v ∈ q.values k) :
    ∃ d : Date, (0 ≤ d.year ∧ d.year ≤ 9999) ∧ v = toString (d.midnight - o)
      ∧ ∀ o', -dayMillis < o' → o' < dayMillis →
        IsInReach (Clock.fixed o') (d.midnight - o) := by
  obtain ⟨d, hy, hd⟩ := exists_date_of_mem_values h₀ h₁ hq hk hv
  exact ⟨d, hy, hd, fun o' h₀' h₁' => Clock.isInReach_midnight_sub h₀ h₁ h₀' h₁' hy⟩

variable (h₀' : -dayMillis < o') (h₁' : o' < dayMillis)
include h₀' h₁'

/-- **Every day that a query holds falls on a date** at any offset, between two midnights. -/
theorem exists_dateAt_wallAt (hk : k.isDay = true) (hv : v ∈ q.values k) :
    ∃ t : Int, v = toString t ∧ (Clock.fixed o').dateAt t = .ok (some (dateOf o' v))
      ∧ (dateOf o' v).midnight ≤ (Clock.fixed o').wallAt t
      ∧ (Clock.fixed o').wallAt t ≤ (dateOf o' v).lastMilli := by
  obtain ⟨d, hy, rfl⟩ := exists_date_of_mem_values h₀ h₁ hq hk hv
  obtain ⟨t, ht, -, hdate⟩ := exists_dateAt h₀ h₁ hq h₀' h₁' hk hv
  obtain rfl := toString_int_inj.1 ht
  refine ⟨_, rfl, hdate, ?_⟩
  rw [dateOf_midnight h₀ h₁ hy, Clock.wallAt_fixed]
  exact Date.midnight_ofWall_le _

/-- **What is written for a query**, key by key: its days as dates, and all else as it is. -/
theorem render_eq_intercalate :
    q.render (Clock.fixed o') = .ok (" ".intercalate (Key.all.flatMap fun k =>
      (q.values k).map fun v =>
        k.token ++ ":" ++ if k.isDay then String.ofList (dateOf o' v).compact else v)) := by
  rw [render_eq h₀ h₁ hq h₀' h₁', written, List.map_map, pairs_eq_flatMap_all, List.map_flatMap]
  simp only [List.map_map]
  rfl

end Offsets

/-- **No text drives the instants of a search out of the calendar.**  Let a text be read in one
zone, written in a second and searched in a third, each of them UTC or an offset.

Each day that the text names begins at an instant that is in reach.  If the text is read, then each
of the days that the query holds is the decimal text of an instant, no further than a day less a
minute from the midnights of the years 0 to 9999; the instant is in reach of all three clocks, and
the second one tells its date.  Written in the second zone the query is the text of its values, key
by key, in which each day is its date and all else stands as it is.  In the third zone it has a
window; where it closes, it closes with an instant in reach, less than a day after the instant of
the query and never 0.  Criteria can only be missing for a participant that is no address. -/
theorem isInReach_of_parse {za zb zc : Zone} (ha : za ≠ .host) (hb : zb ≠ .host) (hc : zc ≠ .host)
    (hostClock : Clock) (s : String) :
    (∀ token ∈ tokens s, ∀ (k : Key) (v : String) (d : Date), Says token k v → k.isDay = true →
        d.IsNamedBy v.toList → ∃ t, (za.clock hostClock).resolve .first d.midnight = .ok (some t)
          ∧ IsInReach (za.clock hostClock) t)
      ∧ ∀ q, parse (za.clock hostClock) s = .ok q → ∃ date : String → Date,
          (∀ k : Key, k.isDay = true → ∀ v ∈ q.values k, ∃ t : Int, v = toString t
            ∧ -62167219200000 - 86340000 ≤ t ∧ t ≤ 253402214400000 + 86340000
            ∧ IsInReach (za.clock hostClock) t ∧ IsInReach (zb.clock hostClock) t
            ∧ IsInReach (zc.clock hostClock) t
            ∧ (zb.clock hostClock).dateAt t = .ok (some (date v))
            ∧ (date v).midnight ≤ (zb.clock hostClock).wallAt t
            ∧ (zb.clock hostClock).wallAt t ≤ (date v).lastMilli)
          ∧ q.render (zb.clock hostClock) = .ok (" ".intercalate (Key.all.flatMap fun k =>
              (q.values k).map fun v =>
                k.token ++ ":" ++ if k.isDay then String.ofList (date v).compact else v))
          ∧ ∃ w, Window.ofQuery (zc.clock hostClock) q = .ok w
            ∧ (∀ t : Int, q.first? .lastDay = some (toString t) →
                IsInReach (zc.clock hostClock) w.last
                ∧ t ≤ w.last ∧ w.last < t + dayMillis ∧ w.last ≠ 0)
            ∧ ∀ localDomain r, Criteria.ofQuery (zc.clock hostClock) localDomain q = .error r →
                ∃ raw fault, r = .address raw fault := by
  obtain ⟨oa, ha₀, ha₁, hamin, ha⟩ := Zone.exists_clock_eq_fixed ha hostClock
  obtain ⟨ob, hb₀, hb₁, -, hb⟩ := Zone.exists_clock_eq_fixed hb hostClock
  obtain ⟨oc, hc₀, hc₁, hcmin, hc⟩ := Zone.exists_clock_eq_fixed hc hostClock
  rw [ha, hb, hc]
  refine ⟨fun token _ k v d _ _ hd => ?_, fun q hq => ⟨dateOf ob, fun k hk v hv => ?_,
    render_eq_intercalate ha₀ ha₁ hq hb₀ hb₁, ?_⟩⟩
  · have hstart := Clock.startOfDate?_fixed ha₀ ha₁ hd.year_bounds
    exact ⟨_, Clock.startOfDate?_eq_some_iff.1 hstart,
      Clock.isInReach_midnight_sub ha₀ ha₁ ha₀ ha₁ hd.year_bounds⟩
  · obtain ⟨d, hy, hvd, hreach⟩ := exists_isInReach_of_mem_values ha₀ ha₁ hq hk hv
    obtain ⟨t, hvt, hdate⟩ := exists_dateAt_wallAt ha₀ ha₁ hq hb₀ hb₁ hk hv
    obtain rfl := toString_int_inj.1 (hvt.symm.trans hvd)
    have hbounds := Date.midnight_bounds hy.1 hy.2
    rw [dayMillis] at ha₀ ha₁
    exact ⟨_, hvd, by omega, by omega, hreach oa ha₀ ha₁, hreach ob hb₀ hb₁, hreach oc hc₀ hc₁,
      hdate⟩
  · obtain ⟨w, hw, hlast⟩ := Window.exists_ofQuery_fixed ha₀ ha₁ hc₀ hc₁ hq
    refine ⟨w, hw, fun t ht => ?_, fun localDomain r hr => ?_⟩
    · obtain ⟨d, hy, rfl, -⟩ := exists_midnight_of_first? ha₀ ha₁ rfl hq ht
      obtain ⟨hle, hlt⟩ := le_dayEnd oc (d.midnight - oa)
      rw [hlast _ ht]
      exact ⟨Clock.isInReach_fixed ha₀ ha₁ hc₀ hc₁ hy hle hlt, hle, hlt,
        dayEnd_ne_zero (Int.dvd_trans (by decide) hcmin) _⟩
    · exact Criteria.exists_address_of_ofQuery_eq_error hw hr

/-- The first day of year 0 and the last of year 9999, read as far ahead of UTC as a zone can be,
written as far behind, and searched in UTC: they are written as the days two days before. -/
theorem isInReach_of_parse_antipodes :
    ∃ za zb q w, Zone.parse "+23:59" = .ok za ∧ Zone.parse "-23:59" = .ok zb
      ∧ parse (za.clock .utc) "from:00000101 with:bob to:99991231" = .ok q
      ∧ q.render (zb.clock .utc) = .ok "with:bob from:-00011230 to:99991229"
      ∧ Window.ofQuery (Zone.utc.clock .utc) q = .ok w
      ∧ IsInReach (Zone.utc.clock .utc) w.last
      ∧ 253402128060000 ≤ w.last ∧ w.last < 253402128060000 + dayMillis ∧ w.last ≠ 0 := by
  let q : Query :=
    { people := ["bob"], firstDays := ["-62167305540000"], lastDays := ["253402128060000"] }
  obtain ⟨za, zb, hza, hzb, ha, hb, hq, hbefore, hafter⟩ : ∃ za zb,
      Zone.parse "+23:59" = .ok za ∧ Zone.parse "-23:59" = .ok zb ∧ za ≠ .host ∧ zb ≠ .host
      ∧ parse (za.clock .utc) "from:00000101 with:bob to:99991231" = .ok q
      ∧ (zb.clock .utc).dateAt (-62167305540000) = .ok (some ⟨-1, 12, 30, by decide⟩)
      ∧ (zb.clock .utc).dateAt 253402128060000 = .ok (some ⟨9999, 12, 29, by decide⟩) :=
    ⟨.offset ⟨1439, by decide⟩, .offset ⟨-1439, by decide⟩, rfl, rfl, by decide, by decide,
      by decide +kernel, by decide +kernel, by decide +kernel⟩
  obtain ⟨-, hreach⟩ := isInReach_of_parse ha hb (show Zone.utc ≠ .host by decide) .utc
    "from:00000101 with:bob to:99991231"
  obtain ⟨date, hdays, hrender, w, hw, hcloses, -⟩ := hreach q hq
  have hdate : ∀ {k : Key} {t : Int} {d : Date}, k.isDay = true → toString t ∈ q.values k →
      (zb.clock .utc).dateAt t = .ok (some d) → date (toString t) = d := by
    intro k t d hk hv hd
    obtain ⟨u, hu, -, -, -, -, -, hdate, -⟩ := hdays k hk _ hv
    rw [← toString_int_inj.1 hu, hd] at hdate
    exact (Option.some.inj (Except.ok.inj hdate)).symm
  have hfirst := hdate (k := .firstDay) rfl (List.mem_singleton_self _) hbefore
  have hlast := hdate (k := .lastDay) rfl (List.mem_singleton_self _) hafter
  refine ⟨za, zb, q, w, hza, hzb, hq, hrender.trans ?_, hw, hcloses 253402128060000 rfl⟩
  change Except.ok (" ".intercalate ["with" ++ ":" ++ "bob",
    "from" ++ ":" ++ String.ofList (date (toString (-62167305540000 : Int))).compact,
    "to" ++ ":" ++ String.ofList (date (toString (253402128060000 : Int))).compact]) = _
  rw [hfirst, hlast]
  rfl

end Query

end WaveFinder
