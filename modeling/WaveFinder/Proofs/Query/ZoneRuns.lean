import WaveFinder.Proofs.Query.Rezoning

/-!
# Proofs/Query/ZoneRuns — a query that is written and read again in one zone after another

    query ──rezone──▸ query₁ ──rezone──▸ query₂ ──▸ …

A step leaves the keys and the order of the values as they are, and all the values but the days
(`DaysMoved`).  It moves each day back to a midnight, by less than a day (`MovedBack`), and it fails
if and only if a day falls on a date outside the years 0 to 9999 (`rezone_spec`).  What it comes to
was read on the new clock, so that another step can be taken from there, and so on: days lag behind
by less than a day for each of the steps (`exists_parse_of_run`).
-/

namespace WaveFinder

open Text

namespace Query

variable {o o' : Int} {s : String} {q q' : Query} {v : String} {d : Date}

/-! ## One step -/

/-- A query is another whose days have been moved: it has the same keys and the same values in the
same order, but for the days, which are related one by one. -/
structure DaysMoved (R : String → String → Prop) (q q' : Query) : Prop where
  keys : q'.keys = q.keys
  others : ∀ k, k.isDay = false → q'.values k = q.values k
  days : ∀ k, k.isDay = true → List.Forall₂ R (q.values k) (q'.values k)

/-- A value is an instant, and another is the midnight at an offset that it is preceded by. -/
def MovedBack (o : Int) (v w : String) : Prop :=
  ∃ (t : Int) (d : Date), v = toString t ∧ w = toString (d.midnight - o)
    ∧ d.midnight - o ≤ t ∧ t < d.midnight - o + dayMillis

/-- A value is an instant that falls on a date at an offset. -/
def FallsOn (o : Int) (v : String) (d : Date) : Prop :=
  ∃ t : Int, v = toString t ∧ (Clock.fixed o).dateAt t = .ok (some d)

section Step

variable (h₀ : -dayMillis < o) (h₁ : o < dayMillis) (hq : parse (Clock.fixed o) s = .ok q)
  (h₀' : -dayMillis < o') (h₁' : o' < dayMillis)
include h₀ h₁ hq

theorem daysMoved_of_values (hvalues : ∀ k, q'.values k = (q.values k).map (carried o' k)) :
    DaysMoved (MovedBack o') q q' where
  keys := by
    refine List.filter_congr fun k _ => ?_
    rw [has, has, hvalues, List.isEmpty_map]
  others k hk := by
    have hsame : carried o' k = id := funext fun v => if_neg (by rw [hk]; decide)
    rw [hvalues, hsame, List.map_id]
  days k hk := by
    rw [hvalues, List.forall₂_map_right_iff, List.forall₂_same]
    intro v hv
    obtain ⟨t, ht, hcarried, hle, hlt⟩ := exists_carried h₀ h₁ hq hk hv o'
    exact ⟨t, dateOf o' v, ht, hcarried, hle, hlt⟩

include h₀' h₁'

theorem fallsOn_iff (hv : v ∈ q.values .firstDay ++ q.values .lastDay) :
    FallsOn o' v d ↔ d = dateOf o' v := by
  obtain ⟨k, hk, hv⟩ : ∃ k : Key, k.isDay = true ∧ v ∈ q.values k :=
    (List.mem_append.1 hv).elim (fun h => ⟨.firstDay, rfl, h⟩) fun h => ⟨.lastDay, rfl, h⟩
  obtain ⟨t, ht, -, hdate⟩ := exists_dateAt h₀ h₁ hq h₀' h₁' hk hv
  constructor
  · rintro ⟨u, hu, hd⟩
    obtain rfl : t = u := toString_int_inj.1 (ht.symm.trans hu)
    exact Option.some.inj (Except.ok.inj (hd.symm.trans hdate))
  · rintro rfl
    exact ⟨t, ht, hdate⟩

/-- **What a step does**: it moves days back to midnights, and it fails if and only if a day falls
on a date outside the years 0 to 9999, with the first such date. -/
theorem rezone_spec :
    (∀ q', q.rezone (Clock.fixed o') = .ok q' → DaysMoved (MovedBack o') q q')
      ∧ ((∃ r, q.rezone (Clock.fixed o') = .error r)
        ↔ ∃ v ∈ q.values .firstDay ++ q.values .lastDay, ∃ d, FallsOn o' v d
          ∧ ¬ (0 ≤ d.year ∧ d.year ≤ 9999))
      ∧ ∀ r, q.rezone (Clock.fixed o') = .error r →
          ∃ before v after d, q.values .firstDay ++ q.values .lastDay = before ++ v :: after
            ∧ (∀ u ∈ before, ∃ e, FallsOn o' u e ∧ 0 ≤ e.year ∧ e.year ≤ 9999)
            ∧ FallsOn o' v d ∧ ¬ (0 ≤ d.year ∧ d.year ≤ 9999)
            ∧ r = .query (.invalidDay (String.ofList d.compact)) := by
  have hfalls : ∀ {v d}, v ∈ q.values .firstDay ++ q.values .lastDay →
      (FallsOn o' v d ↔ d = dateOf o' v) := fallsOn_iff h₀ h₁ hq h₀' h₁'
  rcases rezone_cases h₀ h₁ hq h₀' h₁' with
    ⟨q', hok, hvalues, hread⟩ | ⟨before, v, after, hsplit, hbefore, hyear, herror⟩
  · refine ⟨fun r hr => ?_, iff_of_false ?_ ?_, fun r hr => ?_⟩
    · obtain rfl : q' = r := Except.ok.inj (hok.symm.trans hr)
      exact daysMoved_of_values h₀ h₁ hq hvalues
    · rintro ⟨r, hr⟩
      cases hok.symm.trans hr
    · rintro ⟨v, hv, d, hd, hyear⟩
      rw [hfalls hv] at hd
      exact hyear (hd ▸ hread v hv)
    · cases hok.symm.trans hr
  · have hmem : ∀ u ∈ before ++ v :: after, u ∈ q.values .firstDay ++ q.values .lastDay :=
      fun u hu => hsplit ▸ hu
    have hv : FallsOn o' v (dateOf o' v) :=
      (hfalls (hmem v (List.mem_append_right _ (List.mem_cons_self ..)))).2 rfl
    refine ⟨fun r hr => ?_, iff_of_true ⟨_, herror⟩ ?_, fun r hr => ?_⟩
    · cases herror.symm.trans hr
    · exact ⟨v, hmem v (List.mem_append_right _ (List.mem_cons_self ..)), _, hv, hyear⟩
    · refine ⟨before, v, after, _, hsplit, fun u hu => ?_, hv, hyear,
        (Except.error.inj (herror.symm.trans hr)).symm⟩
      exact ⟨_, (hfalls (hmem u (List.mem_append_left _ hu))).2 rfl, hbefore u hu⟩

end Step

/-! ## Step after step -/

/-- A value is an instant, and another is an earlier one or the same: less than a day earlier for
each of some steps. -/
def LagsBy (steps : Nat) (v w : String) : Prop :=
  ∃ t u : Int, v = toString t ∧ w = toString u ∧ u ≤ t ∧ t ≤ u + steps * (dayMillis - 1)

/-- What is read back was read on the clock. -/
theorem exists_parse_of_rezone {c : Clock} (h : q.rezone c = .ok q') :
    ∃ text, parse c text = .ok q' := by
  obtain ⟨text, -, htext⟩ := Except.bind_eq_ok_iff.1 h
  exact ⟨text, Except.mapError_eq_ok_iff.1 htext⟩

theorem DaysMoved.cons {n : Nat} {r : Query} (h : DaysMoved (MovedBack o) q q')
    (h' : DaysMoved (LagsBy n) q' r) : DaysMoved (LagsBy (n + 1)) q r where
  keys := h'.keys.trans h.keys
  others k hk := (h'.others k hk).trans (h.others k hk)
  days k hk := by
    refine forall₂_trans (h.days k hk) (h'.days k hk) ?_
    rintro u v w ⟨t, d, rfl, rfl, hle, hlt⟩ ⟨t', t'', ht', rfl, hle', hlt'⟩
    obtain rfl := toString_int_inj.1 ht'
    refine ⟨t, t'', rfl, rfl, Int.le_trans hle' hle, ?_⟩
    rw [dayMillis] at *
    omega

theorem DaysMoved.refl (h₀ : -dayMillis < o) (h₁ : o < dayMillis)
    (hq : parse (Clock.fixed o) s = .ok q) : DaysMoved (LagsBy 0) q q where
  keys := rfl
  others _ _ := rfl
  days k hk := by
    refine List.forall₂_same.2 fun v hv => ?_
    obtain ⟨d, -, hd⟩ := exists_date_of_mem_values h₀ h₁ hq hk hv
    exact ⟨_, _, hd, hd, Int.le_refl _, by omega⟩

/-- **What a run of steps does**: what it comes to was read at some offset, and its days lag behind
by less than a day for each step. -/
theorem exists_parse_of_run {os : List Int} (hos : ∀ e ∈ o :: os, -dayMillis < e ∧ e < dayMillis)
    (hq : parse (Clock.fixed o) s = .ok q)
    (hrun : os.foldlM (fun q e => q.rezone (Clock.fixed e)) q = .ok q') :
    (∃ e text, (-dayMillis < e ∧ e < dayMillis) ∧ parse (Clock.fixed e) text = .ok q')
      ∧ DaysMoved (LagsBy os.length) q q' := by
  induction os generalizing o s q with
  | nil =>
    obtain rfl : q = q' := Except.ok.inj hrun
    obtain ⟨h₀, h₁⟩ := hos o (List.mem_cons_self ..)
    exact ⟨⟨o, s, ⟨h₀, h₁⟩, hq⟩, .refl h₀ h₁ hq⟩
  | cons e os ih =>
    obtain ⟨⟨h₀, h₁⟩, hrest⟩ := List.forall_mem_cons.1 hos
    obtain ⟨h₀', h₁'⟩ := hrest e (List.mem_cons_self ..)
    rw [List.foldlM_cons] at hrun
    obtain ⟨r, hr, hrun⟩ := Except.bind_eq_ok_iff.1 hrun
    obtain ⟨text, htext⟩ := exists_parse_of_rezone hr
    obtain ⟨hread, hlags⟩ := ih hrest htext hrun
    exact ⟨hread, ((rezone_spec h₀ h₁ hq h₀' h₁').1 r hr).cons hlags⟩

/-- **Writing and reading a query in one zone after another moves its days back**, and nothing else.
Let a query be read at one offset and then written and read again at others, one after the other,
and let no step fail so far.  Then its keys and the order of its values are what they were at first,
its values are, too, but for the days, and its days lag behind by less than a day for each step.
One more step, if it does not fail, leaves all but the days as they are and moves each of the days
back to the midnight at the new offset that it is preceded by, which is less than a day.  It fails
if and only if some day falls on a date outside the years 0 to 9999 at the new offset, and then with
the first such date, that of a first day before that of a last day. -/
theorem rezone_after_run {o₀ : Int} {os : List Int} {p₀ p : Query}
    (hos : ∀ e ∈ o₀ :: o :: os, -dayMillis < e ∧ e < dayMillis)
    (hp₀ : parse (Clock.fixed o₀) s = .ok p₀)
    (hrun : os.foldlM (fun q e => q.rezone (Clock.fixed e)) p₀ = .ok p) :
    DaysMoved (LagsBy os.length) p₀ p
      ∧ (∀ p', p.rezone (Clock.fixed o) = .ok p' → DaysMoved (MovedBack o) p p')
      ∧ ((∃ r, p.rezone (Clock.fixed o) = .error r)
        ↔ ∃ v ∈ p.values .firstDay ++ p.values .lastDay, ∃ d, FallsOn o v d
          ∧ ¬ (0 ≤ d.year ∧ d.year ≤ 9999))
      ∧ ∀ r, p.rezone (Clock.fixed o) = .error r →
          ∃ before v after d, p.values .firstDay ++ p.values .lastDay = before ++ v :: after
            ∧ (∀ u ∈ before, ∃ e, FallsOn o u e ∧ 0 ≤ e.year ∧ e.year ≤ 9999)
            ∧ FallsOn o v d ∧ ¬ (0 ≤ d.year ∧ d.year ≤ 9999)
            ∧ r = .query (.invalidDay (String.ofList d.compact)) := by
  obtain ⟨hstart, hrest⟩ := List.forall_mem_cons.1 hos
  obtain ⟨⟨h₀', h₁'⟩, hothers⟩ := List.forall_mem_cons.1 hrest
  obtain ⟨⟨e, text, ⟨h₀, h₁⟩, hp⟩, hlags⟩ :=
    exists_parse_of_run (List.forall_mem_cons.2 ⟨hstart, hothers⟩) hp₀ hrun
  exact ⟨hlags, rezone_spec h₀ h₁ hp h₀' h₁'⟩

/-- Half a day behind UTC, two days of the first January; they are moved by going to fourteen hours
ahead and on to UTC, and an hour behind UTC the second of them falls on the last day of year -1. -/
theorem rezone_after_run_yearZero :
    ∃ p₀ p, parse (Clock.fixed (-43200000)) "from:00000102 to:20230101 from:00000101" = .ok p₀
      ∧ [50400000, 0].foldlM (fun q e => q.rezone (Clock.fixed e)) p₀ = .ok p
      ∧ DaysMoved (LagsBy 2) p₀ p
      ∧ p.rezone (Clock.fixed (-3600000)) = .error (.query (.invalidDay "-00011231"))
      ∧ ∃ v ∈ p.values .firstDay ++ p.values .lastDay, ∃ d, FallsOn (-3600000) v d
          ∧ ¬ (0 ≤ d.year ∧ d.year ≤ 9999) := by
  obtain ⟨p₀, p, hp₀, hrun, herror⟩ : ∃ p₀ p,
      parse (Clock.fixed (-43200000)) "from:00000102 to:20230101 from:00000101" = .ok p₀
      ∧ [50400000, 0].foldlM (fun q e => q.rezone (Clock.fixed e)) p₀ = .ok p
      ∧ p.rezone (Clock.fixed (-3600000)) = .error (.query (.invalidDay "-00011231")) :=
    ⟨{ firstDays := ["-62167089600000", "-62167176000000"], lastDays := ["1672574400000"] },
      { firstDays := ["-62167132800000", "-62167219200000"], lastDays := ["1672531200000"] },
      by decide +kernel, by decide +kernel, by decide +kernel⟩
  obtain ⟨hmoved, -, hfails, -⟩ := rezone_after_run (o := -3600000) (by decide) hp₀ hrun
  exact ⟨p₀, p, hp₀, hrun, hmoved, herror, hfails.1 ⟨_, herror⟩⟩

end Query

end WaveFinder
