import Mathlib.Data.List.Nodup
import WaveFinder.Proofs.Query.Faults
import WaveFinder.Proofs.Query.Invariant
import WaveFinder.Proofs.Zone.DayRounding
import WaveFinder.Search.Criteria

/-!
# Proofs/Query/Rezoning — a query that is written and read again at another offset

    query ──render──▸ text ──parse──▸ query'

A day is kept as an instant.  At another offset the instant falls on a date, the date is what is
written, and what is read back is the midnight of the date: the instant is moved back to the last
midnight before it (`exists_carried`).  The days of a query are whole days apart, so all of them are
moved by the same time and two of them never become one (`carried_inj`).  Everything else is written
as it is.  So a query is read back, each value in its place, if all its dates can be read
(`rezone_eq_ok`, `values_carried`).  A date is written with eight digits unless its year has left
the years 0 to 9999, and the first that has left them is complained of (`rezone_eq_error`).
-/

namespace WaveFinder

open Text

namespace Query

variable {o o' : Int} {s : String} {q q' : Query} {k : Key} {v w : String} {d : Date}
  {p : Key × String} {ps before after : List (Key × String)}

/-- Writes a query on a clock and reads on it what was written. -/
def rezone (c : Clock) (q : Query) : Except Refusal Query := do
  let text ← (q.render c).mapError Refusal.clock
  (parse c text).mapError Refusal.query

theorem rezone_of_render {c : Clock} {text : String} (h : q.render c = .ok text) :
    q.rezone c = (parse c text).mapError Refusal.query := by
  rw [rezone, h]
  rfl

/-! ## One value at another offset -/

/-- What is kept, other than a day, is kept again on any clock. -/
theorem Keeps.keeps_iff {c c' : Clock} {u : String} (hk : k.isDay = false) (h : Keeps c k u v) :
    Keeps c' k v w ↔ w = v := by
  cases k with
  | firstDay | lastDay => cases hk
  | order | dateField =>
    obtain ⟨rfl, hfits⟩ := h
    exact and_iff_left hfits
  | folder | person | creator | id | tag => rfl

/-- The date that a value for a key of days falls on. -/
def dateOf (o : Int) (v : String) : Date :=
  Date.ofWall ((Numeral.toWord? v.toList).getD 0 + o)

/-- What is written for a value. -/
def textAt (o : Int) (k : Key) (v : String) : String :=
  if k.isDay then String.ofList (dateOf o v).compact else v

/-- What is read back for a value. -/
def carried (o : Int) (k : Key) (v : String) : String :=
  if k.isDay then toString ((dateOf o v).midnight - o) else v

/-- Whether what is written for a value can be read: four digits are enough for the year. -/
def IsReadable (o : Int) (k : Key) (v : String) : Prop :=
  k.isDay = true → 0 ≤ (dateOf o v).year ∧ (dateOf o v).year ≤ 9999

instance : Decidable (IsReadable o k v) :=
  inferInstanceAs (Decidable (_ → _))

theorem toWord?_toString {t : Int} (h : Numeral.fitsWord t = true) :
    Numeral.toWord? (toString t).toList = some t := by
  rw [← ofList_ofInt, String.toList_ofList, Numeral.toWord?_ofInt h]

theorem isWritable_textAt (hq : parse (Clock.fixed o) s = .ok q) (hv : v ∈ q.values k) (o' : Int) :
    IsWritable (textAt o' k v) := by
  rw [textAt]
  split
  · exact isWritable_compact _
  · exact isWritable_of_mem_values hq hv

/-- **What is written is read as what is carried over**, or not at all if it cannot be read. -/
theorem keeps_textAt_iff (hq : parse (Clock.fixed o) s = .ok q) (h₀ : -dayMillis < o')
    (h₁ : o' < dayMillis) (hv : v ∈ q.values k) :
    Keeps (Clock.fixed o') k (textAt o' k v) w ↔ IsReadable o' k v ∧ w = carried o' k v := by
  rcases hk : k.isDay with _ | _
  · obtain ⟨-, -, u, -, hkeep⟩ := exists_tells_of_mem_pairs hq (mem_pairs.2 hv)
    have htext : textAt o' k v = v := if_neg (by rw [hk]; decide)
    have hcarried : carried o' k v = v := if_neg (by rw [hk]; decide)
    have hreadable : IsReadable o' k v := fun hday => absurd hday (by rw [hk]; decide)
    rw [htext, hcarried, and_iff_right hreadable]
    exact hkeep.keeps_iff hk
  · have hday : Keeps (Clock.fixed o') k (textAt o' k v) w
        ↔ ∃ d : Date, d.IsNamedBy (textAt o' k v).toList ∧ w = toString (d.midnight - o') := by
      cases k with
      | firstDay | lastDay => exact keeps_day_fixed_iff h₀ h₁
      | folder | person | creator | id | tag | dateField | order => cases hk
    rw [hday, textAt, carried, IsReadable, if_pos hk, if_pos hk, String.toList_ofList]
    simp only [Date.isNamedBy_compact_iff, hk, true_imp_iff, and_assoc, exists_and_left,
      exists_eq_left]

/-- The days among the pairs of a query are its first days and then its last days. -/
theorem map_snd_filter_pairs (q : Query) :
    (q.pairs.filter fun p => p.1.isDay).map Prod.snd
      = q.values .firstDay ++ q.values .lastDay := by
  have hkey : ∀ j, ((q.values j).map fun v => (j, v)).filter (fun p => p.1.isDay)
      = if j.isDay then (q.values j).map fun v => (j, v) else [] := by
    intro j
    rcases hj : j.isDay with _ | _ <;> simp [List.filter_map, Function.comp_def, hj]
  rw [pairs_eq_flatMap_all, List.filter_flatMap]
  simp only [hkey]
  simp [Key.all, Key.isDay, Function.comp_def]

/-- What is written are the tokens of the pairs. -/
theorem tokens_pairs (hq : parse (Clock.fixed o) s = .ok q) :
    tokens (written (q.pairs.map fun p => (p.1, textAt o' p.1 p.2)))
      = q.pairs.map fun p => (tokenText p.1 (textAt o' p.1 p.2)).toList := by
  rw [tokens_written, List.map_map]
  · rfl
  · intro r hr
    obtain ⟨p, hp, rfl⟩ := List.mem_map.1 hr
    exact isWritable_textAt hq (mem_pairs.1 hp) o'

section Offsets

variable (h₀ : -dayMillis < o) (h₁ : o < dayMillis) (hq : parse (Clock.fixed o) s = .ok q)
include h₀ h₁

theorem dateOf_midnight (hy : 0 ≤ d.year ∧ d.year ≤ 9999) :
    dateOf o' (toString (d.midnight - o)) = Date.ofWall (d.midnight - o + o') := by
  have hfits := fitsWord_of_inCalendar (Clock.inCalendar_midnight_sub h₀ h₁ hy)
  rw [dateOf, toWord?_toString hfits, Option.getD_some]

include hq

/-- **A day is moved back to the last midnight before it.** -/
theorem exists_carried (hk : k.isDay = true) (hv : v ∈ q.values k) (o' : Int) :
    ∃ t : Int, v = toString t ∧ carried o' k v = toString ((dateOf o' v).midnight - o')
      ∧ (dateOf o' v).midnight - o' ≤ t ∧ t < (dateOf o' v).midnight - o' + dayMillis := by
  obtain ⟨d, hy, rfl⟩ := exists_date_of_mem_values h₀ h₁ hq hk hv
  refine ⟨_, rfl, if_pos hk, ?_⟩
  have hb := Date.midnight_ofWall_le (d.midnight - o + o')
  rw [Date.lastMilli] at hb
  rw [dateOf_midnight h₀ h₁ hy]
  omega

/-- **Distinct values stay distinct**: the days of a query are whole days apart, and all of them are
moved back by the same time. -/
theorem carried_inj (hv : v ∈ q.values k) (hw : w ∈ q.values k)
    (h : carried o' k v = carried o' k w) : v = w := by
  rcases hk : k.isDay with _ | _
  · rwa [carried, carried, if_neg (by rw [hk]; decide), if_neg (by rw [hk]; decide)] at h
  · obtain ⟨d, hd, rfl⟩ := exists_date_of_mem_values h₀ h₁ hq hk hv
    obtain ⟨e, he, rfl⟩ := exists_date_of_mem_values h₀ h₁ hq hk hw
    rw [carried, carried, if_pos hk, if_pos hk, toString_int_inj, dateOf_midnight h₀ h₁ hd,
      dateOf_midnight h₀ h₁ he] at h
    have hbd := Date.midnight_ofWall_le (d.midnight - o + o')
    have hbe := Date.midnight_ofWall_le (e.midnight - o + o')
    have hsame : d.dayNumber = e.dayNumber := by
      simp only [Date.lastMilli, Date.midnight, dayMillis] at h hbd hbe
      omega
    rw [Date.midnight, Date.midnight, hsame]

variable (h₀' : -dayMillis < o') (h₁' : o' < dayMillis)
include h₀' h₁'

/-- **The date of a value is the one that the clock tells at its instant.** -/
theorem exists_dateAt (hk : k.isDay = true) (hv : v ∈ q.values k) :
    ∃ t : Int, v = toString t ∧ Numeral.fitsWord t = true
      ∧ (Clock.fixed o').dateAt t = .ok (some (dateOf o' v)) := by
  obtain ⟨d, hy, rfl⟩ := exists_date_of_mem_values h₀ h₁ hq hk hv
  refine ⟨_, rfl, fitsWord_of_inCalendar (Clock.inCalendar_midnight_sub h₀ h₁ hy), ?_⟩
  rw [dateOf_midnight h₀ h₁ hy, Clock.dateAt_fixed h₀ h₁ h₀' h₁' hy]

theorem valueText_eq (hv : v ∈ q.values k) :
    valueText (Clock.fixed o') k v = .ok (textAt o' k v) := by
  rw [valueText, textAt]
  split
  · next hk =>
    obtain ⟨t, hvt, hfits, hdate⟩ := exists_dateAt h₀ h₁ hq h₀' h₁' hk hv
    have hread : Numeral.toWord? v.toList = some t := by rw [hvt, toWord?_toString hfits]
    rw [hread]
    dsimp only
    rw [Clock.dayText, hdate]
    rfl
  · rfl

/-! ## All the values -/

/-- **What is written for a query**: its pairs, with what is written for their values. -/
theorem render_eq :
    q.render (Clock.fixed o') = .ok (written (q.pairs.map fun p => (p.1, textAt o' p.1 p.2))) := by
  have htokens : q.tokenTexts (Clock.fixed o')
      = .ok (q.pairs.map fun p => tokenText p.1 (textAt o' p.1 p.2)) := by
    refine Except.mapM_eq_ok_iff.2 (List.forall₂_map_right_iff.2 (List.forall₂_same.2 ?_))
    intro p hp
    rw [valueText_eq h₀ h₁ hq h₀' h₁' (mem_pairs.1 hp)]
    rfl
  rw [render, htokens, written, List.map_map]
  rfl

theorem rezone_eq : q.rezone (Clock.fixed o')
    = (parse (Clock.fixed o') (written (q.pairs.map fun p => (p.1, textAt o' p.1 p.2)))).mapError
        Refusal.query :=
  rezone_of_render (render_eq h₀ h₁ hq h₀' h₁')

omit h₀ h₁ in
/-- Pairs that can be read are read, and as the pairs that are carried over. -/
theorem foldlM_accept_pairs (hps : ∀ p ∈ ps, p ∈ q.pairs)
    (hread : ∀ p ∈ ps, IsReadable o' p.1 p.2) :
    (ps.map fun p => (tokenText p.1 (textAt o' p.1 p.2)).toList).foldlM
        (accept (Clock.fixed o')) empty
      = .ok (empty.insertAll (ps.map fun p => (p.1, carried o' p.1 p.2))) := by
  refine foldlM_accept_eq_ok_iff.2 ⟨_, ?_, ?_, rfl⟩
  · rw [List.forall₂_map_left_iff, List.forall₂_map_right_iff, List.forall₂_same]
    intro p hp
    have hv := mem_pairs.1 (hps p hp)
    exact (tells_tokenText_iff (isWritable_textAt hq hv o')).2
      ⟨rfl, (keeps_textAt_iff hq h₀' h₁' hv).2 ⟨hread p hp, rfl⟩⟩
  · have hmem : ∀ v ∈ given .dateField (ps.map fun p => (p.1, carried o' p.1 p.2)),
        v ∈ given .dateField q.pairs := by
      intro v hv
      obtain ⟨⟨k, u⟩, hp, he⟩ := List.mem_map.1 (mem_given.1 hv)
      obtain ⟨rfl, rfl⟩ := Prod.mk.inj he
      exact mem_given.2 (hps _ hp)
    intro v hv w hw
    exact dateFieldsAgree_pairs_of_parse hq v (hmem v hv) w (hmem w hw)

/-- **A query is read back if all that is written can be read.** -/
theorem rezone_eq_ok (hread : ∀ p ∈ q.pairs, IsReadable o' p.1 p.2) :
    q.rezone (Clock.fixed o')
      = .ok (empty.insertAll (q.pairs.map fun p => (p.1, carried o' p.1 p.2))) := by
  have htokens := foldlM_accept_pairs hq h₀' h₁' (fun _ hp => hp) hread
  rw [rezone_eq h₀ h₁ hq h₀' h₁', parse, tokens_pairs hq, htokens]
  rfl

/-- **The first value that cannot be read is complained of.** -/
theorem rezone_eq_error (hsplit : q.pairs = before ++ p :: after)
    (hbefore : ∀ r ∈ before, IsReadable o' r.1 r.2) (hp : ¬ IsReadable o' p.1 p.2) :
    q.rezone (Clock.fixed o')
      = .error (.query (.invalidDay (String.ofList (dateOf o' p.2).compact))) := by
  obtain ⟨hk, hyear⟩ := Classical.not_imp.1 hp
  have hmem : ∀ r ∈ before ++ [p], r ∈ q.pairs := by
    rw [hsplit]
    intro r hr
    rw [← List.singleton_append, ← List.append_assoc]
    exact List.mem_append_left _ hr
  have hbegin := foldlM_accept_pairs hq h₀' h₁'
    (fun r hr => hmem r (List.mem_append_left _ hr)) hbefore
  have htext : textAt o' p.1 p.2 = String.ofList (dateOf o' p.2).compact := if_pos hk
  have hno : (Clock.fixed o').readDay? (textAt o' p.1 p.2).toList = none := by
    rw [readDay?_fixed_eq_none_iff h₀' h₁', htext, String.toList_ofList]
    exact fun d hd => hyear (Date.isNamedBy_compact_iff.1 hd).1
  have hv : p.2 ∈ q.values p.1 :=
    mem_pairs.1 (hmem p (List.mem_append_right _ (List.mem_singleton_self p)))
  have hsays := says_tokenText (k := p.1) (isWritable_textAt hq hv o')
  have haccept : ∀ r, accept (Clock.fixed o') r (tokenText p.1 (textAt o' p.1 p.2)).toList
      = .error (.invalidDay (textAt o' p.1 p.2)) := by
    intro r
    rw [accept, splitToken?_eq_some_iff.2 hsays]
    exact Except.map_eq_error_iff.2 ((check_day_eq_error_iff hk).2 ⟨hno, rfl⟩)
  rw [rezone_eq h₀ h₁ hq h₀' h₁', parse_eq_error_of_accept hbegin (haccept _) ?_, htext]
  · rfl
  · rw [tokens_pairs hq, hsplit]
    exact ⟨after.map fun p => (tokenText p.1 (textAt o' p.1 p.2)).toList, by simp⟩

omit h₀' h₁' in
/-- What is read back holds, under each key, what is carried over for it. -/
theorem values_carried (k : Key) :
    (empty.insertAll (q.pairs.map fun p => (p.1, carried o' p.1 p.2))).values k
      = (q.values k).map (carried o' k) := by
  have hnodup : ((q.values k).map (carried o' k)).Nodup :=
    (nodup_values_of_parse hq k).map_on fun v hv w hw => carried_inj h₀ h₁ hq hv hw
  rw [values_insertAll_empty, given_map, given_pairs, eraseDups_of_nodup hnodup]

/-- **Either all the dates can be read, or one of them is the first that cannot**, and it is
complained of. -/
theorem rezone_cases :
    (∃ q', q.rezone (Clock.fixed o') = .ok q'
        ∧ (∀ k, q'.values k = (q.values k).map (carried o' k))
        ∧ ∀ v ∈ q.values .firstDay ++ q.values .lastDay,
            0 ≤ (dateOf o' v).year ∧ (dateOf o' v).year ≤ 9999)
      ∨ ∃ before v after, q.values .firstDay ++ q.values .lastDay = before ++ v :: after
          ∧ (∀ u ∈ before, 0 ≤ (dateOf o' u).year ∧ (dateOf o' u).year ≤ 9999)
          ∧ ¬ (0 ≤ (dateOf o' v).year ∧ (dateOf o' v).year ≤ 9999)
          ∧ q.rezone (Clock.fixed o')
              = .error (.query (.invalidDay (String.ofList (dateOf o' v).compact))) := by
  have hdays : ∀ {ps : List (Key × String)}, (∀ p ∈ ps, IsReadable o' p.1 p.2) →
      ∀ v ∈ (ps.filter fun p => p.1.isDay).map Prod.snd,
        0 ≤ (dateOf o' v).year ∧ (dateOf o' v).year ≤ 9999 := by
    intro ps hread v hv
    obtain ⟨p, hp, rfl⟩ := List.mem_map.1 hv
    obtain ⟨hmem, hk⟩ := List.mem_filter.1 hp
    exact hread p hmem hk
  rw [← map_snd_filter_pairs]
  by_cases hread : ∀ p ∈ q.pairs, IsReadable o' p.1 p.2
  · exact .inl ⟨_, rezone_eq_ok h₀ h₁ hq h₀' h₁' hread, values_carried h₀ h₁ hq, hdays hread⟩
  · obtain ⟨before, p, after, hsplit, hbefore, hp⟩ := exists_first_not hread
    obtain ⟨hk, hyear⟩ := Classical.not_imp.1 hp
    refine .inr ⟨(before.filter fun p => p.1.isDay).map Prod.snd, p.2,
      (after.filter fun p => p.1.isDay).map Prod.snd, ?_, hdays hbefore, hyear,
      rezone_eq_error h₀ h₁ hq h₀' h₁' hsplit hbefore hp⟩
    have hfirst : (p :: after).filter (fun p => p.1.isDay) = p :: after.filter fun p => p.1.isDay :=
      List.filter_cons_of_pos hk
    rw [hsplit, List.filter_append, hfirst, List.map_append, List.map_cons]

end Offsets

end Query

end WaveFinder
