import WaveFinder.Proofs.Search.Containment

/-!
# Proofs/Search/Narrowing — what one more token does to the results of a search

    tokens            ──▸ query             ──▸ criteria
    tokens ++ [token] ──▸ query.insert k v  ──▸ criteria'

One more token puts one more value into the query, and the criteria change at one place at most.
All of the people have to take part, but only one of the creators has to be the author; of days and
date fields only the first value counts.  So the key of the token, and whether the text omits it,
decide in which direction the criteria change (`Criteria.within_of_insert`,
`Criteria.meets_of_insert_creator`, `Criteria.meets_insert_eq`), and the results with them
(`Plan.ids_sublist_of_append`).
-/

namespace WaveFinder

open Query

/-! ## One more value -/

namespace Query

variable {clock : Clock} {localDomain s : String} {q q' : Query} {j k : Key} {v : String}
  {as as' : List Address}

/-- A key that has a value keeps its first. -/
theorem first?_insert_of_has (h : q.has k = true) (v : String) (j : Key) :
    (q.insert k v).first? j = q.first? j := by
  by_cases hj : j = k
  · subst hj
    obtain ⟨u, hu⟩ := Option.isSome_iff_exists.1 (has_eq_isSome_first? q j ▸ h)
    rw [first?_insert_self, hu, Option.getD_some]
  · exact first?_insert_of_ne hj v

theorem addresses_insert_of_ne (h : j ≠ k) :
    (q.insert k v).addresses localDomain j = q.addresses localDomain j := by
  rw [addresses, addresses, values_insert, if_neg h]

theorem has_insert_of_ne (h : j ≠ k) : (q.insert k v).has j = q.has j := by
  rw [has, has, values_insert, if_neg h]

theorem mem_values_insert {u : String} (h : u ∈ q.values j) : u ∈ (q.insert k v).values j := by
  rw [values_insert]
  split
  · exact mem_addNew.2 (.inl h)
  · exact h

/-- More people come to more addresses. -/
theorem addresses_subset (h : ∀ raw ∈ q.values k, raw ∈ q'.values k)
    (hread : q.addresses localDomain k = .ok as)
    (hread' : q'.addresses localDomain k = .ok as') :
    as ⊆ as' := by
  intro a ha
  obtain ⟨raw, hraw, hraw'⟩ := exists_left_of_mem (Except.mapM_eq_ok_iff.1 hread) ha
  obtain ⟨a', ha', hraw''⟩ := exists_right_of_mem (Except.mapM_eq_ok_iff.1 hread') (h raw hraw)
  obtain rfl : a = a' := Except.ok.inj (hraw'.symm.trans hraw'')
  exact ha'

theorem addresses_ne_nil (h : q.has k = true) (hread : q.addresses localDomain k = .ok as) :
    as ≠ [] := by
  rintro rfl
  have hnil := List.forall₂_nil_right_iff.1 (Except.mapM_eq_ok_iff.1 hread)
  rw [has, hnil] at h
  cases h

theorem instant_of_has_eq_false (h : q.has k = false) : q.instant k = 0 := by
  rw [instant, first?_eq_none_iff.2 h]
  rfl

/-- **A query that was read has no value for the keys that its text omits**, and for no others. -/
theorem has_eq_false_iff_omits (hq : parse clock s = .ok q) :
    q.has k = false ↔ Omits k (tokens s) := by
  rw [← values_eq_nil_iff]
  refine ⟨fun hvalues token htoken v hs => ?_, values_eq_nil_of_omits hq⟩
  obtain ⟨ps, htells, -, rfl⟩ := parse_eq_ok_iff.1 hq
  obtain ⟨⟨j, w⟩, hp, u, hs', -⟩ := exists_right_of_mem htells htoken
  obtain ⟨rfl, -⟩ := hs.unique hs'
  have hw : w ∈ (empty.insertAll ps).values k := by
    rw [values_insertAll_empty, List.mem_eraseDups]
    exact mem_given.2 hp
  rw [hvalues] at hw
  exact List.not_mem_nil hw

/-- **One more token puts one more value into the query.** -/
theorem exists_insert_of_parse_append {s' : String} {token : List Char}
    (happ : tokens s' = tokens s ++ [token]) (hs : Says token k v)
    (hq' : parse clock s' = .ok q') :
    ∃ q w, parse clock s = .ok q ∧ q' = q.insert k w := by
  obtain ⟨q, hq, haccept⟩ := (parse_append_eq_ok_iff happ).1 hq'
  obtain ⟨⟨j, w⟩, ⟨u, hs', -⟩, -, rfl⟩ := accept_eq_ok_iff.1 haccept
  obtain ⟨rfl, -⟩ := hs.unique hs'
  exact ⟨q, w, hq, rfl⟩

end Query

/-! ## The window of the longer query -/

namespace Window

variable {clock : Clock} {q q' : Query} {w w' : Window} {k : Key} {v : String}

/-- **What the window of a query is made of.** -/
theorem ofQuery_eq_ok_iff :
    ofQuery clock q = .ok w
      ↔ w.field = q.dateField?.getD .modified ∧ w.first = q.instant .firstDay
        ∧ (if q.has .lastDay then clock.endOfDay (q.instant .lastDay) else .ok 0) = .ok w.last := by
  have hmap : ofQuery clock q
      = (if q.has .lastDay then clock.endOfDay (q.instant .lastDay) else .ok 0).map
        (Window.mk (q.dateField?.getD .modified) (q.instant .firstDay)) := by
    rw [ofQuery]
    split
    · rcases clock.endOfDay (q.instant .lastDay) <;> rfl
    · rfl
  rw [hmap, Except.map_eq_ok_iff]
  constructor
  · rintro ⟨l, hl, rfl⟩
    exact ⟨rfl, rfl, hl⟩
  · rintro ⟨hfield, hfirst, hlast⟩
    exact ⟨w.last, hlast, by rw [← hfield, ← hfirst]⟩

/-- The window of a query is told from the first values of three of its keys. -/
theorem ofQuery_congr (h : ∀ j, j.isDay = true ∨ j = .dateField → q'.first? j = q.first? j) :
    ofQuery clock q' = ofQuery clock q := by
  have hfield := h .dateField (.inr rfl)
  have hfirst := h .firstDay (.inl rfl)
  have hlast := h .lastDay (.inl rfl)
  simp only [ofQuery, has_eq_isSome_first?, Query.instant, Query.dateField?, hfield, hfirst, hlast]

/-- The window of a query that names no day is open. -/
theorem isUnbounded_of_has_eq_false (hfirst : q.has .firstDay = false)
    (hlast : q.has .lastDay = false) (hw : ofQuery clock q = .ok w) : w.isUnbounded = true := by
  obtain ⟨-, h₁, h₂⟩ := ofQuery_eq_ok_iff.1 hw
  rw [hlast, if_neg Bool.false_ne_true, Except.ok.injEq] at h₂
  rw [isUnbounded, h₁, instant_of_has_eq_false hfirst, ← h₂]
  rfl

/-- **The first day of its key can only close a side of a window that is open.** -/
theorem within_of_insert (hk : k.isDay = true) (hno : q.has k = false)
    (hw : ofQuery clock q = .ok w) (hw' : ofQuery clock (q.insert k v) = .ok w') :
    w'.Within w := by
  obtain ⟨hfield, hfirst, hlast⟩ := ofQuery_eq_ok_iff.1 hw
  obtain ⟨hfield', hfirst', hlast'⟩ := ofQuery_eq_ok_iff.1 hw'
  have hother : ∀ j, j ≠ k → (q.insert k v).first? j = q.first? j :=
    fun j hj => first?_insert_of_ne hj v
  refine ⟨?_, ?_, ?_⟩
  · have hne : Key.dateField ≠ k := by
      rintro rfl
      cases hk
    rw [hfield, hfield', dateField?, dateField?, hother _ hne]
  · by_cases hkf : k = .firstDay
    · subst hkf
      exact .inl (hfirst.trans (instant_of_has_eq_false hno))
    · rw [hfirst, hfirst', Query.instant, Query.instant, hother _ (Ne.symm hkf)]
      exact .inr rfl
  · by_cases hkl : k = .lastDay
    · subst hkl
      rw [hno, if_neg Bool.false_ne_true, Except.ok.injEq] at hlast
      exact .inl hlast.symm
    · refine .inr (Except.ok.inj (hlast'.symm.trans (Eq.trans ?_ hlast)))
      rw [has_eq_isSome_first?, has_eq_isSome_first?, Query.instant, Query.instant,
        hother _ (Ne.symm hkl)]

end Window

/-! ## What one more value lets through -/

namespace Criteria

variable {ι : Type} {clock : Clock} {localDomain : String} {q : Query} {c c' : Criteria} {k : Key}
  {v : String} {s : Summary ι}

section Insert

variable (hc : ofQuery clock localDomain q = .ok c)
  (hc' : ofQuery clock localDomain (q.insert k v) = .ok c')
include hc hc'

theorem window_eq_of_insert (h : ∀ j, j.isDay = true ∨ j = .dateField →
    (q.insert k v).first? j = q.first? j) : c'.window = c.window := by
  have hw := (ofQuery_eq_ok_iff.1 hc').1
  rw [Window.ofQuery_congr h] at hw
  exact Except.ok.inj (hw.symm.trans (ofQuery_eq_ok_iff.1 hc).1)

theorem window_eq_of_insert_of_has (h : q.has k = true) : c'.window = c.window :=
  window_eq_of_insert hc hc' fun j _ => first?_insert_of_has h v j

theorem window_eq_of_insert_of_ne (hday : k.isDay = false) (hfield : k ≠ .dateField) :
    c'.window = c.window := by
  refine window_eq_of_insert hc hc' fun j hj => first?_insert_of_ne ?_ v
  rintro rfl
  rcases hj with hj | rfl
  · rw [hday] at hj
    cases hj
  · exact hfield rfl

theorem creators_eq_of_insert (h : k ≠ .creator) : c'.creators = c.creators := by
  have hread := (ofQuery_eq_ok_iff.1 hc').2.1
  rw [addresses_insert_of_ne (Ne.symm h)] at hread
  exact Except.ok.inj (hread.symm.trans (ofQuery_eq_ok_iff.1 hc).2.1)

theorem people_eq_of_insert (h : k ≠ .person) : c'.people = c.people := by
  have hread := (ofQuery_eq_ok_iff.1 hc').2.2
  rw [addresses_insert_of_ne (Ne.symm h)] at hread
  exact Except.ok.inj (hread.symm.trans (ofQuery_eq_ok_iff.1 hc).2.2)

theorem people_subset_of_insert : c.people ⊆ c'.people :=
  addresses_subset (fun _ => mem_values_insert) (ofQuery_eq_ok_iff.1 hc).2.2
    (ofQuery_eq_ok_iff.1 hc').2.2

/-- **Another person, a first creator and a first day narrow.** -/
theorem within_of_insert
    (h : k = .person ∨ (k = .creator ∨ k.isDay = true) ∧ q.has k = false) : c'.Within c := by
  have hpeople := people_subset_of_insert hc hc'
  rcases h with rfl | ⟨rfl | hday, hno⟩
  · have hwindow := window_eq_of_insert_of_ne hc hc' rfl (by decide)
    exact ⟨.of_eq hwindow, .inr (creators_eq_of_insert hc hc' (by decide)), hpeople⟩
  · have hwindow := window_eq_of_insert_of_ne hc hc' rfl (by decide)
    have hread := (ofQuery_eq_ok_iff.1 hc).2.1
    rw [addresses_of_values_eq_nil (values_eq_nil_iff.2 hno)] at hread
    exact ⟨.of_eq hwindow, .inl (Except.ok.inj hread).symm, hpeople⟩
  · have hwindow := Window.within_of_insert hday hno (ofQuery_eq_ok_iff.1 hc).1
      (ofQuery_eq_ok_iff.1 hc').1
    have hne : k ≠ .creator := by
      rintro rfl
      cases hday
    exact ⟨hwindow, .inr (creators_eq_of_insert hc hc' hne), hpeople⟩

/-- **Another creator widens.** -/
theorem meets_of_insert_creator (hk : k = .creator) (hhas : q.has .creator = true)
    (hs : c.meets s = true) : c'.meets s = true := by
  subst hk
  obtain ⟨hwindow, hcreators, hpeople⟩ := meets_eq_true_iff.1 hs
  have hread := (ofQuery_eq_ok_iff.1 hc).2.1
  have hread' := (ofQuery_eq_ok_iff.1 hc').2.1
  refine meets_eq_true_iff.2 ⟨?_, ?_, ?_⟩
  · rwa [meetsWindow, window_eq_of_insert_of_has hc hc' hhas]
  · exact meetsCreators_of_subset (addresses_ne_nil hhas hread)
      (addresses_subset (fun _ => mem_values_insert) hread hread') hcreators
  · rwa [meetsPeople, people_eq_of_insert hc hc' (by decide)]

/-- A window stays what it is by a value for a key that it does not depend on, by a day of a key
that has one, and by a date field where there is one; without days it is open for either time. -/
theorem meetsWindow_insert_eq
    (h : k.isDay = false ∧ k ≠ .dateField ∨ k.isDay = true ∧ q.has k = true
      ∨ k = .dateField
        ∧ (q.has .dateField = true ∨ q.has .firstDay = false ∧ q.has .lastDay = false)) :
    c'.meetsWindow s = c.meetsWindow s := by
  have hsame : c'.window = c.window → c'.meetsWindow s = c.meetsWindow s := by
    intro hwindow
    rw [meetsWindow, meetsWindow, hwindow]
  rcases h with ⟨hday, hfield⟩ | ⟨-, hhas⟩ | ⟨rfl, hhas | ⟨hfirst, hlast⟩⟩
  · exact hsame (window_eq_of_insert_of_ne hc hc' hday hfield)
  · exact hsame (window_eq_of_insert_of_has hc hc' hhas)
  · exact hsame (window_eq_of_insert_of_has hc hc' hhas)
  · have hopen := Window.isUnbounded_of_has_eq_false hfirst hlast (ofQuery_eq_ok_iff.1 hc).1
    have hopen' : c'.window.isUnbounded = true := by
      refine Window.isUnbounded_of_has_eq_false ?_ ?_ (ofQuery_eq_ok_iff.1 hc').1
      · rwa [has_insert_of_ne (by decide)]
      · rwa [has_insert_of_ne (by decide)]
    rw [meetsWindow, meetsWindow, hopen, hopen', Bool.true_or, Bool.true_or]

/-- **Nothing changes** by a folder, an id or a tag, by a day of a key that has one, or by a date
field where there is one or where there is no day. -/
theorem meets_insert_eq
    (h : k ∈ [Key.folder, .id, .tag] ∨ k.isDay = true ∧ q.has k = true
      ∨ k = .dateField
        ∧ (q.has .dateField = true ∨ q.has .firstDay = false ∧ q.has .lastDay = false)) :
    c'.meets s = c.meets s := by
  have hcreator : k ≠ .creator := by
    rintro rfl
    simp [Key.isDay] at h
  have hperson : k ≠ .person := by
    rintro rfl
    simp [Key.isDay] at h
  have hwindow : c'.meetsWindow s = c.meetsWindow s := by
    refine meetsWindow_insert_eq hc hc' (h.imp_left fun hk => ?_)
    rcases k <;> simp [Key.isDay] at hk ⊢
  rw [meets, meets, hwindow, meetsCreators, meetsCreators, meetsPeople, meetsPeople,
    creators_eq_of_insert hc hc' hcreator, people_eq_of_insert hc hc' hperson]

end Insert

end Criteria

/-! ## One more token -/

theorem Ranking.ofQuery_insert {q : Query} {k : Key} (h : k ≠ .order) (v : String) :
    ofQuery (q.insert k v) = ofQuery q := by
  rw [ofQuery, ofQuery, sortKeys, sortKeys, values_insert, if_neg (Ne.symm h)]

namespace Plan

variable {clock : Clock} {localDomain s s' : String} {token : List Char} {k : Key} {v : String}
  {q' : Query}

/-- **What one more token does to the results.**  On a clock near UTC, let a text be read whose last
token says a value for a key, and let its people be addresses under the domain.  Then it comes to a
plan, and so does the text without that token.  Whatever the waves, the longer text finds a part of
what the shorter one finds, in the same order, if the key is a person, or if it is a creator or a
day that the shorter text omits.  If it is a creator that the shorter text does not omit, it is the
shorter text that finds a part.  Both find the same if the key is a folder, an id or a tag, or a day
that the shorter text names, or a date field and the shorter text names one or names no day. -/
theorem ids_sublist_of_append (hnear : clock.IsNear) (happ : tokens s' = tokens s ++ [token])
    (hs : Says token k v) (hq' : parse clock s' = .ok q')
    (hpeople : ∀ k, k = .creator ∨ k = .person → ∀ raw ∈ q'.values k,
      ∃ a, Address.ofTyped localDomain raw = .ok a) :
    ∃ p p', ofText clock localDomain s = .ok p ∧ ofText clock localDomain s' = .ok p'
      ∧ ∀ ws : List Wave,
          (k = .person ∨ (k = .creator ∨ k.isDay = true) ∧ Omits k (tokens s) →
            (p'.ids ws).Sublist (p.ids ws))
          ∧ (k = .creator ∧ ¬ Omits .creator (tokens s) → (p.ids ws).Sublist (p'.ids ws))
          ∧ (k ∈ [Key.folder, .id, .tag] ∨ k.isDay = true ∧ ¬ Omits k (tokens s)
              ∨ k = .dateField ∧ (¬ Omits .dateField (tokens s)
                ∨ Omits .firstDay (tokens s) ∧ Omits .lastDay (tokens s)) →
            p'.ids ws = p.ids ws) := by
  obtain ⟨q, w, hq, rfl⟩ := exists_insert_of_parse_append happ hs hq'
  have hpeople₀ : ∀ k, k = .creator ∨ k = .person → ∀ raw ∈ q.values k,
      ∃ a, Address.ofTyped localDomain raw = .ok a :=
    fun k hk raw hraw => hpeople k hk raw (mem_values_insert hraw)
  obtain ⟨c, hc⟩ := Criteria.exists_ofQuery hnear hq hpeople₀
  obtain ⟨c', hc'⟩ := Criteria.exists_ofQuery hnear hq' hpeople
  have homits : ∀ j, Omits j (tokens s) ↔ q.has j = false :=
    fun j => (has_eq_false_iff_omits hq).symm
  refine ⟨⟨c, Ranking.ofQuery q⟩, ⟨c', Ranking.ofQuery (q.insert k w)⟩,
    ofText_eq_ok_iff.2 ⟨q, hq, hc, rfl⟩, ofText_eq_ok_iff.2 ⟨_, hq', hc', rfl⟩, fun ws => ?_⟩
  simp only [homits, Bool.not_eq_false]
  refine ⟨fun h => ?_, fun h => ?_, fun h => ?_⟩
  · have hne : k ≠ .order := by
      rintro rfl
      simp [Key.isDay] at h
    exact ids_sublist_ids (Ranking.ofQuery_insert hne w)
      (fun _ => (Criteria.within_of_insert hc hc' h).meets) ws
  · obtain ⟨rfl, hhas⟩ := h
    exact ids_sublist_ids (Ranking.ofQuery_insert (by decide) w).symm
      (fun _ => Criteria.meets_of_insert_creator hc hc' rfl hhas) ws
  · have hne : k ≠ .order := by
      rintro rfl
      simp [Key.isDay] at h
    have hmeets : ∀ s : Summary String, c'.meets s = c.meets s :=
      fun _ => Criteria.meets_insert_eq hc hc' h
    rw [ids, ids, run, run, funext hmeets, Ranking.ofQuery_insert hne]

/-- Five hours behind UTC, a first creator narrows a search by a day, and a second one widens what
the first has left. -/
theorem ids_sublist_of_append_creators :
    ∃ p₀ p₁ p₂, ofText (Clock.fixed (-18000000)) "example.com" "from:20230101" = .ok p₀
      ∧ ofText (Clock.fixed (-18000000)) "example.com" "from:20230101 creator:ann" = .ok p₁
      ∧ ofText (Clock.fixed (-18000000)) "example.com" "from:20230101 creator:ann creator:@"
          = .ok p₂
      ∧ ∀ ws : List Wave, (p₁.ids ws).Sublist (p₀.ids ws) ∧ (p₁.ids ws).Sublist (p₂.ids ws) := by
  obtain ⟨q₁, q₂, hq₁, hq₂, hcreators₁, hpeople₁, hcreators₂, hpeople₂⟩ : ∃ q₁ q₂,
      parse (Clock.fixed (-18000000)) "from:20230101 creator:ann" = .ok q₁
      ∧ parse (Clock.fixed (-18000000)) "from:20230101 creator:ann creator:@" = .ok q₂
      ∧ q₁.values .creator = ["ann"] ∧ q₁.values .person = []
      ∧ q₂.values .creator = ["ann", "@"] ∧ q₂.values .person = [] :=
    ⟨_, _, rfl, rfl, rfl, rfl, rfl, rfl⟩
  have hday : Says "from:20230101".toList .firstDay "20230101" := splitToken?_eq_some_iff.1 rfl
  have hann : Says "creator:ann".toList .creator "ann" := splitToken?_eq_some_iff.1 rfl
  have hall : Says "creator:@".toList .creator "@" := splitToken?_eq_some_iff.1 rfl
  have hresolve₁ : ∀ k, k = .creator ∨ k = .person → ∀ raw ∈ q₁.values k,
      ∃ a, Address.ofTyped "example.com" raw = .ok a := by
    rintro k (rfl | rfl) raw hraw
    · rw [hcreators₁] at hraw
      exact List.mem_singleton.1 hraw ▸ ⟨_, rfl⟩
    · rw [hpeople₁] at hraw
      exact absurd hraw List.not_mem_nil
  have hresolve₂ : ∀ k, k = .creator ∨ k = .person → ∀ raw ∈ q₂.values k,
      ∃ a, Address.ofTyped "example.com" raw = .ok a := by
    rintro k (rfl | rfl) raw hraw
    · rw [hcreators₂] at hraw
      rcases List.mem_pair.1 hraw with rfl | rfl
      · exact ⟨_, rfl⟩
      · exact ⟨_, rfl⟩
    · rw [hpeople₂] at hraw
      exact absurd hraw List.not_mem_nil
  have happ₁ : tokens "from:20230101 creator:ann"
      = tokens "from:20230101" ++ ["creator:ann".toList] := rfl
  have happ₂ : tokens "from:20230101 creator:ann creator:@"
      = tokens "from:20230101 creator:ann" ++ ["creator:@".toList] := rfl
  have hnear : (Clock.fixed (-18000000)).IsNear := Clock.isNear_fixed (by decide) (by decide)
  obtain ⟨p₀, p₁, hp₀, hp₁, hfirst⟩ := ids_sublist_of_append hnear happ₁ hann hq₁ hresolve₁
  obtain ⟨p₁', p₂, hp₁', hp₂, hsecond⟩ := ids_sublist_of_append hnear happ₂ hall hq₂ hresolve₂
  obtain rfl : p₁' = p₁ := Except.ok.inj (hp₁'.symm.trans hp₁)
  refine ⟨p₀, p₁', p₂, hp₀, hp₁, hp₂, fun ws => ⟨(hfirst ws).1 (.inr ⟨.inl rfl, ?_⟩),
    (hsecond ws).2.1 ⟨rfl, fun homits => homits _ (by decide) _ hann⟩⟩⟩
  intro t ht v hv
  obtain rfl : t = "from:20230101".toList := List.mem_singleton.1 ht
  exact absurd (hday.unique hv).1 (by decide)

end Plan

end WaveFinder
