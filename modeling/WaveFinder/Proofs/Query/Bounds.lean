import WaveFinder.Proofs.Query.Grammar

/-!
# Proofs/Query/Bounds — what a text says about the times of a search

A text may omit a key (`Omits`); if it does not, and the key is one of days, then only the first of
the dates that it names there is ever looked at (`FirstDate`).  The query has the beginning of that
date for its instant, and 0 where the key is omitted (`instant_cases_of_parse`); on a clock with a
fixed offset a date begins at its midnight (`instant_cases`).  Of the two times of a document the
text picks one (`fieldNamed`), and so does the query (`getD_dateField?`).
-/

namespace WaveFinder

open Text

namespace Query

variable {c : Clock} {o : Int} {k : Key} {d e : Date} {ts : List (List Char)}
  {ps : List (Key × String)} {s : String} {q : Query}

/-! ## The first of the dates -/

/-- No token says anything for the key. -/
def Omits (k : Key) (ts : List (List Char)) : Prop :=
  ∀ t ∈ ts, ∀ v, ¬ Says t k v

/-- The first of the tokens that say something for the key says a date. -/
inductive FirstDate (k : Key) (d : Date) : List (List Char) → Prop
  | here {t v ts} : Says t k v → d.IsNamedBy v.toList → FirstDate k d (t :: ts)
  | later {t ts} : (∀ v, ¬ Says t k v) → FirstDate k d ts → FirstDate k d (t :: ts)

theorem FirstDate.unique (hd : FirstDate k d ts) (he : FirstDate k e ts) : d = e := by
  induction hd with
  | here hs hd =>
    rcases he with ⟨hs', he⟩ | ⟨hno, -⟩
    · obtain ⟨-, rfl⟩ := hs.unique hs'
      exact hd.unique he
    · exact absurd hs (hno _)
  | later hno _ ih =>
    rcases he with ⟨hs, -⟩ | ⟨-, he⟩
    · exact absurd hs (hno _)
    · exact ih he

theorem FirstDate.not_omits (h : FirstDate k d ts) : ¬ Omits k ts := by
  induction h with
  | here hs _ => exact fun hno => hno _ (List.mem_cons_self ..) _ hs
  | later _ _ ih => exact fun hno => ih fun t ht => hno t (List.mem_cons_of_mem _ ht)

/-- What holds of the first date, if there is one, holds of the one that there is. -/
theorem FirstDate.omits_or_exists_iff (h : FirstDate k d ts) {P : Date → Prop} :
    (Omits k ts ∨ ∃ e, FirstDate k e ts ∧ P e) ↔ P d := by
  rw [or_iff_right h.not_omits]
  constructor
  · rintro ⟨e, he, hP⟩
    exact h.unique he ▸ hP
  · exact fun hP => ⟨d, h, hP⟩

theorem FirstDate.year_bounds (h : FirstDate k d ts) : 0 ≤ d.year ∧ d.year ≤ 9999 := by
  induction h with
  | here _ hd => exact hd.year_bounds
  | later _ _ ih => exact ih

/-! ## What is kept of the first date -/

theorem keeps_day_iff (hk : k.isDay = true) {v w : String} :
    Keeps c k v w ↔ ∃ d t, d.IsNamedBy v.toList ∧ c.startOfDate? d = some t
      ∧ w = String.ofList (Numeral.ofInt t) := by
  have hread : (∃ t, c.readDay? v.toList = some t ∧ w = String.ofList (Numeral.ofInt t))
      ↔ ∃ d t, d.IsNamedBy v.toList ∧ c.startOfDate? d = some t
        ∧ w = String.ofList (Numeral.ofInt t) := by
    simp only [Clock.readDay?_eq_some_iff_isNamedBy]
    exact ⟨fun ⟨t, ⟨d, hd, ht⟩, hw⟩ => ⟨d, t, hd, ht, hw⟩,
      fun ⟨d, t, hd, ht, hw⟩ => ⟨t, ⟨d, hd, ht⟩, hw⟩⟩
  rcases k
  case firstDay => exact hread
  case lastDay => exact hread
  all_goals exact absurd hk (by decide)

/-- **The first value that tokens give under a key of days** is the beginning of their first date;
there is none if they omit the key. -/
theorem head?_given_cases (hk : k.isDay = true) (h : List.Forall₂ (Tells c) ts ps) :
    (Omits k ts ∧ (given k ps).head? = none)
      ∨ ∃ d t, FirstDate k d ts ∧ c.startOfDate? d = some t
        ∧ (given k ps).head? = some (String.ofList (Numeral.ofInt t)) := by
  induction h with
  | nil => exact .inl ⟨fun t ht => absurd ht List.not_mem_nil, rfl⟩
  | @cons token p ts ps htells _ ih =>
    obtain ⟨j, u⟩ := p
    obtain ⟨v, hs, hkeep⟩ := htells
    by_cases hj : j = k
    · subst hj
      obtain ⟨d, t, hd, ht, rfl⟩ := (keeps_day_iff hk).1 hkeep
      exact .inr ⟨d, t, .here hs hd, ht, by rw [given_cons_self, List.head?_cons]⟩
    · have hno : ∀ v, ¬ Says token k v := fun v hv => hj (hs.unique hv).1
      rw [given_cons_of_ne hj]
      rcases ih with ⟨homits, hnone⟩ | ⟨d, t, hd, ht, hsome⟩
      · exact .inl ⟨List.forall_mem_cons.2 ⟨hno, homits⟩, hnone⟩
      · exact .inr ⟨d, t, .later hno hd, ht, hsome⟩

theorem has_eq_isSome_first? (q : Query) (k : Key) : q.has k = (q.first? k).isSome := by
  rw [has, first?]
  cases q.values k <;> rfl

theorem first?_eq_none_iff : q.first? k = none ↔ q.has k = false := by
  rw [has_eq_isSome_first?, Option.isSome_eq_false_iff, Option.isNone_iff_eq_none]

theorem values_eq_nil_iff : q.values k = [] ↔ q.has k = false := by
  rw [has, Bool.not_eq_false', List.isEmpty_iff]

theorem instant_of_first? {t : Int} (h : q.first? k = some (String.ofList (Numeral.ofInt t)))
    (ht : Numeral.fitsWord t = true) : q.instant k = t := by
  rw [instant, h, Option.bind_some, String.toList_ofList, Numeral.toWord?_ofInt ht,
    Option.getD_some]

/-- **The instant of a query for a key of days** is the beginning of the first date that the text
names under the key, and 0 if the text omits the key. -/
theorem instant_cases_of_parse (hk : k.isDay = true) (hq : parse c s = .ok q) :
    (Omits k (tokens s) ∧ q.has k = false ∧ q.instant k = 0)
      ∨ ∃ d, FirstDate k d (tokens s) ∧ q.has k = true
        ∧ c.startOfDate? d = some (q.instant k) := by
  obtain ⟨ps, htells, -, rfl⟩ := parse_eq_ok_iff.1 hq
  rw [has_eq_isSome_first?]
  rcases head?_given_cases hk htells with ⟨homits, hnone⟩ | ⟨d, t, hd, ht, hsome⟩
  · rw [← first?_insertAll_empty] at hnone
    rw [instant, hnone]
    exact .inl ⟨homits, rfl, rfl⟩
  · rw [← first?_insertAll_empty] at hsome
    rw [instant_of_first? hsome (Clock.fitsWord_of_startOfDate? ht), hsome]
    exact .inr ⟨d, hd, rfl, ht⟩

/-- On a clock with a fixed offset the first date begins at the instant of its midnight. -/
theorem instant_cases (h₀ : -dayMillis < o) (h₁ : o < dayMillis) (hk : k.isDay = true)
    (hq : parse (Clock.fixed o) s = .ok q) :
    (Omits k (tokens s) ∧ q.has k = false ∧ q.instant k = 0)
      ∨ ∃ d, FirstDate k d (tokens s) ∧ q.has k = true ∧ q.instant k = d.midnight - o := by
  refine (instant_cases_of_parse hk hq).imp_right (Exists.imp fun d ⟨hd, hhas, hstart⟩ => ?_)
  rw [Clock.startOfDate?_fixed h₀ h₁ hd.year_bounds, Option.some.injEq] at hstart
  exact ⟨hd, hhas, hstart.symm⟩

/-! ## The date field -/

/-- The time of a document that tokens pick: its creation if one of them says so, and otherwise its
last modification. -/
def fieldNamed (ts : List (List Char)) : DateField :=
  if "usedate:createdate".toList ∈ ts then .created else .modified

theorem says_dateField_iff {t : List Char} {f : DateField} :
    Says t .dateField f.token ↔ t = (tokenText .dateField f.token).toList := by
  rw [says_iff, toList_tokenText]
  refine and_iff_left ?_
  rcases f <;> decide

/-- **The date field of a query is the one that its text picks.** -/
theorem getD_dateField? (h₀ : -dayMillis < o) (h₁ : o < dayMillis)
    (hq : parse (Clock.fixed o) s = .ok q) :
    q.dateField?.getD .modified = fieldNamed (tokens s) := by
  obtain ⟨hgram, ps, hps, rfl⟩ := (parse_fixed_eq_ok_iff h₀ h₁).1 hq
  have hmem := fun v => mem_given_dateField_iff hps (v := v)
  have hcreated : "usedate:createdate".toList
      = (tokenText .dateField DateField.created.token).toList := rfl
  rw [dateField?, first?_insertAll_empty, fieldNamed, hcreated]
  rcases hfirst : (given .dateField ps).head? with _ | v
  · rw [if_neg]
    · rfl
    · intro ht
      have := (hmem _).2 ⟨_, ht, says_dateField_iff.2 rfl⟩
      rw [List.head?_eq_none_iff.1 hfirst] at this
      exact absurd this List.not_mem_nil
  · obtain ⟨t, ht, hs⟩ := (hmem v).1 (List.mem_of_mem_head? hfirst)
    obtain ⟨k, w, hs', hfit⟩ := hgram.fits t ht
    obtain ⟨rfl, rfl⟩ := hs.unique hs'
    obtain ⟨f, rfl⟩ := hfit
    rw [Option.bind_some, DateField.ofToken?_token, Option.getD_some]
    rcases f with _ | _
    · rw [if_pos (says_dateField_iff.1 hs ▸ ht)]
    · rw [if_neg]
      intro hu
      have := hgram.dateFields _ hu _ ht _ _ (says_dateField_iff.2 rfl) hs
      exact absurd this (by decide)

end Query

end WaveFinder
