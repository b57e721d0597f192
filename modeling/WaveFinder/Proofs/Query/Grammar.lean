import WaveFinder.Proofs.Query.Reading
import WaveFinder.Proofs.Zone.FixedDays

/-!
# Proofs/Query/Grammar — the texts that are queries, and what they mean

On a clock with a fixed offset the query language has a grammar that does not mention the clock:
`IsGrammatical` says which lists of tokens make up a query.  What a token means depends on the
clock only through the offset (`Means`).  Exactly the grammatical texts are read, and as what their
tokens mean (`parse_fixed_eq_ok_iff`).  UTC is the clock with the offset 0.
-/

namespace WaveFinder.Query

open Text

/-! ## The grammar -/

/-- Whether a value may stand after the colon of a key: orders and date fields have their tokens,
days have eight digits that name a date, and the other keys take anything. -/
def Fits (k : Key) (v : String) : Prop :=
  match k with
  | .order => ∃ o : SortKey, o.token = v
  | .dateField => ∃ f : DateField, f.token = v
  | .firstDay | .lastDay => ∃ d : Date, d.IsNamedBy v.toList
  | .folder | .person | .creator | .id | .tag => True

/-- The lists of tokens that make up a query. -/
structure IsGrammatical (ts : List (List Char)) : Prop where
  /-- Every token says that a key has a value that fits it. -/
  fits : ∀ t ∈ ts, ∃ k v, Says t k v ∧ Fits k v
  /-- There is one date field at most, however often it is named. -/
  dateFields : ∀ t ∈ ts, ∀ u ∈ ts, ∀ v w, Says t .dateField v → Says u .dateField w → v = w

/-- What a value comes to at an offset: a day is the decimal text of the instant of its midnight,
and everything else stays as it is. -/
def ComesTo (o : Int) (k : Key) (v w : String) : Prop :=
  if k.isDay then ∃ d : Date, d.IsNamedBy v.toList ∧ w = toString (d.midnight - o) else w = v

/-- What a token means at an offset: the key that it says, and what the value that it says comes
to. -/
def Means (o : Int) (token : List Char) (p : Key × String) : Prop :=
  ∃ v, Says token p.1 v ∧ ComesTo o p.1 v p.2

/-! ## Values and tokens on a fixed clock -/

section Fixed

variable {o : Int}

theorem keeps_day_fixed_iff (h₀ : -dayMillis < o) (h₁ : o < dayMillis) {v w : String} :
    (∃ t, (Clock.fixed o).readDay? v.toList = some t ∧ w = String.ofList (Numeral.ofInt t))
      ↔ ∃ d : Date, d.IsNamedBy v.toList ∧ w = toString (d.midnight - o) := by
  constructor
  · rintro ⟨t, ht, rfl⟩
    obtain ⟨d, hd, rfl⟩ := (Clock.readDay?_fixed_eq_some_iff h₀ h₁).1 ht
    exact ⟨d, hd, ofList_ofInt _⟩
  · rintro ⟨d, hd, rfl⟩
    exact ⟨_, (Clock.readDay?_fixed_eq_some_iff h₀ h₁).2 ⟨d, hd, rfl⟩, (ofList_ofInt _).symm⟩

/-- **On a fixed clock a value is kept if it fits, and as what it comes to.** -/
theorem keeps_fixed_iff (h₀ : -dayMillis < o) (h₁ : o < dayMillis) {k : Key} {v w : String} :
    Keeps (Clock.fixed o) k v w ↔ Fits k v ∧ ComesTo o k v w := by
  have hday : (∃ t, (Clock.fixed o).readDay? v.toList = some t
        ∧ w = String.ofList (Numeral.ofInt t))
      ↔ (∃ d : Date, d.IsNamedBy v.toList)
        ∧ ∃ d : Date, d.IsNamedBy v.toList ∧ w = toString (d.midnight - o) := by
    rw [keeps_day_fixed_iff h₀ h₁]
    exact ⟨fun ⟨d, hd, hw⟩ => ⟨⟨d, hd⟩, d, hd, hw⟩, And.right⟩
  rcases k <;> simp only [Keeps, Fits, ComesTo, Key.isDay]
  case firstDay => exact hday
  case lastDay => exact hday
  case order => exact and_comm
  case dateField => exact and_comm
  all_goals exact (iff_of_eq (true_and _)).symm

/-- A value that fits comes to something. -/
theorem exists_comesTo {k : Key} {v : String} (h : Fits k v) (o : Int) : ∃ w, ComesTo o k v w := by
  rcases k <;> simp only [Fits, ComesTo, Key.isDay] at h ⊢
  case firstDay =>
    obtain ⟨d, hd⟩ := h
    exact ⟨_, d, hd, rfl⟩
  case lastDay =>
    obtain ⟨d, hd⟩ := h
    exact ⟨_, d, hd, rfl⟩
  all_goals exact ⟨v, rfl⟩

theorem tells_fixed_iff (h₀ : -dayMillis < o) (h₁ : o < dayMillis) {t : List Char}
    {p : Key × String} :
    Tells (Clock.fixed o) t p ↔ ∃ v, Says t p.1 v ∧ Fits p.1 v ∧ ComesTo o p.1 v p.2 := by
  simp only [Tells, keeps_fixed_iff h₀ h₁]

end Fixed

/-! ## Texts on a fixed clock -/

section Texts

variable {o : Int} {ts : List (List Char)} {ps : List (Key × String)}

/-- Tokens that tell pairs are those that fit, and the pairs are what they mean. -/
theorem forall₂_tells_fixed_iff (h₀ : -dayMillis < o) (h₁ : o < dayMillis) :
    List.Forall₂ (Tells (Clock.fixed o)) ts ps
      ↔ (∀ t ∈ ts, ∃ k v, Says t k v ∧ Fits k v) ∧ List.Forall₂ (Means o) ts ps := by
  constructor
  · intro h
    refine ⟨fun t ht => ?_, h.imp fun t p htells => ?_⟩
    · obtain ⟨p, -, htells⟩ := exists_right_of_mem h ht
      obtain ⟨v, hs, hfit, -⟩ := (tells_fixed_iff h₀ h₁).1 htells
      exact ⟨p.1, v, hs, hfit⟩
    · obtain ⟨v, hs, -, hcomes⟩ := (tells_fixed_iff h₀ h₁).1 htells
      exact ⟨v, hs, hcomes⟩
  · rintro ⟨hfits, h⟩
    induction h with
    | nil => exact .nil
    | @cons t p ts ps hmeans _ ih =>
      refine .cons ?_ (ih fun u hu => hfits u (List.mem_cons_of_mem _ hu))
      obtain ⟨v, hs, hcomes⟩ := hmeans
      obtain ⟨k, w, hs', hfit⟩ := hfits t (List.mem_cons_self ..)
      obtain ⟨rfl, rfl⟩ := hs.unique hs'
      exact (tells_fixed_iff h₀ h₁).2 ⟨v, hs, hfit, hcomes⟩

/-- The date fields that tokens name are those of the pairs that they mean. -/
theorem mem_given_dateField_iff (h : List.Forall₂ (Means o) ts ps) {v : String} :
    v ∈ given .dateField ps ↔ ∃ t ∈ ts, Says t .dateField v := by
  rw [mem_given]
  constructor
  · intro hv
    obtain ⟨t, ht, w, hs, hw⟩ := exists_left_of_mem h hv
    obtain rfl : v = w := hw
    exact ⟨t, ht, hs⟩
  · rintro ⟨t, ht, hs⟩
    obtain ⟨⟨k, w⟩, hp, u, hs', hw⟩ := exists_right_of_mem h ht
    obtain ⟨rfl, rfl⟩ := hs.unique hs'
    obtain rfl : w = v := hw
    exact hp

theorem dateFieldsAgree_iff (h : List.Forall₂ (Means o) ts ps) :
    DateFieldsAgree none ps
      ↔ ∀ t ∈ ts, ∀ u ∈ ts, ∀ v w, Says t .dateField v → Says u .dateField w → v = w := by
  simp only [DateFieldsAgree, Option.toList_none, List.nil_append, mem_given_dateField_iff h]
  constructor
  · intro hagree t ht u hu v w hv hw
    exact hagree v ⟨t, ht, hv⟩ w ⟨u, hu, hw⟩
  · rintro hagree v ⟨t, ht, hv⟩ w ⟨u, hu, hw⟩
    exact hagree t ht u hu v w hv hw

/-- **Reading a text on a fixed clock**: the text must be grammatical, and the query is made of the
pairs that its tokens mean. -/
theorem parse_fixed_eq_ok_iff (h₀ : -dayMillis < o) (h₁ : o < dayMillis) {s : String} {q : Query} :
    parse (Clock.fixed o) s = .ok q
      ↔ IsGrammatical (tokens s)
          ∧ ∃ ps, List.Forall₂ (Means o) (tokens s) ps ∧ q = empty.insertAll ps := by
  rw [parse_eq_ok_iff]
  constructor
  · rintro ⟨ps, htells, hagree, rfl⟩
    obtain ⟨hfits, hmeans⟩ := (forall₂_tells_fixed_iff h₀ h₁).1 htells
    exact ⟨⟨hfits, (dateFieldsAgree_iff hmeans).1 hagree⟩, ps, hmeans, rfl⟩
  · rintro ⟨hgram, ps, hmeans, rfl⟩
    exact ⟨ps, (forall₂_tells_fixed_iff h₀ h₁).2 ⟨hgram.fits, hmeans⟩,
      (dateFieldsAgree_iff hmeans).2 hgram.dateFields, rfl⟩

/-- The tokens of a grammatical text have a meaning. -/
theorem IsGrammatical.exists_means (h : IsGrammatical ts) (o : Int) :
    ∃ ps, List.Forall₂ (Means o) ts ps := by
  refine exists_forall₂ fun t ht => ?_
  obtain ⟨k, v, hs, hfit⟩ := h.fits t ht
  obtain ⟨w, hw⟩ := exists_comesTo hfit o
  exact ⟨(k, w), v, hs, hw⟩

/-- **Exactly the grammatical texts are read, and as what their tokens mean.**  The tokens are the
maximal runs of a text between ASCII blanks; under each key the query holds the values that they
give for it, in the order in which they first came. -/
theorem parse_fixed (h₀ : -dayMillis < o) (h₁ : o < dayMillis) (s : String) :
    MaximalRuns isAsciiBlank s.toList (tokens s)
      ∧ ((∃ q, parse (Clock.fixed o) s = .ok q) ↔ IsGrammatical (tokens s))
      ∧ ∀ q, parse (Clock.fixed o) s = .ok q →
          ∃ ps, List.Forall₂ (Means o) (tokens s) ps
            ∧ ∀ k, q.values k = (given k ps).eraseDups := by
  refine ⟨maximalRuns_iff.2 rfl, ⟨?_, ?_⟩, ?_⟩
  · rintro ⟨q, hq⟩
    exact ((parse_fixed_eq_ok_iff h₀ h₁).1 hq).1
  · intro hgram
    obtain ⟨ps, hps⟩ := hgram.exists_means o
    exact ⟨_, (parse_fixed_eq_ok_iff h₀ h₁).2 ⟨hgram, ps, hps, rfl⟩⟩
  · intro q hq
    obtain ⟨-, ps, hps, rfl⟩ := (parse_fixed_eq_ok_iff h₀ h₁).1 hq
    exact ⟨ps, hps, values_insertAll_empty ps⟩

/-- Half past five ahead of UTC, the last day of the first February is a day, and a vertical tab
does not part the words. -/
theorem parse_fixed_leapDay :
    IsGrammatical (tokens "from:00000229 with:a\x0bb")
      ∧ ¬ IsGrammatical (tokens "from:21000229 with:a\x0bb") := by
  have hread := parse_fixed (o := 19800000) (by decide) (by decide) "from:00000229 with:a\x0bb"
  have hfail := parse_fixed (o := 19800000) (by decide) (by decide) "from:21000229 with:a\x0bb"
  refine ⟨hread.2.1.1 ⟨_, rfl⟩, fun hgram => ?_⟩
  obtain ⟨q, hq⟩ := hfail.2.1.2 hgram
  cases hq

end Texts

end WaveFinder.Query
