import WaveFinder.Proofs.Query.Reading

/-!
# Proofs/Query/RoundTrip — what is written is read as what it was written from

    text ──parse──▸ query ──render──▸ text ──parse──▸ the same query

A day is kept as an instant, but its token can be told from the instant on every clock
(`map_tokenText_of_tells`).  So a query that was read is written with tokens of the text that it was
read from, one for each pair that it holds (`tokenTexts_of_parse`), and these tell the same pairs
again.  Nothing is assumed about the clock beyond what reading checks.
-/

namespace WaveFinder

open Text

/-- The instant of a day that is read is a number that a query can hold. -/
theorem Clock.fitsWord_of_readDay? {c : Clock} {cs : List Char} {t : Int}
    (h : c.readDay? cs = some t) : Numeral.fitsWord t = true := by
  obtain ⟨d, -, hd⟩ := readDay?_eq_some_iff.1 h
  exact fitsWord_of_startOfDate? (startOfDate?_eq_some_iff.2 hd)

namespace Query

variable {c : Clock} {s : String} {q : Query}

/-! ## The token of a pair -/

/-- **What is kept of a value is written as the value**: a day as its digits, and everything else
as it is. -/
theorem valueText_of_keeps {k : Key} {v w : String} (h : Keeps c k v w) :
    valueText c k w = .ok v := by
  have hday : k.isDay = true → (∃ t, c.readDay? v.toList = some t
      ∧ w = String.ofList (Numeral.ofInt t)) → valueText c k w = .ok v := by
    rintro hk ⟨t, ht, rfl⟩
    rw [valueText, if_pos hk, String.toList_ofList,
      Numeral.toWord?_ofInt (Clock.fitsWord_of_readDay? ht)]
    dsimp only
    rw [Clock.dayText_of_readDay? ht]
    exact congrArg Except.ok String.ofList_toList
  rcases k
  case firstDay => exact hday rfl h
  case lastDay => exact hday rfl h
  case order => exact congrArg Except.ok h.1
  case dateField => exact congrArg Except.ok h.1
  all_goals exact congrArg Except.ok h

/-- **The pair that a token tells is written as the token.** -/
theorem map_tokenText_of_tells {token : List Char} {p : Key × String} (h : Tells c token p) :
    (valueText c p.1 p.2).map (tokenText p.1) = .ok (String.ofList token) := by
  obtain ⟨v, hs, hkeep⟩ := h
  exact Except.map_eq_ok_iff.2 ⟨v, valueText_of_keeps hkeep, hs.tokenText_eq⟩

/-! ## The tokens of a query -/

/-- Tokens of a text, with a space between them, are the tokens of the text that they make. -/
theorem tokens_intercalate {ts : List (List Char)} (h : ∀ t ∈ ts, t ∈ tokens s) :
    tokens (" ".intercalate (ts.map String.ofList)) = ts :=
  tokens_intercalate_of_words fun t ht => mem_runs (h t ht)

/-- What a query holds was told by tokens of the text that it was read from. -/
theorem exists_tells_of_mem_pairs (h : parse c s = .ok q) {p : Key × String} (hp : p ∈ q.pairs) :
    ∃ t, t ∈ tokens s ∧ Tells c t p := by
  obtain ⟨ps, htells, -, rfl⟩ := parse_eq_ok_iff.1 h
  have hmem : p ∈ ps := by
    have hv := mem_pairs.1 (show (p.1, p.2) ∈ _ from hp)
    rw [values_insertAll_empty, List.mem_eraseDups] at hv
    exact mem_given.1 hv
  obtain ⟨t, ht, htells⟩ := exists_left_of_mem htells hmem
  exact ⟨t, ht, htells⟩

/-- **A query that was read is written with tokens of the text that it was read from**, one for
each of its pairs. -/
theorem tokenTexts_of_parse (h : parse c s = .ok q) :
    ∃ ts, q.tokenTexts c = .ok (ts.map String.ofList) ∧ (∀ t ∈ ts, t ∈ tokens s)
      ∧ List.Forall₂ (Tells c) ts q.pairs := by
  obtain ⟨ts, hts⟩ := exists_forall₂ fun p hp => exists_tells_of_mem_pairs h (p := p) hp
  refine ⟨ts, ?_, fun t ht => ?_, hts.flip.imp fun t p ht => ht.2⟩
  · refine Except.mapM_eq_ok_iff.2 (List.forall₂_map_right_iff.2 (hts.imp fun p t ht => ?_))
    exact map_tokenText_of_tells ht.2
  · obtain ⟨p, -, ht, -⟩ := exists_left_of_mem hts ht
    exact ht

/-! ## Reading what was written -/

theorem nodup_values_of_parse (h : parse c s = .ok q) (k : Key) : (q.values k).Nodup := by
  obtain ⟨ps, -, -, rfl⟩ := parse_eq_ok_iff.1 h
  rw [values_insertAll_empty]
  exact nodup_eraseDups _

theorem dateFieldsAgree_pairs_of_parse (h : parse c s = .ok q) : DateFieldsAgree none q.pairs := by
  obtain ⟨ps, -, hagree, rfl⟩ := parse_eq_ok_iff.1 h
  intro v hv w hw
  rw [Option.toList_none, List.nil_append, given_pairs, values_insertAll_empty,
    List.mem_eraseDups] at hv hw
  exact hagree v hv w hw

/-- The text that is written for a query that was read is read as the query. -/
theorem parse_of_render {text : String} (h : parse c s = .ok q) (hr : q.render c = .ok text) :
    parse c text = .ok q := by
  obtain ⟨ts, hwritten, hmem, htells⟩ := tokenTexts_of_parse h
  rw [render, hwritten] at hr
  obtain rfl : " ".intercalate (ts.map String.ofList) = text := Except.ok.inj hr
  refine parse_eq_ok_iff.2 ⟨q.pairs, ?_, dateFieldsAgree_pairs_of_parse h, ?_⟩
  · rwa [tokens_intercalate hmem]
  · exact (insertAll_pairs (nodup_values_of_parse h)).symm

theorem exists_render (h : parse c s = .ok q) : ∃ text, q.render c = .ok text := by
  obtain ⟨ts, hwritten, -, -⟩ := tokenTexts_of_parse h
  exact ⟨_, Except.map_eq_ok_iff.2 ⟨_, hwritten, rfl⟩⟩

/-- **What is written for a query that was read is read as the query again**, on every clock: under
each key the same values in the same order. -/
theorem parse_render (h : parse c s = .ok q) :
    ∃ text, q.render c = .ok text ∧ parse c text = .ok q := by
  obtain ⟨text, hr⟩ := exists_render h
  exact ⟨text, hr, parse_of_render h hr⟩

/-- A clock that is an hour ahead of UTC until it is put back, which makes the first midnight of 1970
come twice. -/
def clockPutBack : Clock where
  offsetAt t := if t < 0 then 3600000 else 0
  occurrences w :=
    if w < 0 then .once (w - 3600000) else if w < 3600000 then .twice (w - 3600000) w else .once w

/-- A day that begins twice is kept as the first of its two beginnings and comes back. -/
theorem parse_render_clockPutBack :
    ∃ q, parse clockPutBack "with:b from:19700101 with:a from:19691231 with:b" = .ok q
      ∧ q.values .firstDay = ["-3600000", "-90000000"]
      ∧ ∃ text, q.render clockPutBack = .ok text ∧ parse clockPutBack text = .ok q :=
  ⟨_, rfl, rfl, parse_render (s := "with:b from:19700101 with:a from:19691231 with:b") rfl⟩

end Query

end WaveFinder
