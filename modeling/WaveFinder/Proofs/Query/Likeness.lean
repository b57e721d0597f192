import Mathlib.Data.List.Perm.Basic
import WaveFinder.Proofs.Query.Invariant

/-!
# Proofs/Query/Likeness — how far queries that are alike agree

Queries are alike if they hold the same values under each key, in whatever order (`Query.alike`).
The order matters to everything that is made of a query, though: the first sort key decides first, a
search looks at the first day of a key only, and values are written as they come.  So queries that
are alike ask for the same sort keys and are written with the same tokens, each in an order of its
own; and they rank, date and read alike only as far as their values come in the same order
(`agree_iff_of_alike`).
-/

namespace WaveFinder.Query

open Text

variable {c d e : Clock} {s t : String} {p q : Query} {k : Key}

/-! ## The same values -/

/-- **Queries that are alike hold the same values**, in some order, since neither holds a value
twice. -/
theorem perm_values_of_alike (hp : parse c s = .ok p) (hq : parse d t = .ok q)
    (h : p.alike q = true) (k : Key) : (p.values k).Perm (q.values k) :=
  (List.perm_ext_iff_of_nodup (nodup_values_of_parse hp k) (nodup_values_of_parse hq k)).2
    (alike_iff.1 h k)

section Perm

variable (h : ∀ k, (p.values k).Perm (q.values k))
include h

theorem has_eq_of_perm (k : Key) : p.has k = q.has k := by
  rw [has, has, (h k).isEmpty_eq]

/-- The pairs of such queries are the same, in some order. -/
theorem perm_pairs : p.pairs.Perm q.pairs := by
  have hkeys : p.keys = q.keys := List.filter_congr fun k _ => has_eq_of_perm h k
  rw [pairs_eq_flatMap, pairs_eq_flatMap, hkeys]
  exact List.Perm.flatMap_left _ fun k _ => (h k).map _

/-- **The tokens that such queries are written with are the same**, in some order. -/
theorem exists_perm_tokenTexts {ts : List String} (hts : p.tokenTexts e = .ok ts) :
    ∃ us, q.tokenTexts e = .ok us ∧ ts.Perm us := by
  have hpairs := Except.mapM_eq_ok_iff.1 hts
  obtain ⟨us, hus, hperm⟩ := List.perm_comp_forall₂ (perm_pairs h).symm hpairs
  exact ⟨us, Except.mapM_eq_ok_iff.2 hus, hperm.symm⟩

/-- **The texts of such queries have the same tokens**, in some order. -/
theorem exists_perm_tokens (hp : parse c s = .ok p) (hq : parse d t = .ok q) {text : String}
    (hr : p.render e = .ok text) :
    ∃ text', q.render e = .ok text' ∧ (tokens text).Perm (tokens text') := by
  obtain ⟨ts, hts, htokens⟩ := tokens_of_render hp hr
  obtain ⟨us, hus, hperm⟩ := exists_perm_tokenTexts h hts
  have hr' : q.render e = .ok (" ".intercalate us) := Except.map_eq_ok_iff.2 ⟨us, hus, rfl⟩
  obtain ⟨us', hus', htokens'⟩ := tokens_of_render hq hr'
  obtain rfl : us = us' := Except.ok.inj (hus.symm.trans hus')
  refine ⟨_, hr', ?_⟩
  rw [htokens, htokens']
  exact hperm.map String.toList

theorem perm_sortKeys : p.sortKeys.Perm q.sortKeys :=
  (h .order).filterMap _

theorem sortKeys_eq_nil_iff : p.sortKeys = [] ↔ q.sortKeys = [] := by
  rw [← List.length_eq_zero_iff, (perm_sortKeys h).length_eq, List.length_eq_zero_iff]

/-- **The sort keys of their rankings are the same**, in some order. -/
theorem perm_keys_ranking : (Ranking.ofQuery p).keys.Perm (Ranking.ofQuery q).keys := by
  have hnone := sortKeys_eq_nil_iff h
  rw [Ranking.ofQuery, Ranking.ofQuery, Ranking.keys_ofKeys, Ranking.keys_ofKeys]
  by_cases hp : p.sortKeys = []
  · rw [if_pos hp, if_pos (hnone.1 hp)]
  · rw [if_neg hp, if_neg fun hq => hp (hnone.2 hq)]
    exact perm_sortKeys h

theorem sortKeys_eq_of_ranking_eq (hr : Ranking.ofQuery p = Ranking.ofQuery q) :
    p.sortKeys = q.sortKeys := by
  have hnone := sortKeys_eq_nil_iff h
  have hkeys := congrArg Ranking.keys hr
  rw [Ranking.ofQuery, Ranking.ofQuery, Ranking.keys_ofKeys, Ranking.keys_ofKeys] at hkeys
  by_cases hp : p.sortKeys = []
  · rw [hp, hnone.1 hp]
  · rwa [if_neg hp, if_neg fun hq => hp (hnone.2 hq)] at hkeys

end Perm

/-! ## The same order -/

/-- What a query ranks by can be told from the sort keys that it names. -/
theorem values_order_eq_map_sortKeys (hq : parse c s = .ok q) :
    q.values .order = q.sortKeys.map SortKey.token := by
  rw [values_order_of_parse hq, sortKeys_of_parse hq]

/-- The first day of a key is the decimal text of the instant that the query has for it. -/
theorem first?_of_has (hk : k.isDay = true) (hq : parse c s = .ok q) (h : q.has k = true) :
    q.first? k = some (String.ofList (Numeral.ofInt (q.instant k))) := by
  obtain ⟨ps, htells, -, rfl⟩ := parse_eq_ok_iff.1 hq
  rcases head?_given_cases hk htells with ⟨-, hnone⟩ | ⟨d, t, -, ht, hsome⟩
  · rw [has_eq_isSome_first?, first?_insertAll_empty, hnone] at h
    cases h
  · rw [← first?_insertAll_empty] at hsome
    rw [hsome, instant_of_first? hsome (Clock.fitsWord_of_startOfDate? ht)]

theorem instant_eq_iff (hk : k.isDay = true) (hp : parse c s = .ok p) (hq : parse d t = .ok q)
    (hhas : p.has k = q.has k) : p.instant k = q.instant k ↔ p.first? k = q.first? k := by
  constructor
  · intro h
    rcases hhas' : q.has k with _ | _
    · rw [first?_eq_none_iff.2 (hhas.trans hhas'), first?_eq_none_iff.2 hhas']
    · rw [first?_of_has hk hp (hhas.trans hhas'), first?_of_has hk hq hhas', h]
  · intro h
    rw [instant, instant, h]

theorem render_eq_iff (hp : parse c s = .ok p) (hq : parse c t = .ok q) :
    p.render c = q.render c ↔ ∀ k, p.values k = q.values k := by
  constructor
  · intro h
    obtain ⟨text, hr⟩ := exists_render hp
    have hpq : p = q :=
      Except.ok.inj ((parse_of_render hp hr).symm.trans (parse_of_render hq (h ▸ hr)))
    exact fun k => congrArg (fun r : Query => r.values k) hpq
  · intro h
    rw [ext_values h]

/-- **How far queries that are alike agree.**  Whatever clocks they were read on, they hold the same
values in some order; they ask for the same sort keys in some order, and rank alike exactly if their
sort keys come in the same order; for a key of days they have the same instant exactly if their
first values are the same; and on every clock on which the one is written the other one is, in a
text of the same tokens in some order.  Where both can be read, their texts are the same exactly if
the values of every key come in the same order. -/
theorem agree_iff_of_alike (hp : parse c s = .ok p) (hq : parse d t = .ok q)
    (h : p.alike q = true) :
    (∀ k, (p.values k).Perm (q.values k))
      ∧ (Ranking.ofQuery p).keys.Perm (Ranking.ofQuery q).keys
      ∧ (Ranking.ofQuery p = Ranking.ofQuery q ↔ p.values .order = q.values .order)
      ∧ (∀ k, k.isDay = true → (p.instant k = q.instant k ↔ p.first? k = q.first? k))
      ∧ (∀ e text, p.render e = .ok text →
          ∃ text', q.render e = .ok text' ∧ (tokens text).Perm (tokens text'))
      ∧ (parse c t = .ok q → (p.render c = q.render c ↔ ∀ k, p.values k = q.values k)) := by
  have hperm := perm_values_of_alike hp hq h
  refine ⟨hperm, perm_keys_ranking hperm, ⟨fun hr => ?_, fun hv => ?_⟩, fun k hk => ?_,
    fun e text => exists_perm_tokens hperm hp hq, render_eq_iff hp⟩
  · rw [values_order_eq_map_sortKeys hp, values_order_eq_map_sortKeys hq,
      sortKeys_eq_of_ranking_eq hperm hr]
  · rw [Ranking.ofQuery, Ranking.ofQuery, sortKeys, sortKeys, hv]
  · exact instant_eq_iff hk hp hq (has_eq_of_perm hperm k)

/-- Half a day ahead of UTC 2 January begins when half a day behind it 1 January does, so that the
two days are kept as one value; and the sort keys come the other way round, also when both are
written in UTC. -/
theorem agree_iff_of_alike_antipodes :
    ∃ p q, parse (Clock.fixed 43200000) "from:20230102 orderby:dateasc orderby:creatorasc" = .ok p
      ∧ parse (Clock.fixed (-43200000)) "orderby:creatorasc from:20230101 orderby:dateasc" = .ok q
      ∧ p.alike q = true
      ∧ p.instant .firstDay = q.instant .firstDay
      ∧ (Ranking.ofQuery p).keys.Perm (Ranking.ofQuery q).keys
      ∧ Ranking.ofQuery p ≠ Ranking.ofQuery q
      ∧ ∃ text, q.render Clock.utc = .ok text
        ∧ (tokens "from:20230101 orderby:dateasc orderby:creatorasc").Perm (tokens text) := by
  obtain ⟨p, q, hp, hq, h, hfirst, horders, hr⟩ : ∃ p q,
      parse (Clock.fixed 43200000) "from:20230102 orderby:dateasc orderby:creatorasc" = .ok p
      ∧ parse (Clock.fixed (-43200000)) "orderby:creatorasc from:20230101 orderby:dateasc" = .ok q
      ∧ p.alike q = true ∧ p.first? .firstDay = q.first? .firstDay
      ∧ p.values .order ≠ q.values .order
      ∧ p.render Clock.utc = .ok "from:20230101 orderby:dateasc orderby:creatorasc" :=
    ⟨{ firstDays := ["1672574400000"], orders := ["dateasc", "creatorasc"] },
      { firstDays := ["1672574400000"], orders := ["creatorasc", "dateasc"] },
      rfl, rfl, rfl, rfl, by decide, rfl⟩
  obtain ⟨-, hkeys, hranking, hinstant, htokens, -⟩ := agree_iff_of_alike hp hq h
  exact ⟨p, q, hp, hq, h, (hinstant .firstDay rfl).2 hfirst, hkeys,
    fun hsame => horders (hranking.1 hsame), htokens _ _ hr⟩

/-- Two texts with the same values: they rank differently, begin on different days, and are written
differently. -/
theorem not_agree_ofTurned :
    ∃ p q, parse Clock.utc "from:20230101 from:20230102 orderby:dateasc orderby:creatorasc" = .ok p
      ∧ parse Clock.utc "from:20230102 from:20230101 orderby:creatorasc orderby:dateasc" = .ok q
      ∧ p.alike q = true
      ∧ Ranking.ofQuery p ≠ Ranking.ofQuery q
      ∧ p.instant .firstDay ≠ q.instant .firstDay
      ∧ p.render Clock.utc ≠ q.render Clock.utc :=
  ⟨{ firstDays := ["1672531200000", "1672617600000"], orders := ["dateasc", "creatorasc"] },
    { firstDays := ["1672617600000", "1672531200000"], orders := ["creatorasc", "dateasc"] },
    rfl, rfl, rfl, by decide, by decide, by decide⟩

end WaveFinder.Query
