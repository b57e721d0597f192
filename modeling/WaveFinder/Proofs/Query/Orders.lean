import WaveFinder.Proofs.Query.Writing
import WaveFinder.Proofs.Search.Comparison

/-!
# Proofs/Query/Orders — the sort keys of a query are the ones that its text names

    text ──ordersNamed──▸ sort keys ──eraseDups──▸ Query.sortKeys ──Ranking.ofQuery──▸ ranking

A query keeps the tokens of its sort keys, and the ranking reads them again, passing over whatever
is none.  Nothing is passed over: each value was checked when it came, so there is one key for each
distinct value, in the order in which the values first came (`sortKeys_of_parse`), and the standard
key stands in only where no key is named (`keys_ranking_of_parse`).
-/

namespace WaveFinder

open Text

namespace Query

variable {c : Clock} {s : String} {q : Query} {t : List Char} {k : SortKey}

/-! ## What a text names -/

/-- The sort key that a token names, if it names one. -/
def orderNamed? (t : List Char) : Option SortKey :=
  SortKey.all.find? fun k => (tokenText .order k.token).toList == t

/-- The sort keys that tokens name, each as often as it is named. -/
def ordersNamed (ts : List (List Char)) : List SortKey :=
  ts.filterMap orderNamed?

/-- The sort keys that tokens ask for: the ones that they name, each from where it is first named
on, or the standard one if they name none. -/
def ordersAsked (ts : List (List Char)) : List SortKey :=
  if ordersNamed ts = [] then [SortKey.standard] else (ordersNamed ts).eraseDups

theorem says_order_iff : Says t .order k.token ↔ t = (tokenText .order k.token).toList := by
  have hk := isWritable_order k
  rw [says_iff, toList_tokenText]
  exact and_iff_left ⟨hk.ne_empty, hk.colon⟩

/-- **A token names the sort key whose token it says.** -/
theorem orderNamed?_eq_some_iff : orderNamed? t = some k ↔ Says t .order k.token := by
  have hfound : ∀ {j}, orderNamed? t = some j → Says t .order j.token := by
    intro j hj
    rw [orderNamed?] at hj
    have htext := List.find?_some hj
    rw [beq_iff_eq] at htext
    exact says_order_iff.2 htext.symm
  refine ⟨hfound, fun h => ?_⟩
  obtain ⟨j, hj⟩ : ∃ j, orderNamed? t = some j := by
    rw [← Option.isSome_iff_exists, orderNamed?, List.find?_isSome]
    exact ⟨k, k.mem_all, beq_iff_eq.2 (says_order_iff.1 h).symm⟩
  rw [hj, SortKey.token_injective ((hfound hj).unique h).2]

/-! ## What a query keeps -/

/-- The pairs that tokens tell give the sort keys that the tokens name. -/
theorem given_order_of_tells {ts : List (List Char)} {ps : List (Key × String)}
    (h : List.Forall₂ (Tells c) ts ps) :
    given .order ps = (ordersNamed ts).map SortKey.token := by
  induction h with
  | nil => rfl
  | @cons t p ts ps htells _ ih =>
    obtain ⟨j, w⟩ := p
    obtain ⟨v, hs, hkeep⟩ := htells
    by_cases hj : j = .order
    · subst hj
      obtain ⟨rfl, o, rfl⟩ := hkeep
      rw [given_cons_self, ih, ordersNamed, ordersNamed,
        List.filterMap_cons_some (orderNamed?_eq_some_iff.2 hs), List.map_cons]
    · have hnone : orderNamed? t = none := by
        refine Option.eq_none_iff_forall_ne_some.2 fun o ho => ?_
        exact hj (hs.unique (orderNamed?_eq_some_iff.1 ho)).1
      rw [given_cons_of_ne hj, ih, ordersNamed, ordersNamed, List.filterMap_cons_none hnone]

theorem values_order_of_parse (hq : parse c s = .ok q) :
    q.values .order = (ordersNamed (tokens s)).eraseDups.map SortKey.token := by
  obtain ⟨ps, htells, -, rfl⟩ := parse_eq_ok_iff.1 hq
  rw [values_insertAll_empty, given_order_of_tells htells,
    eraseDups_map_of_injective SortKey.token_injective]

/-- **The sort keys of a query are the ones that its text names**, each once and in the order in
which they are first named. -/
theorem sortKeys_of_parse (hq : parse c s = .ok q) :
    q.sortKeys = (ordersNamed (tokens s)).eraseDups := by
  have hread : SortKey.ofToken? ∘ SortKey.token = some := funext SortKey.ofToken?_token
  rw [sortKeys, values_order_of_parse hq, List.filterMap_map, hread, List.filterMap_some]

/-- **The ranking of a query goes by the sort keys that its text asks for.** -/
theorem keys_ranking_of_parse (hq : parse c s = .ok q) :
    (Ranking.ofQuery q).keys = ordersAsked (tokens s) := by
  rw [Ranking.ofQuery, Ranking.keys_ofKeys, sortKeys_of_parse hq, ordersAsked]
  rcases ordersNamed (tokens s) with _ | ⟨k, ks⟩
  · rfl
  · rw [if_neg (by simp [List.eraseDups_cons]), if_neg (List.cons_ne_nil k ks)]

end Query

end WaveFinder
