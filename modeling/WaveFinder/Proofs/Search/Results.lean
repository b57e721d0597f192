import WaveFinder.Proofs.Query.Orders
import WaveFinder.Proofs.Search.LastDay
import WaveFinder.Search.Plan

/-!
# Proofs/Search/Results — what a search finds, and in which order

    text ──Plan.ofText──▸ plan          entries ──filter──▸ matches ──sort──▸ results

The results are the matches, sorted: nothing is lost and nothing is found twice.  The sort is
stable, so entries that compare as equal stay as they were given (`Ranking.filter_sort`), and it
leaves alone what is sorted already, so that a search of its own results changes nothing
(`Plan.run_run`).  The order is the one that the text names: its sort keys, each from where it is
first named on, and then the id (`Plan.exists_ofText`).  Order and ties determine the results
(`Plan.run_eq_of_pairwise`).
-/

namespace WaveFinder

open Std Query

/-! ## Sorted lists -/

section Sorted

variable {α : Type} {cmp : α → α → Ordering} [TransCmp cmp]

/-- The members that tie with the first of a sorted list begin with it. -/
theorem filter_cons_tie (a : α) (as : List α) :
    (a :: as).filter (fun b => cmp a b == .eq) = a :: as.filter fun b => cmp a b == .eq :=
  List.filter_cons_of_pos (beq_iff_eq.2 ReflCmp.compare_self)

/-- A member of a sorted list comes no earlier than the first. -/
theorem isLE_of_mem_cons {a b : α} {as : List α}
    (h : (a :: as).Pairwise fun a b => (cmp a b).isLE) (hb : b ∈ a :: as) : (cmp a b).isLE := by
  rcases List.mem_cons.1 hb with rfl | hb
  · exact ReflCmp.isLE_rfl
  · exact (List.pairwise_cons.1 h).1 b hb

/-- Lists whose ties are the same have the same members, since each ties with itself. -/
theorem mem_iff_of_filter_eq {as bs : List α}
    (h : ∀ c, as.filter (fun b => cmp c b == .eq) = bs.filter fun b => cmp c b == .eq) (c : α) :
    c ∈ as ↔ c ∈ bs := by
  have hself : (cmp c c == .eq) = true := beq_iff_eq.2 ReflCmp.compare_self
  have hc : c ∈ as.filter (fun b => cmp c b == .eq) ↔ c ∈ bs.filter fun b => cmp c b == .eq := by
    rw [h c]
  rwa [List.mem_filter, List.mem_filter, and_iff_left hself, and_iff_left hself] at hc

/-- **A sorted list is what its ties are**: two sorted lists are the same if the members that tie
come in the same order in both. -/
theorem eq_of_pairwise_of_filter_eq {as bs : List α}
    (has : as.Pairwise fun a b => (cmp a b).isLE) (hbs : bs.Pairwise fun a b => (cmp a b).isLE)
    (h : ∀ c, as.filter (fun b => cmp c b == .eq) = bs.filter fun b => cmp c b == .eq) :
    as = bs := by
  have hmem := mem_iff_of_filter_eq h
  induction as generalizing bs with
  | nil =>
    exact (List.eq_nil_iff_forall_not_mem.2 fun c hc => List.not_mem_nil ((hmem c).2 hc)).symm
  | cons a as ih =>
    rcases bs with _ | ⟨b, bs⟩
    · exact absurd ((hmem a).1 (List.mem_cons_self ..)) List.not_mem_nil
    · -- Neither head comes earlier than the other, so they tie, and each is the first that does.
      have htie : cmp a b = .eq := OrientedCmp.isLE_antisymm
        (isLE_of_mem_cons has ((hmem b).2 (List.mem_cons_self ..)))
        (isLE_of_mem_cons hbs ((hmem a).1 (List.mem_cons_self ..)))
      have hhead := h a
      rw [filter_cons_tie, List.filter_cons_of_pos (by rw [htie]; rfl)] at hhead
      obtain ⟨rfl, -⟩ := List.cons.inj hhead
      have htail : ∀ c,
          as.filter (fun b => cmp c b == .eq) = bs.filter fun b => cmp c b == .eq := by
        intro c
        have hc := h c
        rw [List.filter_cons, List.filter_cons] at hc
        split at hc
        · exact (List.cons.inj hc).2
        · exact hc
      rw [ih has.of_cons hbs.of_cons htail (mem_iff_of_filter_eq htail)]

/-- Whether the ties are the same can be told from those of the members. -/
theorem filter_tie_eq_of_forall_mem {as bs : List α}
    (h : ∀ c ∈ as ++ bs, as.filter (fun b => cmp c b == .eq) = bs.filter fun b => cmp c b == .eq)
    (a : α) : as.filter (fun b => cmp a b == .eq) = bs.filter fun b => cmp a b == .eq := by
  by_cases hties : ∃ c ∈ as ++ bs, cmp a c = .eq
  · obtain ⟨c, hc, hac⟩ := hties
    have hsame : ∀ b, (cmp a b == .eq) = (cmp c b == .eq) := by
      intro b
      rw [TransCmp.congr_left hac]
    simp only [hsame]
    exact h c hc
  · have hnone : ∀ d ∈ as ++ bs, ¬ (cmp a d == .eq) = true :=
      fun d hd htie => hties ⟨d, hd, beq_iff_eq.1 htie⟩
    rw [List.filter_eq_nil_iff.2 fun d hd => hnone d (List.mem_append_left _ hd),
      List.filter_eq_nil_iff.2 fun d hd => hnone d (List.mem_append_right _ hd)]

end Sorted

variable {ι : Type} [Ord ι] [TransOrd ι]

/-! ## Sorting by a ranking -/

namespace Ranking

/-- **Sorting is stable**: the entries that compare as equal to one come in the order in which they
were given. -/
theorem filter_sort (r : Ranking) (es : List (Summary ι)) (a : Summary ι) :
    (r.sort es).filter (fun b => r.compare a b == .eq)
      = es.filter fun b => r.compare a b == .eq := by
  have hties : (es.filter fun b => r.compare a b == .eq).Pairwise
      fun b c => (r.compare b c).isLE = true := by
    refine List.pairwise_filter.2 (List.pairwise_of_forall fun b c hb hc => ?_)
    have hbc : r.compare b c = .eq :=
      TransCmp.eq_trans (OrientedCmp.eq_symm (beq_iff_eq.1 hb)) (beq_iff_eq.1 hc)
    rw [hbc]
    rfl
  -- Sorted as they are, the entries that tie are a part of the sorted list, in their order; and it
  -- has no more of them.
  have hpart : (es.filter fun b => r.compare a b == .eq).Sublist (r.sort es) := by
    rw [sort]
    exact List.sublist_mergeSort (fun _ _ _ => TransCmp.isLE_trans) r.isLE_compare_or hties
      List.filter_sublist
  have hsub := hpart.filter fun b => r.compare a b == .eq
  rw [List.filter_filter] at hsub
  simp only [Bool.and_self] at hsub
  exact (hsub.eq_of_length ((List.mergeSort_perm ..).filter _).length_eq.symm).symm

end Ranking

/-! ## Running a plan -/

namespace Plan

/-- **Searching the results again gives the results.** -/
theorem run_run (p : Plan) (es : List (Summary ι)) : p.run (p.run es) = p.run es := by
  have hmeets : (p.run es).filter p.criteria.meets = p.run es := by
    refine List.filter_eq_self.2 fun s hs => ?_
    exact (List.mem_filter.1 ((p.perm_run es).subset hs)).2
  rw [run, hmeets]
  exact List.mergeSort_of_pairwise (p.pairwise_run es)

/-- **Order and ties determine the results**: entries are the results if they are sorted and tie as
the matches do. -/
theorem run_eq_of_pairwise {p : Plan} {es rs : List (Summary ι)}
    (hsorted : rs.Pairwise fun a b => (p.ranking.compare a b).isLE = true)
    (hties : ∀ a ∈ rs ++ es.filter p.criteria.meets,
      rs.filter (fun b => p.ranking.compare a b == .eq)
        = (es.filter p.criteria.meets).filter fun b => p.ranking.compare a b == .eq) :
    p.run es = rs := by
  refine eq_of_pairwise_of_filter_eq (p.pairwise_run es) hsorted fun a => ?_
  rw [run, p.ranking.filter_sort, filter_tie_eq_of_forall_mem hties]

end Plan

/-! ## From the text -/

theorem Query.exists_addresses {localDomain : String} {q : Query} {k : Key}
    (h : ∀ raw ∈ q.values k, ∃ a, Address.ofTyped localDomain raw = .ok a) :
    ∃ as, q.addresses localDomain k = .ok as := by
  obtain ⟨as, has⟩ := exists_forall₂ h
  refine ⟨as, Except.mapM_eq_ok_iff.2 (has.imp fun raw a ha => ?_)⟩
  exact Except.mapError_eq_ok_iff.2 ha

/-- **On a clock near UTC a query that was read has criteria** if its people are addresses under the
domain. -/
theorem Criteria.exists_ofQuery {clock : Clock} {localDomain text : String} {q : Query}
    (hnear : clock.IsNear) (hq : parse clock text = .ok q)
    (hpeople : ∀ k, k = .creator ∨ k = .person → ∀ raw ∈ q.values k,
      ∃ a, Address.ofTyped localDomain raw = .ok a) :
    ∃ c, ofQuery clock localDomain q = .ok c := by
  obtain ⟨w, hw⟩ := Window.exists_ofQuery hnear hq
  obtain ⟨creators, hcreators⟩ := exists_addresses (hpeople .creator (.inl rfl))
  obtain ⟨people, hpeople⟩ := exists_addresses (hpeople .person (.inr rfl))
  exact ⟨⟨w, creators, people⟩, ofQuery_eq_ok_iff.2 ⟨hw, hcreators, hpeople⟩⟩

namespace Plan

variable {clock : Clock} {localDomain text : String} {q : Query}

/-- The plan of a text is made of the criteria and the ranking of the query that it is read as. -/
theorem ofText_eq_ok_iff {p : Plan} :
    ofText clock localDomain text = .ok p
      ↔ ∃ q, parse clock text = .ok q ∧ Criteria.ofQuery clock localDomain q = .ok p.criteria
        ∧ p.ranking = Ranking.ofQuery q := by
  simp only [ofText, Except.bind_eq_ok_iff, Except.mapError_eq_ok_iff]
  refine exists_congr fun q => and_congr_right fun _ => ?_
  rw [ofQuery, Except.map_eq_ok_iff]
  constructor
  · rintro ⟨c, hc, rfl⟩
    exact ⟨hc, rfl⟩
  · rintro ⟨hc, hranking⟩
    exact ⟨p.criteria, hc, hranking ▸ rfl⟩

/-- **What a search finds, and in which order.**  On a clock near UTC a text that was read and
whose people are addresses under the domain comes to a plan, with the criteria of the query.
Whatever entries it is run on, the results are those that meet the criteria, each as often as it is
given; none comes later than another that is after it by the sort keys that the text names, or by
the standard one if it names none, and then by the id; those that compare as equal stay in the order
in which they are given; and run on its results, the plan gives the results. -/
theorem exists_ofText (hnear : clock.IsNear) (hq : parse clock text = .ok q)
    (hpeople : ∀ k, k = .creator ∨ k = .person → ∀ raw ∈ q.values k,
      ∃ a, Address.ofTyped localDomain raw = .ok a) :
    ∃ p, ofText clock localDomain text = .ok p
      ∧ Criteria.ofQuery clock localDomain q = .ok p.criteria
      ∧ ∀ entries : List (Summary ι),
          (p.run entries).Perm (entries.filter p.criteria.meets)
          ∧ (p.run entries).Pairwise
              (fun a b => (compareBy (ordersAsked (tokens text)) a b).isLE = true)
          ∧ (∀ a, (p.run entries).filter
                (fun b => compareBy (ordersAsked (tokens text)) a b == .eq)
              = (entries.filter p.criteria.meets).filter
                fun b => compareBy (ordersAsked (tokens text)) a b == .eq)
          ∧ p.run (p.run entries) = p.run entries := by
  obtain ⟨c, hc⟩ := Criteria.exists_ofQuery hnear hq hpeople
  obtain ⟨p, hp, hcriteria, hkeys⟩ : ∃ p : Plan, ofText clock localDomain text = .ok p
      ∧ Criteria.ofQuery clock localDomain q = .ok p.criteria
      ∧ p.ranking.keys = ordersAsked (tokens text) :=
    ⟨⟨c, Ranking.ofQuery q⟩, ofText_eq_ok_iff.2 ⟨q, hq, hc, rfl⟩, hc, keys_ranking_of_parse hq⟩
  rw [← hkeys]
  refine ⟨p, hp, hcriteria, fun entries => ⟨p.perm_run entries, p.pairwise_run entries, ?_⟩⟩
  exact ⟨p.ranking.filter_sort _, p.run_run entries⟩

/-- A search for Bob by two sort keys, the first of them named again.  Two entries share an id and
all times, one was created later, one as early but modified later, and in one Bob takes no part: the
two come between the others, in the order in which they are given, whichever that is. -/
theorem exists_ofText_sharedId :
    ∃ (s t u x : Summary String) (p : Plan), s ≠ t
      ∧ ofText Clock.utc "example.com"
          "orderby:createddesc with:bob orderby:dateasc orderby:createddesc" = .ok p
      ∧ p.run [x, s, ⟨"v", []⟩, t, u] = [u, s, t, x]
      ∧ p.run [u, t, ⟨"v", []⟩, x, s] = [u, t, s, x] := by
  let s : Summary String := ⟨"w", [⟨5, 7, ⟨"bob@example.com"⟩, true, false, []⟩]⟩
  let t : Summary String := ⟨"w", [⟨5, 7, Address.unknown, true, false, [⟨"bob@example.com"⟩]⟩]⟩
  let u : Summary String := ⟨"z", [⟨6, 8, ⟨"bob@example.com"⟩, true, false, []⟩]⟩
  let x : Summary String := ⟨"a", [⟨5, 8, ⟨"bob@example.com"⟩, true, false, []⟩]⟩
  let keys : List SortKey := [⟨.created, .descending⟩, ⟨.modified, .ascending⟩]
  obtain ⟨q, c, hq, hc, hcreators, hpeople, hst, hts⟩ : ∃ (q : Query) (c : Criteria),
      parse Clock.utc "orderby:createddesc with:bob orderby:dateasc orderby:createddesc" = .ok q
      ∧ Criteria.ofQuery Clock.utc "example.com" q = .ok c
      ∧ q.values .creator = [] ∧ q.values .person = ["bob"]
      ∧ [x, s, ⟨"v", []⟩, t, u].filter c.meets = [x, s, t, u]
      ∧ [u, t, ⟨"v", []⟩, x, s].filter c.meets = [u, t, x, s] :=
    ⟨_, _, rfl, rfl, rfl, rfl, rfl, rfl⟩
  have hresolve : ∀ k, k = .creator ∨ k = .person → ∀ raw ∈ q.values k,
      ∃ a, Address.ofTyped "example.com" raw = .ok a := by
    rintro k (rfl | rfl) raw hraw
    · rw [hcreators] at hraw
      exact absurd hraw List.not_mem_nil
    · rw [hpeople] at hraw
      exact List.mem_singleton.1 hraw ▸ ⟨_, rfl⟩
  obtain ⟨p, hp, hcriteria, hruns⟩ :=
    exists_ofText (ι := String) (Clock.isNear_fixed (by decide) (by decide)) hq hresolve
  have hkeys : ordersAsked
      (tokens "orderby:createddesc with:bob orderby:dateasc orderby:createddesc") = keys := rfl
  rw [hkeys] at hruns
  obtain rfl : c = p.criteria := Except.ok.inj (hc.symm.trans hcriteria)
  -- The order and the ties of the results leave no choice.
  have hrun : ∀ es ms rs : List (Summary String), es.filter p.criteria.meets = ms →
      rs.Pairwise (fun a b => (compareBy keys a b).isLE = true) →
      (∀ c ∈ rs ++ ms, rs.filter (fun b => compareBy keys c b == .eq)
        = ms.filter fun b => compareBy keys c b == .eq) → p.run es = rs := by
    rintro es ms rs rfl hsorted hties
    obtain ⟨-, horder, hstable, -⟩ := hruns es
    refine eq_of_pairwise_of_filter_eq horder hsorted fun a => ?_
    rw [hstable, filter_tie_eq_of_forall_mem hties]
  exact ⟨s, t, u, x, p, by decide, hp, hrun _ _ _ hst (by decide) (by decide),
    hrun _ _ _ hts (by decide) (by decide)⟩

end Plan

end WaveFinder
