import WaveFinder.Proofs.Form.Entries
import WaveFinder.Proofs.Query.Orders
import WaveFinder.Proofs.Search.Keys

/-!
# Proofs/Search/FirstKeys — only the first key of each dimension counts

    sort keys ──firstKeys──▸ at most one for each dimension ──▸ the same comparison

A key that comes up for decision finds the entries tied in every dimension that was looked at before
it, and a key of such a dimension ties them too, whatever its direction.  So the later keys of a
dimension never decide anything (`compareKeys_firstKeys`), and neither do the repetitions that a
query and a form leave out (`compareKeys_eraseDups`).
-/

namespace WaveFinder

open Query

variable {ι : Type} {ks : List SortKey} {a b : Summary ι}

/-! ## The first keys -/

/-- The sort keys that are the first of their dimension, in their order. -/
def firstKeys : List SortKey → List SortKey
  | [] => []
  | k :: ks => k :: (firstKeys ks).filter fun j => j.dimension != k.dimension

theorem firstKeys_sublist (ks : List SortKey) : (firstKeys ks).Sublist ks := by
  induction ks with
  | nil => exact .refl _
  | cons k ks ih => exact (List.filter_sublist.trans ih).cons_cons k

/-- No dimension has two keys among the first ones. -/
theorem nodup_dimension_firstKeys (ks : List SortKey) :
    ((firstKeys ks).map SortKey.dimension).Nodup := by
  induction ks with
  | nil => exact List.nodup_nil
  | cons k ks ih =>
    rw [firstKeys, List.map_cons, List.nodup_cons]
    refine ⟨fun hmem => ?_, ih.sublist (List.filter_sublist.map _)⟩
    obtain ⟨j, hj, hdimension⟩ := List.mem_map.1 hmem
    exact absurd hdimension (bne_iff_ne.1 (List.mem_filter.1 hj).2)

/-- **The key that is kept for a dimension is the first that there is.** -/
theorem find?_firstKeys (d : Dimension) (ks : List SortKey) :
    (firstKeys ks).find? (fun k => k.dimension == d) = ks.find? fun k => k.dimension == d := by
  induction ks with
  | nil => rfl
  | cons k ks ih =>
    rw [firstKeys, List.find?_cons, List.find?_cons]
    rcases hk : k.dimension == d with _ | _
    · dsimp only
      rw [List.find?_filter, ← ih]
      congr 1
      funext j
      by_cases hj : j.dimension = d
      · simpa [hj] using Ne.symm (beq_eq_false_iff_ne.1 hk)
      · simp [hj]
    · rfl

theorem firstKeys_eq_nil_iff : firstKeys ks = [] ↔ ks = [] := by
  cases ks <;> simp [firstKeys]

/-! ## What they decide -/

/-- Keys of one dimension tie the same entries, whatever their directions. -/
theorem SortKey.compare_eq_eq_of_dimension {j k : SortKey} (hdimension : j.dimension = k.dimension)
    (h : k.compare a b = .eq) : j.compare a b = .eq := by
  rw [SortKey.compare, Direction.apply_eq_eq_iff] at h ⊢
  rw [hdimension, h]

/-- **The first keys decide what all of them do.** -/
theorem compareKeys_firstKeys (ks : List SortKey) (a b : Summary ι) :
    compareKeys (firstKeys ks) a b = compareKeys ks a b := by
  induction ks with
  | nil => rfl
  | cons k ks ih =>
    rw [firstKeys, compareKeys, compareKeys]
    rcases hk : k.compare a b with _ | _ | _
    · rfl
    · -- Entries that tie on `k` tie on the keys that the filter takes away.
      rw [compareKeys_filter, ih]
      intro j hj
      exact SortKey.compare_eq_eq_of_dimension (by simpa using hj) hk
    · rfl

/-- **Keys that are there already decide nothing.** -/
theorem compareKeys_eraseDups (ks : List SortKey) (a b : Summary ι) :
    compareKeys ks.eraseDups a b = compareKeys ks a b := by
  -- What comes after a key is the list without its repeats, so the induction is on the length.
  induction h : ks.length using Nat.strongRecOn generalizing ks with
  | _ n ih =>
    rcases ks with _ | ⟨k, ks⟩
    · rfl
    · have hlt : (ks.filter fun j => !j == k).length < n := by
        have := List.length_filter_le (fun j => !j == k) ks
        rw [List.length_cons] at h
        omega
      rw [List.eraseDups_cons, compareKeys, compareKeys, ih _ hlt _ rfl]
      rcases hk : k.compare a b with _ | _ | _
      · rfl
      · rw [compareKeys_filter]
        intro j hj
        rw [show j = k by simpa using hj, hk]
      · rfl

/-! ## Rankings -/

theorem Form.order_ofEntries_eq (es : List Form.Entry) :
    (Form.ofEntries es).order = (es.filterMap Form.Entry.order?).eraseDups := by
  have htokens := Form.order_ofEntries es
  rw [eraseDups_map_of_injective SortKey.token_injective] at htokens
  exact List.map_injective_iff.2 SortKey.token_injective htokens

namespace Ranking

variable [Ord ι]

theorem compare_ofKeys_congr {js ks : List SortKey} (hnil : js = [] ↔ ks = [])
    (h : ∀ a b : Summary ι, compareKeys js a b = compareKeys ks a b) :
    ((ofKeys js).compare : Summary ι → Summary ι → Ordering) = (ofKeys ks).compare := by
  funext a b
  rw [compare, compare, keys_ofKeys, keys_ofKeys]
  by_cases hks : ks = []
  · rw [if_pos hks, if_pos (hnil.2 hks)]
  · rw [if_neg hks, if_neg (mt hnil.1 hks), compareBy_eq_then, compareBy_eq_then, h]

theorem sort_congr {r r' : Ranking}
    (h : (r.compare : Summary ι → Summary ι → Ordering) = r'.compare) (es : List (Summary ι)) :
    r.sort es = r'.sort es := by
  rw [sort, sort, h]

/-- **Only the first key of each dimension counts.**  The first keys are some of the keys, in their
order; no two of them are of one dimension, and each is the first of its own.  The ranking by them
compares any two entries as the ranking by all keys does, and so does the ranking by the keys
without their repeats.  So a query that was read sorts by the first key of each dimension that its
text names, and a form sorts by its keys as they were entered. -/
theorem compare_firstKeys (ks : List SortKey) :
    ((firstKeys ks).Sublist ks
        ∧ ((firstKeys ks).map SortKey.dimension).Nodup
        ∧ ∀ d, (firstKeys ks).find? (fun k => k.dimension == d)
            = ks.find? fun k => k.dimension == d)
      ∧ (∀ a b : Summary ι, (ofKeys (firstKeys ks)).compare a b = (ofKeys ks).compare a b)
      ∧ (∀ a b : Summary ι, (ofKeys ks.eraseDups).compare a b = (ofKeys ks).compare a b)
      ∧ (∀ clock text q, parse clock text = .ok q → ∀ es : List (Summary ι),
          (ofQuery q).sort es = (ofKeys (firstKeys (ordersNamed (tokens text)))).sort es)
      ∧ ∀ entries, ∀ es : List (Summary ι),
          (ofKeys (Form.ofEntries entries).order).sort es
            = (ofKeys (entries.filterMap Form.Entry.order?)).sort es := by
  have hfirst : ∀ ks, ((ofKeys (firstKeys ks)).compare : Summary ι → Summary ι → Ordering)
      = (ofKeys ks).compare :=
    fun ks => compare_ofKeys_congr firstKeys_eq_nil_iff (compareKeys_firstKeys ks)
  have hdups : ∀ ks, ((ofKeys ks.eraseDups).compare : Summary ι → Summary ι → Ordering)
      = (ofKeys ks).compare := by
    intro ks
    refine compare_ofKeys_congr ?_ (compareKeys_eraseDups ks)
    cases ks <;> simp [List.eraseDups_cons]
  refine ⟨⟨firstKeys_sublist ks, nodup_dimension_firstKeys ks, fun d => find?_firstKeys d ks⟩,
    fun a b => congrFun (congrFun (hfirst ks) a) b, fun a b => congrFun (congrFun (hdups ks) a) b,
    fun clock text q hq => sort_congr ?_, fun entries => sort_congr ?_⟩
  · rw [ofQuery, sortKeys_of_parse hq, hdups, hfirst]
  · rw [Form.order_ofEntries_eq, hdups]

/-- Oldest first, and then by author: that newest first is asked for as well has no effect. -/
theorem compare_firstKeys_opposed :
    ∃ q, parse Clock.utc "orderby:dateasc orderby:datedesc orderby:creatorasc" = .ok q
      ∧ q.sortKeys = [⟨.modified, .ascending⟩, ⟨.modified, .descending⟩, ⟨.creator, .ascending⟩]
      ∧ ∀ es : List (Summary String), (ofQuery q).sort es
          = (ofKeys [⟨.modified, .ascending⟩, ⟨.creator, .ascending⟩]).sort es := by
  obtain ⟨q, hq, hkeys⟩ : ∃ q,
      parse Clock.utc "orderby:dateasc orderby:datedesc orderby:creatorasc" = .ok q
        ∧ q.sortKeys
          = [⟨.modified, .ascending⟩, ⟨.modified, .descending⟩, ⟨.creator, .ascending⟩] :=
    ⟨_, rfl, rfl⟩
  exact ⟨q, hq, hkeys, (compare_firstKeys []).2.2.2.1 _ _ q hq⟩

end Ranking

end WaveFinder
