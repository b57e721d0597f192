import WaveFinder.Proofs.Search.Results

/-!
# Proofs/Search/Containment — results within results

    criteria' within criteria ──▸ results' a part of the results, in the same order

The sort is stable, so it makes no difference whether entries are filtered before it or after it
(`Ranking.sort_filter`).  Under one ranking, criteria that let less through therefore leave a part
of the results, in the order in which they were (`Plan.run_sublist_run_of_mem`).  Criteria lie
within others (`Criteria.Within`) if nothing is open in them that the others close, and then they
let less through (`Criteria.Within.meets`).
-/

namespace WaveFinder

open Std

variable {ι : Type}

/-! ## Sorting a part -/

section Runs

variable [Ord ι] [TransOrd ι]

theorem Ranking.pairwise_sort (r : Ranking) (es : List (Summary ι)) :
    (r.sort es).Pairwise fun a b => (r.compare a b).isLE = true :=
  List.pairwise_mergeSort (fun _ _ _ => TransCmp.isLE_trans) r.isLE_compare_or es

/-- **Filtering commutes with sorting.** -/
theorem Ranking.sort_filter (r : Ranking) (m : Summary ι → Bool) (es : List (Summary ι)) :
    r.sort (es.filter m) = (r.sort es).filter m := by
  refine eq_of_pairwise_of_filter_eq (r.pairwise_sort (es.filter m))
    ((r.pairwise_sort es).filter m) fun a => ?_
  rw [r.filter_sort, List.filter_comm, ← r.filter_sort es a, List.filter_comm]

/-- **Criteria that let less of some entries through leave a part of the results**, in the same
order. -/
theorem Plan.run_sublist_run_of_mem {p p' : Plan} {es : List (Summary ι)}
    (hranking : p'.ranking = p.ranking)
    (h : ∀ s ∈ es, p'.criteria.meets s = true → p.criteria.meets s = true) :
    (p'.run es).Sublist (p.run es) := by
  have hboth : es.filter p'.criteria.meets
      = es.filter fun s => p.criteria.meets s && p'.criteria.meets s := by
    refine List.filter_congr fun s hs => ?_
    rcases hmeets : p'.criteria.meets s with _ | _
    · rw [Bool.and_false]
    · rw [h s hs hmeets, Bool.true_and]
  rw [run, run, hranking, hboth, Ranking.sort_filter, Ranking.sort_filter]
  exact List.monotone_filter_right _ fun s hs => (Bool.and_eq_true_iff.1 hs).1

theorem Plan.run_sublist_run {p p' : Plan} (hranking : p'.ranking = p.ranking)
    (h : ∀ s : Summary ι, p'.criteria.meets s = true → p.criteria.meets s = true)
    (es : List (Summary ι)) : (p'.run es).Sublist (p.run es) :=
  run_sublist_run_of_mem hranking fun s _ => h s

end Runs

theorem Plan.ids_sublist_ids {p p' : Plan} (hranking : p'.ranking = p.ranking)
    (h : ∀ s : Summary String, p'.criteria.meets s = true → p.criteria.meets s = true)
    (ws : List Wave) : (p'.ids ws).Sublist (p.ids ws) :=
  (run_sublist_run hranking h _).map _

/-! ## Windows within windows -/

namespace Window

variable {w w' : Window}

/-- A window lies within another if it is for the same time, and closes at most those sides that the
other leaves open. -/
structure Within (w' w : Window) : Prop where
  field : w'.field = w.field
  first : w.first = 0 ∨ w'.first = w.first
  last : w.last = 0 ∨ w'.last = w.last

theorem Within.of_eq (h : w' = w) : w'.Within w := by
  subst h
  exact ⟨rfl, .inr rfl, .inr rfl⟩

theorem Within.isUnbounded (h : w'.Within w) (hw' : w'.isUnbounded = true) :
    w.isUnbounded = true := by
  rw [Window.isUnbounded, Bool.and_eq_true, beq_iff_eq, beq_iff_eq] at hw' ⊢
  refine ⟨h.first.elim id fun he => ?_, h.last.elim id fun he => ?_⟩
  · rw [← he, hw'.1]
  · rw [← he, hw'.2]

theorem Within.contains (h : w'.Within w) {t : Int} (ht : w'.contains t = true) :
    w.contains t = true := by
  rw [Window.contains, Bool.and_eq_true] at ht ⊢
  refine ⟨h.first.elim (fun h0 => ?_) fun he => ?_, h.last.elim (fun h0 => ?_) fun he => ?_⟩
  · rw [h0]
    rfl
  · exact he ▸ ht.1
  · rw [h0]
    rfl
  · exact he ▸ ht.2

end Window

/-! ## Criteria within criteria -/

namespace Criteria

variable {c c' : Criteria} {s : Summary ι}

theorem meets_eq_true_iff :
    c.meets s = true
      ↔ c.meetsWindow s = true ∧ c.meetsCreators s = true ∧ c.meetsPeople s = true := by
  rw [meets, Bool.and_eq_true, Bool.and_eq_true, and_assoc]

/-- Criteria lie within others if their window does, they ask for the same creators where the others
ask for any, and for no fewer people. -/
structure Within (c' c : Criteria) : Prop where
  window : c'.window.Within c.window
  creators : c.creators = [] ∨ c'.creators = c.creators
  people : c.people ⊆ c'.people

theorem meetsWindow_of_within (h : c'.window.Within c.window) (hs : c'.meetsWindow s = true) :
    c.meetsWindow s = true := by
  rw [meetsWindow, Bool.or_eq_true, Bool.and_eq_true] at hs ⊢
  rw [← h.field]
  exact hs.imp h.isUnbounded (And.imp_right h.contains)

theorem meetsCreators_of_subset (hne : c.creators ≠ []) (h : c.creators ⊆ c'.creators)
    (hs : c.meetsCreators s = true) : c'.meetsCreators s = true := by
  rw [meetsCreators, Bool.or_eq_true] at hs ⊢
  refine .inr ?_
  rcases hs with hs | hs
  · exact absurd (List.isEmpty_iff.1 hs) hne
  · rcases hroot : s.rootCreator with _ | a
    · rw [hroot] at hs
      cases hs
    · rw [hroot] at hs
      exact List.contains_iff_mem.2 (h (List.contains_iff_mem.1 hs))

/-- **What meets criteria meets those that they lie within.** -/
theorem Within.meets (h : c'.Within c) (hs : c'.meets s = true) : c.meets s = true := by
  obtain ⟨hwindow, hcreators, hpeople⟩ := meets_eq_true_iff.1 hs
  refine meets_eq_true_iff.2 ⟨meetsWindow_of_within h.window hwindow, ?_, ?_⟩
  · rcases h.creators with hnil | heq
    · rw [meetsCreators, hnil]
      rfl
    · rwa [meetsCreators, heq] at hcreators
  · rw [meetsPeople, List.all_eq_true] at hpeople ⊢
    exact fun a ha => hpeople a (h.people ha)

end Criteria

end WaveFinder
