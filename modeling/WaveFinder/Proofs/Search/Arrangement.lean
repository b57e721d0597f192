import WaveFinder.Command.Run
import WaveFinder.Proofs.Search.Comparison

/-!
# Proofs/Search/Arrangement — the results do not depend on the order of the input

A sort by an order puts the members of a list into classes that tie, one class after another.  How
the members of a class stand to each other depends on the input, but what they share does not
(`map_eq_of_perm_of_pairwise`).  Entries that tie share their id, so rearranging the input leaves
the ids of the results as they were, even where an id stands for several entries
(`Plan.map_id_run_eq_of_perm`).
-/

namespace WaveFinder

open Std

/-! ## Sorted lists with the same members -/

section Sorted

variable {α β : Type} {cmp : α → α → Ordering} {f : α → β}

theorem append_cons_of_forall_eq {b : β} {us vs : List β} (h : ∀ u ∈ us, u = b) :
    us ++ b :: vs = b :: (us ++ vs) := by
  induction us with
  | nil => rfl
  | cons u us ih =>
    obtain ⟨rfl, hus⟩ := List.forall_mem_cons.1 h
    rw [List.cons_append, ih hus, List.cons_append]

/-- **What tied members share comes in the same order in every sorted list of the same members.** -/
theorem map_eq_of_perm_of_pairwise [TransCmp cmp] (hf : ∀ a b, cmp a b = .eq → f a = f b)
    {as bs : List α} (h : as.Perm bs) (has : as.Pairwise fun a b => (cmp a b).isLE)
    (hbs : bs.Pairwise fun a b => (cmp a b).isLE) : as.map f = bs.map f := by
  induction as generalizing bs with
  | nil => rw [h.nil_eq]
  | cons a as ih =>
    obtain ⟨hfirst, has⟩ := List.pairwise_cons.1 has
    obtain ⟨us, vs, rfl⟩ := List.append_of_mem (h.subset (List.mem_cons_self ..))
    obtain ⟨-, -, hus⟩ := List.pairwise_append.1 hbs
    -- What stands before the first member of the other list comes no later than it, and no earlier.
    have htie : ∀ u ∈ us, f u = f a := by
      intro u hu
      have hle : (cmp u a).isLE := hus u hu a (List.mem_cons_self ..)
      rcases List.mem_cons.1 (h.symm.subset (List.mem_append_left _ hu)) with rfl | hmem
      · rfl
      · exact hf u a (OrientedCmp.isLE_antisymm hle (hfirst u hmem))
    have hrest : as.map f = (us ++ vs).map f := by
      refine ih (h.trans List.perm_middle).cons_inv has (hbs.sublist ?_)
      exact (List.sublist_cons_self a vs).append_left us
    rw [List.map_cons, hrest, List.map_append, List.map_append, List.map_cons,
      append_cons_of_forall_eq]
    rintro v hv
    obtain ⟨u, hu, rfl⟩ := List.mem_map.1 hv
    exact htie u hu

end Sorted

/-! ## Results -/

namespace Plan

section Results

variable {ι : Type} [Ord ι] [TransOrd ι] [LawfulEqOrd ι]

/-- **Rearranged entries have the same ids in their results.** -/
theorem map_id_run_eq_of_perm (p : Plan) {entries entries' : List (Summary ι)}
    (h : entries.Perm entries') :
    (p.run entries).map Summary.id = (p.run entries').map Summary.id := by
  have htie : ∀ a b : Summary ι, p.ranking.compare a b = .eq → a.id = b.id :=
    fun a b htie => (compareBy_eq_eq_iff.1 htie).1
  refine map_eq_of_perm_of_pairwise htie ?_ (p.pairwise_run entries) (p.pairwise_run entries')
  exact (p.perm_run entries).trans ((h.filter _).trans (p.perm_run entries').symm)

end Results

section Waves

variable {ws ws' : List Wave}

theorem ids_eq_of_perm (p : Plan) (h : ws.Perm ws') : p.ids ws = p.ids ws' :=
  p.map_id_run_eq_of_perm (h.map Wave.summary)

/-- **A search does not depend on the order of the waves**: rearranged, they give the same ids in the
same order, or the search fails for the same reason; and so it is with the first of the ids, however
many. -/
theorem ofText_ids_eq_of_perm (h : ws.Perm ws') (clock : Clock) (localDomain text : String) :
    (ofText clock localDomain text).map (fun p => p.ids ws)
        = (ofText clock localDomain text).map (fun p => p.ids ws')
      ∧ ∀ n, (ofText clock localDomain text).map (fun p => (p.ids ws).take n)
          = (ofText clock localDomain text).map (fun p => (p.ids ws').take n) := by
  have hids : (fun p : Plan => p.ids ws) = fun p => p.ids ws' :=
    funext fun p => p.ids_eq_of_perm h
  have htake : ∀ n, (fun p : Plan => (p.ids ws).take n) = fun p => (p.ids ws').take n :=
    fun n => funext fun p => congrArg (List.take n) (p.ids_eq_of_perm h)
  refine ⟨?_, fun n => ?_⟩
  · rw [hids]
  · rw [htake n]

/-- Turned round, with two waves of one id that differ in their times. -/
theorem ofText_ids_eq_of_perm_sharedId :
    (ofText Clock.utc "example.com" "orderby:dateasc").map
        (fun p => p.ids [⟨"b", []⟩, ⟨"a", []⟩, ⟨"b", [⟨"conv+root", Address.unknown, 5, 7, []⟩]⟩])
      = (ofText Clock.utc "example.com" "orderby:dateasc").map
        (fun p => p.ids
          [⟨"b", [⟨"conv+root", Address.unknown, 5, 7, []⟩]⟩, ⟨"a", []⟩, ⟨"b", []⟩]) :=
  (ofText_ids_eq_of_perm (List.reverse_perm _).symm Clock.utc "example.com" "orderby:dateasc").1

end Waves

end Plan

/-- **What a search prints does not depend on the order of the waves in the file.** -/
theorem Command.execute_search_eq_of_perm {here here' : Surroundings} {file : String}
    {ws ws' : List Wave} (hclock : here.hostClock = here'.hostClock)
    (hws : wavesIn? here.files file = some ws) (hws' : wavesIn? here'.files file = some ws')
    (h : ws.Perm ws') (s : Settings) (limit : Option Nat) (words : List String) :
    execute here s (.search file limit words) = execute here' s (.search file limit words) := by
  have hids : ∀ p : Plan, p.ids ws = p.ids ws' := fun p => p.ids_eq_of_perm h
  simp only [execute, hclock, hws, hws', hids]

end WaveFinder
