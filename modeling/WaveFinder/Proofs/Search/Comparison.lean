import WaveFinder.Search.Ranking

/-!
# Proofs/Search/Comparison — when the comparison of entries ties

A key ties two entries if what it measures is the same for both (`SortKey.compare_eq_eq_iff`), and a
list of keys ties them if each of its members does and their ids are the same
(`compareBy_eq_eq_iff`).  Together with the laws of an order this is what a sort has to know of a
ranking.
-/

namespace WaveFinder

open Std

variable {ι : Type}

/-! ## One key -/

theorem Address.text_inj {a b : Address} : a.text = b.text ↔ a = b := by
  refine ⟨fun h => ?_, congrArg Address.text⟩
  obtain ⟨t⟩ := a
  obtain ⟨u⟩ := b
  exact congrArg Address.mk h

@[simp] theorem Direction.apply_eq_eq_iff {d : Direction} {o : Ordering} :
    d.apply o = .eq ↔ o = .eq := by
  rcases d with _ | _
  · rfl
  · exact Ordering.swap_eq_eq

namespace SortKey

/-- Two entries tie on a key if what the key measures is the same for both: the latest change, the
latest creation, or the author that they are ranked by. -/
def Ties (k : SortKey) (a b : Summary ι) : Prop :=
  match k.dimension with
  | .modified => a.latest Document.modified = b.latest Document.modified
  | .created => a.latest Document.created = b.latest Document.created
  | .creator => a.rankedCreator = b.rankedCreator

/-- **A key compares two entries as equal if they tie on it**, whatever its direction. -/
theorem compare_eq_eq_iff {k : SortKey} {a b : Summary ι} : k.compare a b = .eq ↔ k.Ties a b := by
  rw [compare, Direction.apply_eq_eq_iff, Ties]
  rcases k with ⟨_ | _ | _, d⟩
  · exact LawfulEqOrd.compare_eq_iff_eq
  · exact LawfulEqOrd.compare_eq_iff_eq
  · exact LawfulEqOrd.compare_eq_iff_eq.trans Address.text_inj

end SortKey

/-! ## All keys, and the id -/

section Keys

variable [Ord ι]

/-- **Entries compare as equal if they tie on every key and have the same id.** -/
theorem compareBy_eq_eq_iff [LawfulEqOrd ι] {ks : List SortKey} {a b : Summary ι} :
    compareBy ks a b = .eq ↔ a.id = b.id ∧ ∀ k ∈ ks, k.Ties a b := by
  induction ks with
  | nil =>
    rw [compareBy, LawfulEqOrd.compare_eq_iff_eq]
    exact ⟨fun h => ⟨h, fun k hk => absurd hk List.not_mem_nil⟩, And.left⟩
  | cons k ks ih =>
    rw [compareBy, Ordering.then_eq_eq, ih, SortKey.compare_eq_eq_iff, List.forall_mem_cons]
    exact and_left_comm

namespace Ranking

theorem keys_ofKeys (ks : List SortKey) :
    (ofKeys ks).keys = if ks = [] then [SortKey.standard] else ks := by
  rcases ks with _ | ⟨k, ks⟩ <;> rfl

/-- **The comparison of a ranking is a total order whose only ties share an id.**  Turning the
entries round turns the result round; what comes no later than something comes no later than what
that comes no later than; and two entries compare as equal if they have the same id and tie on each
key. -/
theorem compare_ofKeys [TransOrd ι] [LawfulEqOrd ι] (ks : List SortKey) (a b c : Summary ι) :
    (ofKeys ks).compare b a = ((ofKeys ks).compare a b).swap
      ∧ (((ofKeys ks).compare a b).isLE → ((ofKeys ks).compare b c).isLE →
          ((ofKeys ks).compare a c).isLE)
      ∧ ((ofKeys ks).compare a b = .eq
          ↔ a.id = b.id ∧ ∀ k ∈ if ks = [] then [SortKey.standard] else ks, k.Ties a b) := by
  rw [← keys_ofKeys]
  exact ⟨(compareBy_swap _ a b).symm, isLE_compareBy_trans, compareBy_eq_eq_iff⟩

/-- Opposed keys leave everything to the id, and a wave without documents ties with one whose only
document dates from before the count of time began. -/
theorem compare_ofKeys_opposed :
    (ofKeys [⟨.modified, .descending⟩, ⟨.modified, .ascending⟩, ⟨.creator, .ascending⟩]).compare
      (⟨"w", []⟩ : Summary String) ⟨"w", [⟨-1, -5, Address.unknown, true, true, []⟩]⟩ = .eq := by
  refine (compare_ofKeys _ _ _ ⟨"w", []⟩).2.2.2 ⟨rfl, ?_⟩
  simp only [reduceCtorEq, if_false, List.forall_mem_cons]
  exact ⟨rfl, rfl, rfl, fun k hk => absurd hk List.not_mem_nil⟩

end Ranking

end Keys

end WaveFinder
