import WaveFinder.Proofs.Search.Comparison

/-!
# Proofs/Search/Keys — the comparison by sort keys, and what the id adds to it

    compareBy ks  =  compareKeys ks, then the ids

The id settles what the keys leave open.  Without it the comparison is by the keys alone
(`compareKeys`): it ties two entries exactly if each key does (`compareKeys_eq_eq_iff`), and a key
on which two entries tie can be left out for them (`compareKeys_filter`).  What is said of rankings
in terms of their keys is said of `compareKeys` first; `compareBy_eq_then` carries it over.
-/

namespace WaveFinder

open Std

variable {ι : Type} {ks : List SortKey} {a b c : Summary ι}

/-- The comparison by keys alone, the first that tells the entries apart deciding. -/
def compareKeys : List SortKey → Summary ι → Summary ι → Ordering
  | [], _, _ => .eq
  | k :: ks, a, b => (k.compare a b).then (compareKeys ks a b)

/-- Two entries tie on a list of keys if they tie on each of them. -/
def TieOn (ks : List SortKey) (a b : Summary ι) : Prop :=
  ∀ k ∈ ks, k.Ties a b

/-- **The comparison is by the keys, and then by the id.** -/
theorem compareBy_eq_then [Ord ι] (ks : List SortKey) (a b : Summary ι) :
    compareBy ks a b = (compareKeys ks a b).then (Ord.compare a.id b.id) := by
  induction ks with
  | nil => rfl
  | cons k ks ih => rw [compareBy, compareKeys, ih, Ordering.then_assoc]

theorem compareKeys_eq_eq_iff : compareKeys ks a b = .eq ↔ TieOn ks a b := by
  induction ks with
  | nil => exact iff_of_true rfl fun k hk => absurd hk List.not_mem_nil
  | cons k ks ih =>
    rw [compareKeys, Ordering.then_eq_eq, ih, SortKey.compare_eq_eq_iff, TieOn, TieOn,
      List.forall_mem_cons]

instance (ks : List SortKey) : TransCmp (compareKeys ks : Summary ι → Summary ι → Ordering) := by
  induction ks with
  | nil => exact { eq_swap := rfl, isLE_trans := fun _ _ => rfl }
  | cons k ks ih => exact inferInstanceAs (TransCmp (compareLex k.compare (compareKeys ks)))

theorem TieOn.refl (ks : List SortKey) (a : Summary ι) : TieOn ks a a :=
  compareKeys_eq_eq_iff.1 ReflCmp.compare_self

theorem TieOn.symm (h : TieOn ks a b) : TieOn ks b a :=
  compareKeys_eq_eq_iff.1 (OrientedCmp.eq_symm (compareKeys_eq_eq_iff.2 h))

theorem TieOn.trans (hab : TieOn ks a b) (hbc : TieOn ks b c) : TieOn ks a c :=
  compareKeys_eq_eq_iff.1
    (TransCmp.eq_trans (compareKeys_eq_eq_iff.2 hab) (compareKeys_eq_eq_iff.2 hbc))

/-- **An entry comes no later than another** if the keys put it first, or if they leave that to the
ids, which do not put it last. -/
theorem isLE_compareBy_iff [Ord ι] :
    (compareBy ks a b).isLE
      ↔ compareKeys ks a b = .lt ∨ TieOn ks a b ∧ (Ord.compare a.id b.id).isLE := by
  rw [compareBy_eq_then, ← compareKeys_eq_eq_iff]
  cases compareKeys ks a b <;> simp

/-- **Keys on which two entries tie do not count for them.** -/
theorem compareKeys_filter {p : SortKey → Bool} (h : ∀ k, p k = false → k.compare a b = .eq) :
    compareKeys (ks.filter p) a b = compareKeys ks a b := by
  induction ks with
  | nil => rfl
  | cons k ks ih =>
    rcases hk : p k with _ | _
    · rw [List.filter_cons_of_neg (by simp [hk]), compareKeys, h k hk, ih]
      rfl
    · rw [List.filter_cons_of_pos hk, compareKeys, compareKeys, ih]

end WaveFinder
