import WaveFinder.Query.Basic
import WaveFinder.Wave.Basic

/-!
# Search/Ranking — the order of results

A ranking is a list of sort keys: each key decides only what the keys before it leave open, and the
id decides what they all leave open.  With ids that are ordered lawfully the comparison is a total
preorder (`compareBy_swap`, `isLE_compareBy_trans`, `Ranking.isLE_compare_or`) whose ties share an
id.
-/

namespace WaveFinder

variable {ι : Type}

namespace Summary

/-- The author that an entry is ranked by. -/
def rankedCreator (s : Summary ι) : Address :=
  s.rootCreator.getD Address.unknown

end Summary

namespace SortKey

/-- The ascending comparison in a dimension. -/
def compareIn (d : Dimension) (a b : Summary ι) : Ordering :=
  match d with
  | .modified => compare (a.latest Document.modified) (b.latest Document.modified)
  | .created => compare (a.latest Document.created) (b.latest Document.created)
  | .creator => compare a.rankedCreator.text b.rankedCreator.text

/-- The comparison by one key. -/
def compare (k : SortKey) (a b : Summary ι) : Ordering :=
  k.direction.apply (compareIn k.dimension a b)

end SortKey

/-- The comparison by keys, the first that tells the entries apart deciding, and then by id. -/
def compareBy [Ord ι] : List SortKey → Summary ι → Summary ι → Ordering
  | [], a, b => Ord.compare a.id b.id
  | k :: ks, a, b => (k.compare a b).then (compareBy ks a b)

/-- The order of results. -/
structure Ranking where
  /-- The sort keys, the one that decides first in front. -/
  keys : List SortKey
  deriving DecidableEq, Repr

namespace Ranking

/-- The ranking that is used when none is named. -/
def standard : Ranking := ⟨[SortKey.standard]⟩

/-- The ranking by the given keys, and the standard one if there are none. -/
def ofKeys (keys : List SortKey) : Ranking :=
  if keys.isEmpty then standard else ⟨keys⟩

/-- The ranking that a query asks for. -/
def ofQuery (q : Query) : Ranking :=
  ofKeys q.sortKeys

/-- The comparison of two entries. -/
def compare [Ord ι] (r : Ranking) (a b : Summary ι) : Ordering :=
  compareBy r.keys a b

/-- Sorts entries, those that compare equal staying in their order. -/
def sort [Ord ι] (r : Ranking) (entries : List (Summary ι)) : List (Summary ι) :=
  entries.mergeSort fun a b => (r.compare a b).isLE

end Ranking

/-! ## The comparison is an order

A dimension compares what it measures, a direction may turn that round, and a list of keys composes
its members with the comparison of ids: each of these steps makes an order out of orders. -/

section Order

open Std

instance {α : Type} {cmp : α → α → Ordering} [TransCmp cmp] (d : Direction) :
    TransCmp fun a b => d.apply (cmp a b) := by
  rcases d with _ | _
  · exact inferInstanceAs (TransCmp cmp)
  · have hswap : (fun a b => Direction.descending.apply (cmp a b)) = fun a b => cmp b a := by
      funext a b
      exact OrientedCmp.eq_swap.symm
    rw [hswap]
    exact TransCmp.opposite

instance (d : Dimension) : TransCmp (SortKey.compareIn d : Summary ι → Summary ι → Ordering) := by
  rcases d with _ | _ | _
  · exact inferInstanceAs (TransCmp (compareOn (Summary.latest Document.modified)))
  · exact inferInstanceAs (TransCmp (compareOn (Summary.latest Document.created)))
  · exact inferInstanceAs (TransCmp (compareOn fun s : Summary ι => s.rankedCreator.text))

instance (k : SortKey) : TransCmp (k.compare : Summary ι → Summary ι → Ordering) :=
  inferInstanceAs (TransCmp fun a b => k.direction.apply (SortKey.compareIn k.dimension a b))

variable [Ord ι] [TransOrd ι]

instance (ks : List SortKey) : TransCmp (compareBy ks : Summary ι → Summary ι → Ordering) := by
  induction ks with
  | nil => exact inferInstanceAs (TransCmp (compareOn Summary.id))
  | cons k ks ih => exact inferInstanceAs (TransCmp (compareLex k.compare (compareBy ks)))

instance (r : Ranking) : TransCmp (r.compare : Summary ι → Summary ι → Ordering) :=
  inferInstanceAs (TransCmp (compareBy r.keys))

theorem compareBy_swap (ks : List SortKey) (a b : Summary ι) :
    (compareBy ks a b).swap = compareBy ks b a :=
  OrientedCmp.eq_swap.symm

theorem isLE_compareBy_trans {ks : List SortKey} {a b c : Summary ι}
    (hab : (compareBy ks a b).isLE) (hbc : (compareBy ks b c).isLE) :
    (compareBy ks a c).isLE :=
  TransCmp.isLE_trans hab hbc

theorem Ranking.isLE_compare_or (r : Ranking) (a b : Summary ι) :
    ((r.compare a b).isLE || (r.compare b a).isLE) = true := by
  rw [compare, compare, ← compareBy_swap r.keys a b]
  cases compareBy r.keys a b <;> rfl

end Order

end WaveFinder
