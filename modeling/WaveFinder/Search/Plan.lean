import WaveFinder.Search.Criteria
import WaveFinder.Search.Ranking

/-!
# Search/Plan — from the text of a query to its results

    text ──Query.parse──▸ Query ──Plan.ofQuery──▸ Plan ──Plan.run──▸ entries

A plan is what a query comes to in a zone and a domain: what an entry has to meet, and the order of
those that do.  Running it keeps the entries that meet the criteria and sorts them, so the result is
a rearrangement of a part of the input (`perm_run`).
-/

namespace WaveFinder

/-- A search that is ready to run. -/
structure Plan where
  /-- What an entry has to meet. -/
  criteria : Criteria
  /-- The order of the results. -/
  ranking : Ranking
  deriving DecidableEq, Repr

namespace Plan

/-- The plan of a query. -/
def ofQuery (clock : Clock) (localDomain : String) (q : Query) : Except Refusal Plan :=
  (Criteria.ofQuery clock localDomain q).map fun criteria =>
    { criteria, ranking := Ranking.ofQuery q }

/-- The plan of the text of a query. -/
def ofText (clock : Clock) (localDomain text : String) : Except Refusal Plan := do
  let q ← (Query.parse clock text).mapError Refusal.query
  ofQuery clock localDomain q

variable {ι : Type} [Ord ι]

/-- The results among the given entries, in order. -/
def run (p : Plan) (entries : List (Summary ι)) : List (Summary ι) :=
  p.ranking.sort (entries.filter p.criteria.meets)

/-- The ids of the results among waves, in order. -/
def ids (p : Plan) (waves : List Wave) : List String :=
  (p.run (waves.map Wave.summary)).map Summary.id

/-- **Nothing is lost and nothing invented**: the results are the entries that meet the criteria. -/
theorem perm_run (p : Plan) (entries : List (Summary ι)) :
    (p.run entries).Perm (entries.filter p.criteria.meets) :=
  List.mergeSort_perm ..

/-- Every result comes no later than those after it. -/
theorem pairwise_run [Std.TransOrd ι] (p : Plan) (entries : List (Summary ι)) :
    (p.run entries).Pairwise fun a b => (p.ranking.compare a b).isLE = true := by
  apply List.pairwise_mergeSort
  · exact fun a b c => isLE_compareBy_trans
  · exact p.ranking.isLE_compare_or

end Plan

end WaveFinder
