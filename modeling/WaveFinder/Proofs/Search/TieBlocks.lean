import Mathlib.Data.List.Nodup
import Mathlib.Data.List.SplitBy
import WaveFinder.Proofs.Search.Containment
import WaveFinder.Proofs.Search.Keys

/-!
# Proofs/Search/TieBlocks — the blocks of ties in a sorted list, and sorting the other way round

    sorted by ks            A A | B B B | C
    sorted the other way    C | B B B | A A

A list of entries falls into blocks, its maximal runs of entries that tie on every key, and in one
way only (`isTieCut_iff`).  In a sorted list it is the keys and not the ids that put a block before
another (`IsTieCut.pairwise_lt`).  Turning every direction round turns the comparison by keys round,
while the ids go on deciding inside the blocks (`Ranking.sort_turned`).
-/

namespace WaveFinder

open Std

/-! ## Directions turned round -/

/-- The other direction. -/
def Direction.turned : Direction → Direction
  | ascending => descending
  | descending => ascending

/-- The key with its direction turned round. -/
def SortKey.turned (k : SortKey) : SortKey :=
  { k with direction := k.direction.turned }

variable {ι : Type} {ks : List SortKey} {a b : Summary ι}

theorem Direction.apply_turned (d : Direction) (o : Ordering) :
    d.turned.apply o = (d.apply o).swap := by
  rcases d with _ | _
  · rfl
  · exact Ordering.swap_swap.symm

theorem SortKey.compare_turned (k : SortKey) (a b : Summary ι) :
    k.turned.compare a b = (k.compare a b).swap :=
  Direction.apply_turned ..

/-- **Turning every direction round turns the comparison by keys round.** -/
theorem compareKeys_turned (ks : List SortKey) (a b : Summary ι) :
    compareKeys (ks.map SortKey.turned) a b = (compareKeys ks a b).swap := by
  induction ks with
  | nil => rfl
  | cons k ks ih =>
    rw [List.map_cons, compareKeys, compareKeys, SortKey.compare_turned, ih, Ordering.swap_then]

theorem tieOn_turned : TieOn (ks.map SortKey.turned) a b ↔ TieOn ks a b := by
  rw [← compareKeys_eq_eq_iff, compareKeys_turned, Ordering.swap_eq_eq, compareKeys_eq_eq_iff]

/-! ## Blocks of ties -/

/-- A list cut into its maximal runs of entries that tie on every key: no run is empty, all entries
of a run tie, and a run does not go on in the next one. -/
structure IsTieCut (ks : List SortKey) (runs : List (List (Summary ι))) (es : List (Summary ι)) :
    Prop where
  flatten_eq : runs.flatten = es
  nil_notMem : [] ∉ runs
  ties : ∀ run ∈ runs, run.Pairwise (TieOn ks)
  parts : runs.IsChain fun us vs => ¬ (us ++ vs).Pairwise (TieOn ks)

/-- The blocks of a list: neighbours that tie on every key stay together. -/
def tieBlocks (ks : List SortKey) (es : List (Summary ι)) : List (List (Summary ι)) :=
  es.splitBy fun a b => compareKeys ks a b == .eq

instance : Trans (TieOn ks : Summary ι → Summary ι → Prop) (TieOn ks) (TieOn ks) :=
  ⟨TieOn.trans⟩

instance : Symm (TieOn ks : Summary ι → Summary ι → Prop) :=
  ⟨fun _ _ => TieOn.symm⟩

theorem compareKeys_beq_eq_iff : (compareKeys ks a b == .eq) = true ↔ TieOn ks a b :=
  beq_iff_eq.trans compareKeys_eq_eq_iff

section Blocks

variable {us vs es : List (Summary ι)} {runs : List (List (Summary ι))}

theorem tieOn_of_mem (h : us.Pairwise (TieOn ks)) (ha : a ∈ us) (hb : b ∈ us) : TieOn ks a b :=
  h.forall_of_forall (fun a _ => .refl ks a) ha hb

/-- Runs are one run together if an entry of the one ties with an entry of the other. -/
theorem pairwise_tieOn_append_iff (hus : us.Pairwise (TieOn ks)) (hvs : vs.Pairwise (TieOn ks))
    (ha : a ∈ us) (hb : b ∈ vs) : (us ++ vs).Pairwise (TieOn ks) ↔ TieOn ks a b := by
  refine ⟨fun h => tieOn_of_mem h (List.mem_append_left _ ha) (List.mem_append_right _ hb),
    fun h => List.pairwise_append.2 ⟨hus, hvs, fun u hu v hv => ?_⟩⟩
  exact ((tieOn_of_mem hus hu ha).trans h).trans (tieOn_of_mem hvs hb hv)

/-- **There is one cut into blocks.** -/
theorem isTieCut_iff : IsTieCut ks runs es ↔ runs = tieBlocks ks es := by
  constructor
  · rintro ⟨rfl, hnil, hties, hparts⟩
    refine (List.splitBy_flatten hnil (fun run hrun => ?_) ?_).symm
    · exact ((hties run hrun).imp fun h => compareKeys_beq_eq_iff.2 h).isChain
    · refine hparts.imp_of_mem_imp fun us vs hus hvs hpart => ?_
      have hus' : us ≠ [] := fun h => hnil (h ▸ hus)
      have hvs' : vs ≠ [] := fun h => hnil (h ▸ hvs)
      rw [pairwise_tieOn_append_iff (hties us hus) (hties vs hvs) (List.getLast_mem hus')
        (List.head_mem hvs'), ← compareKeys_beq_eq_iff, Bool.not_eq_true] at hpart
      exact ⟨hus', hvs', hpart⟩
  · rintro rfl
    have hties : ∀ run ∈ tieBlocks ks es, run.Pairwise (TieOn ks) := fun run hrun =>
      ((List.isChain_of_mem_splitBy hrun).imp fun _ _ h => compareKeys_beq_eq_iff.1 h).pairwise
    refine ⟨List.flatten_splitBy .., List.nil_notMem_splitBy _ _, hties, ?_⟩
    refine (List.isChain_getLast_head_splitBy _ es).imp_of_mem_imp fun us vs hus hvs hpart => ?_
    obtain ⟨hus', hvs', hpart⟩ := hpart
    rw [pairwise_tieOn_append_iff (hties us hus) (hties vs hvs) (List.getLast_mem hus')
      (List.head_mem hvs'), ← compareKeys_beq_eq_iff, hpart]
    exact Bool.false_ne_true

/-- Turning every direction round leaves the blocks as they are, and so they are from the other
end. -/
theorem IsTieCut.reverse (h : IsTieCut ks runs es) :
    IsTieCut (ks.map SortKey.turned) runs.reverse runs.reverse.flatten := by
  have hturned : (TieOn (ks.map SortKey.turned) : Summary ι → Summary ι → Prop) = TieOn ks :=
    funext fun _ => funext fun _ => propext tieOn_turned
  refine ⟨rfl, mt List.mem_reverse.1 h.nil_notMem, fun run hrun => ?_, ?_⟩
  · rw [hturned]
    exact h.ties run (List.mem_reverse.1 hrun)
  · rw [hturned, List.isChain_reverse]
    exact h.parts.imp fun us vs hpart hjoined =>
      hpart ((List.pairwise_append_comm TieOn.symm).1 hjoined)

end Blocks

/-! ## Blocks of a sorted list -/

section Sorted

variable [Ord ι] {es : List (Summary ι)} {runs : List (List (Summary ι))}

/-- **In a sorted list the blocks come in the order of the keys**, whatever the ids. -/
theorem IsTieCut.pairwise_lt (h : IsTieCut ks runs es)
    (hsorted : es.Pairwise fun a b => (compareBy ks a b).isLE) :
    runs.Pairwise fun us vs => ∀ u ∈ us, ∀ v ∈ vs, compareKeys ks u v = .lt := by
  obtain ⟨rfl, hnil, hties, hparts⟩ := h
  induction runs with
  | nil => exact .nil
  | cons us runs ih =>
    obtain ⟨hus, hties⟩ := List.forall_mem_cons.1 hties
    rw [List.flatten_cons, List.pairwise_append] at hsorted
    obtain ⟨-, hsorted, hle⟩ := hsorted
    obtain ⟨hnext, hparts⟩ := List.isChain_cons.1 hparts
    have hrest := ih (fun hmem => hnil (List.mem_cons_of_mem _ hmem)) hties hparts hsorted
    refine List.pairwise_cons.2 ⟨?_, hrest⟩
    rcases runs with _ | ⟨vs, runs⟩
    · exact fun _ hmem => absurd hmem List.not_mem_nil
    -- The next block is later by the keys, because it is no earlier and does not tie; and every
    -- other block is later than that.
    have hlt : ∀ u ∈ us, ∀ v ∈ vs, compareKeys ks u v = .lt := by
      intro u hu v hv
      have hle := hle u hu v (List.mem_flatten_of_mem (List.mem_cons_self ..) hv)
      have hpart := hnext vs (Option.mem_some_self vs)
      rw [pairwise_tieOn_append_iff hus (hties vs (List.mem_cons_self ..)) hu hv] at hpart
      exact (isLE_compareBy_iff.1 hle).resolve_right fun h => hpart h.1
    refine List.forall_mem_cons.2 ⟨hlt, fun ws hws u hu w hw => ?_⟩
    obtain ⟨v, hv⟩ := List.exists_mem_of_ne_nil vs fun h =>
      hnil (h ▸ List.mem_cons_of_mem _ (List.mem_cons_self ..))
    exact TransCmp.lt_trans (hlt u hu v hv) ((List.pairwise_cons.1 hrest).1 ws hws v hv w hw)

/-- Sorted the other way round, the blocks come from the other end, each as it was. -/
theorem IsTieCut.pairwise_reverse (h : IsTieCut ks runs es)
    (hsorted : es.Pairwise fun a b => (compareBy ks a b).isLE) :
    runs.reverse.flatten.Pairwise
      fun a b => (compareBy (ks.map SortKey.turned) a b).isLE := by
  refine List.pairwise_flatten.2 ⟨fun run hrun => ?_, List.pairwise_reverse.2 ?_⟩
  · have hmem := List.mem_reverse.1 hrun
    have hrun' : run.Pairwise fun a b => (compareBy ks a b).isLE :=
      (List.pairwise_flatten.1 (h.flatten_eq ▸ hsorted)).1 run hmem
    refine (hrun'.and (h.ties run hmem)).imp fun ⟨hle, htie⟩ => ?_
    rw [compareBy_eq_then, compareKeys_eq_eq_iff.2 htie] at hle
    rwa [compareBy_eq_then, compareKeys_eq_eq_iff.2 (tieOn_turned.2 htie)]
  · refine (h.pairwise_lt hsorted).imp fun {us vs} hlt v hv u hu => ?_
    refine isLE_compareBy_iff.2 (.inl ?_)
    rw [compareKeys_turned, OrientedCmp.eq_swap.symm]
    exact hlt u hu v hv

/-- Inside a block the ids ascend, if they are different. -/
theorem IsTieCut.pairwise_id_lt [LawfulEqOrd ι] (h : IsTieCut ks runs es)
    (hsorted : es.Pairwise fun a b => (compareBy ks a b).isLE)
    (hids : (es.map Summary.id).Nodup) {run : List (Summary ι)} (hrun : run ∈ runs) :
    run.Pairwise fun a b => Ord.compare a.id b.id = .lt := by
  have hpart : run.Sublist es := h.flatten_eq ▸ List.sublist_flatten_of_mem hrun
  have hne : run.Pairwise fun a b => a.id ≠ b.id := (List.pairwise_map.1 hids).sublist hpart
  refine (((hsorted.sublist hpart).and (h.ties run hrun)).and hne).imp ?_
  rintro a b ⟨⟨hle, htie⟩, hne⟩
  rw [compareBy_eq_then, compareKeys_eq_eq_iff.2 htie] at hle
  rcases hcompare : Ord.compare a.id b.id with _ | _ | _
  · rfl
  · exact absurd (LawfulEqOrd.compare_eq_iff_eq.1 hcompare) hne
  · rw [hcompare] at hle
    exact absurd hle Bool.false_ne_true

end Sorted

/-! ## Sorting -/

namespace Ranking

variable [Ord ι] [TransOrd ι] [LawfulEqOrd ι] {es : List (Summary ι)}

/-- **Entries with different ids have one sorted arrangement.** -/
theorem sort_eq_of_perm_of_pairwise {r : Ranking} {ss : List (Summary ι)}
    (hids : (es.map Summary.id).Nodup) (hperm : ss.Perm es)
    (hsorted : ss.Pairwise fun a b => (r.compare a b).isLE) : r.sort es = ss := by
  have hperm' : (r.sort es).Perm es := List.mergeSort_perm ..
  refine List.Perm.eq_of_pairwise (fun a b ha hb hle hge => ?_) (r.pairwise_sort es) hsorted
    (hperm'.trans hperm.symm)
  have htie : r.compare a b = .eq := OrientedCmp.isLE_antisymm hle hge
  exact List.inj_on_of_nodup_map hids (hperm'.subset ha) (hperm.subset hb)
    (compareBy_eq_eq_iff.1 htie).1

/-- **Turning every direction round turns round the blocks of ties and nothing else.**  There is one
way to cut the sorted list into its maximal runs of entries that tie on every key.  Sorted with
every direction turned round, the entries come in the same runs, the last run first and each run as
it was, and they are the maximal runs again; within a run the ids ascend. -/
theorem sort_turned (hks : ks ≠ []) (hids : (es.map Summary.id).Nodup) :
    ∃ blocks : List (List (Summary ι)),
      (∀ runs, IsTieCut ks runs ((ofKeys ks).sort es) ↔ runs = blocks)
        ∧ (ofKeys (ks.map SortKey.turned)).sort es = blocks.reverse.flatten
        ∧ IsTieCut (ks.map SortKey.turned) blocks.reverse
            ((ofKeys (ks.map SortKey.turned)).sort es)
        ∧ ∀ block ∈ blocks, block.Pairwise fun a b => Ord.compare a.id b.id = .lt := by
  have hkeys : (ofKeys ks).keys = ks := by rw [keys_ofKeys, if_neg hks]
  have hkeys' : (ofKeys (ks.map SortKey.turned)).keys = ks.map SortKey.turned := by
    rw [keys_ofKeys, if_neg (mt List.map_eq_nil_iff.1 hks)]
  have hsorted : ((ofKeys ks).sort es).Pairwise fun a b => (compareBy ks a b).isLE := by
    have := (ofKeys ks).pairwise_sort es
    simpa only [compare, hkeys] using this
  obtain ⟨blocks, hcut⟩ : ∃ blocks, IsTieCut ks blocks ((ofKeys ks).sort es) :=
    ⟨_, isTieCut_iff.2 rfl⟩
  have hperm : blocks.reverse.flatten.Perm es := by
    have := (List.reverse_perm blocks).flatten
    rw [hcut.flatten_eq] at this
    exact this.trans (List.mergeSort_perm ..)
  have hturned : (ofKeys (ks.map SortKey.turned)).sort es = blocks.reverse.flatten := by
    refine sort_eq_of_perm_of_pairwise hids hperm ?_
    simpa only [compare, hkeys'] using hcut.pairwise_reverse hsorted
  refine ⟨blocks, fun runs => ?_, hturned, hturned ▸ hcut.reverse, fun block hblock => ?_⟩
  · rw [isTieCut_iff, isTieCut_iff.1 hcut]
  · exact hcut.pairwise_id_lt hsorted
      (((List.mergeSort_perm ..).map Summary.id).nodup_iff.2 hids) hblock

/-- Two waves without documents tie, before one that was created later: the other way round it comes
first, and the two follow in the order of their ids. -/
theorem sort_turned_twoBlocks :
    ∃ late : Summary String,
      (ofKeys [⟨.created, .ascending⟩]).sort [⟨"a", []⟩, ⟨"c", []⟩, late]
          = [⟨"a", []⟩, ⟨"c", []⟩, late]
        ∧ (ofKeys [⟨.created, .descending⟩]).sort [⟨"a", []⟩, ⟨"c", []⟩, late]
          = [late, ⟨"a", []⟩, ⟨"c", []⟩] := by
  obtain ⟨late, hlate⟩ : ∃ late : Summary String,
      late = ⟨"b", [⟨5, 7, Address.unknown, true, true, []⟩]⟩ := ⟨_, rfl⟩
  have hids : ([⟨"a", []⟩, ⟨"c", []⟩, late].map Summary.id).Nodup := by
    subst hlate
    decide
  have hsort : (ofKeys [⟨.created, .ascending⟩]).sort [⟨"a", []⟩, ⟨"c", []⟩, late]
      = [⟨"a", []⟩, ⟨"c", []⟩, late] := by
    subst hlate
    exact List.mergeSort_of_pairwise (by decide)
  obtain ⟨blocks, hcut, hturned, -, -⟩ :=
    sort_turned (List.cons_ne_nil (⟨.created, .ascending⟩ : SortKey) []) hids
  have hblocks : [[⟨"a", []⟩, ⟨"c", []⟩], [late]] = blocks := by
    rw [← hcut, isTieCut_iff, hsort]
    subst hlate
    rfl
  rw [← hblocks] at hturned
  exact ⟨late, hsort, hturned⟩

end Ranking

end WaveFinder
