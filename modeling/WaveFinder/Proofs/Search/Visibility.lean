import WaveFinder.Proofs.Pointwise
import WaveFinder.Search.Plan

/-!
# Proofs/Search/Visibility — what a search can see of a wave

    waves ──summary──▸ entries ──Plan.run──▸ results ──id──▸ ids

A search tells entries apart by the id, the latest of either time, the author of the root and who
takes part (`Summary.LooksLike`).  Entries that look alike meet the same criteria and compare alike
with others, so searching lists of them gives results that look alike (`Plan.forall₂_run`).

All of this but the id comes from the conversation, and the order of its wavelets matters among the
roots alone: a root, though it is looked for among all wavelets, is a conversational one
(`Wavelet.isConversational_of_root`).  So a wave may be given any other wavelets, or lose them, and
no search can tell (`Plan.ofText_ids_eq_of_sameConversation`).
-/

namespace WaveFinder

/-! ## Entries that look alike -/

section Entries

variable {ι : Type} {s s' t t' : Summary ι}

/-- Two entries are the same to a search: it sees the same id, times, author and people. -/
structure Summary.LooksLike (s t : Summary ι) : Prop where
  id : s.id = t.id
  latest : ∀ time : Document → Int, s.latest time = t.latest time
  rootCreator : s.rootCreator = t.rootCreator
  involves : ∀ a, Criteria.involves s a = Criteria.involves t a

/-- **Entries that look alike meet the same criteria.** -/
theorem Summary.LooksLike.meets_eq (h : s.LooksLike t) (c : Criteria) : c.meets s = c.meets t := by
  have htime : ∀ f, Criteria.timeOf f s = Criteria.timeOf f t := by
    rintro (_ | _)
    · exact h.latest _
    · exact h.latest _
  have hwindow : c.meetsWindow s = c.meetsWindow t := by
    rw [Criteria.meetsWindow, Criteria.meetsWindow, htime]
  have hcreators : c.meetsCreators s = c.meetsCreators t := by
    rw [Criteria.meetsCreators, Criteria.meetsCreators, h.rootCreator]
  have hpeople : c.meetsPeople s = c.meetsPeople t := by
    rw [Criteria.meetsPeople, Criteria.meetsPeople, funext h.involves]
  rw [Criteria.meets, Criteria.meets, hwindow, hcreators, hpeople]

/-- **Entries that look alike compare alike**, by whatever keys. -/
theorem Summary.LooksLike.compareBy_eq [Ord ι] (h : s.LooksLike t) (h' : s'.LooksLike t')
    (ks : List SortKey) : compareBy ks s s' = compareBy ks t t' := by
  have hkey : ∀ k : SortKey, k.compare s s' = k.compare t t' := by
    rintro ⟨_ | _ | _, d⟩
    · exact congrArg d.apply (congrArg₂ compare (h.latest _) (h'.latest _))
    · exact congrArg d.apply (congrArg₂ compare (h.latest _) (h'.latest _))
    · refine congrArg d.apply ?_
      rw [SortKey.compareIn, SortKey.compareIn, rankedCreator, rankedCreator, rankedCreator,
        rankedCreator, h.rootCreator, h'.rootCreator]
  induction ks with
  | nil => rw [compareBy, compareBy, h.id, h'.id]
  | cons k ks ih => rw [compareBy, compareBy, hkey, ih]

/-- **A search of entries that look alike gives results that look alike**, one by one. -/
theorem Plan.forall₂_run [Ord ι] (p : Plan) {es fs : List (Summary ι)}
    (h : List.Forall₂ Summary.LooksLike es fs) :
    List.Forall₂ Summary.LooksLike (p.run es) (p.run fs) := by
  refine forall₂_mergeSort (List.rel_filter (fun s t hst => ?_) h) fun s t hst s' t' hst' => ?_
  · exact iff_of_eq (congrArg (· = true) (hst.meets_eq p.criteria))
  · exact congrArg Ordering.isLE (hst.compareBy_eq hst' p.ranking.keys)

end Entries

/-! ## Waves of the same conversation -/

namespace Wavelet

/-- A wavelet is conversational if its id is `conv+` with a name after it. -/
def IsConversational (u : Wavelet) : Prop :=
  ∃ name, name ≠ "" ∧ u.id = "conv+" ++ name

theorem isConversationalId_iff {id : String} :
    isConversationalId id = true ↔ ∃ name, name ≠ "" ∧ id = "conv+" ++ name := by
  have hlist : isConversationalId id = true
      ↔ ∃ c cs, id.toList = "conv+".toList ++ c :: cs := by
    rw [isConversationalId]
    split
    next c cs h => exact iff_of_true rfl ⟨c, cs, h⟩
    next hno =>
      refine iff_of_false Bool.false_ne_true ?_
      rintro ⟨c, cs, h⟩
      exact hno c cs h
  rw [hlist]
  constructor
  · rintro ⟨c, cs, h⟩
    refine ⟨String.ofList (c :: cs), ?_, ?_⟩
    · exact fun he => List.cons_ne_nil c cs (String.ofList_eq_empty_iff.1 he)
    · have hname : (String.ofList (c :: cs)).toList = c :: cs := String.toList_ofList
      rw [← String.toList_inj, String.toList_append, h, hname]
  · rintro ⟨name, hne, rfl⟩
    rcases hname : name.toList with _ | ⟨c, cs⟩
    · exact absurd (String.toList_eq_nil_iff.1 hname) hne
    · exact ⟨c, cs, by rw [String.toList_append, hname]⟩

instance : DecidablePred IsConversational :=
  fun _ => decidable_of_iff _ isConversationalId_iff

theorem isConversational_document (u : Wavelet) :
    u.document.isConversational = decide u.IsConversational := by
  rw [Bool.eq_iff_iff, decide_eq_true_iff]
  exact isConversationalId_iff

/-- A root is conversational. -/
theorem isConversational_of_root {u : Wavelet} (h : u.id = rootId) : u.IsConversational :=
  ⟨"root", by decide, h⟩

end Wavelet

namespace Wave

variable {w v : Wave}

/-- Two waves are the same conversation: they have one id and the same conversational wavelets, in
some order but with the roots among them in the same order.  Whatever other wavelets they hold is
left open. -/
structure SameConversation (w v : Wave) : Prop where
  id : w.id = v.id
  conversational : (w.wavelets.filter fun u => u.IsConversational).Perm
    (v.wavelets.filter fun u => u.IsConversational)
  roots : (w.wavelets.filter fun u => u.id = Wavelet.rootId)
    = v.wavelets.filter fun u => u.id = Wavelet.rootId

theorem conversation_summary (w : Wave) :
    w.summary.conversation
      = (w.wavelets.filter fun u => u.IsConversational).map Wavelet.document := by
  rw [Summary.conversation, summary, List.filter_map]
  exact congrArg _ (List.filter_congr fun u _ => u.isConversational_document)

theorem rootCreator_summary (w : Wave) :
    w.summary.rootCreator
      = (w.wavelets.filter fun u => u.id = Wavelet.rootId).head?.map Wavelet.creator := by
  rw [Summary.rootCreator, summary, List.find?_map, Option.map_map, List.head?_filter]
  rfl

/-- **Waves of the same conversation look alike.** -/
theorem SameConversation.looksLike (h : SameConversation w v) :
    w.summary.LooksLike v.summary := by
  have hconversation : w.summary.conversation.Perm v.summary.conversation := by
    rw [conversation_summary, conversation_summary]
    exact h.conversational.map _
  refine ⟨h.id, fun time => ?_, ?_, fun a => hconversation.any_eq⟩
  · exact (hconversation.map time).foldl_eq' (fun m _ n _ k => by omega) _
  · rw [rootCreator_summary, rootCreator_summary, h.roots]

/-- **What may be changed**: a wave is the same conversation as another if its wavelets are the
conversational ones of the other and any that are not, mixed in any way that keeps the roots in
their order. -/
theorem sameConversation_iff :
    SameConversation w v
      ↔ w.id = v.id
        ∧ (∃ others : List Wavelet, (∀ u ∈ others, ¬ u.IsConversational)
          ∧ v.wavelets.Perm ((w.wavelets.filter fun u => u.IsConversational) ++ others))
        ∧ (w.wavelets.filter fun u => u.id = Wavelet.rootId)
          = v.wavelets.filter fun u => u.id = Wavelet.rootId := by
  constructor
  · rintro ⟨hid, hperm, hroots⟩
    refine ⟨hid, ⟨v.wavelets.filter fun u => ¬ u.IsConversational, fun u hu => ?_, ?_⟩, hroots⟩
    · exact of_decide_eq_true (List.mem_filter.1 hu).2
    · refine List.Perm.trans ?_ (hperm.symm.append_right _)
      simpa using (List.filter_append_perm (fun u => decide u.IsConversational) v.wavelets).symm
  · rintro ⟨hid, ⟨others, hothers, hperm⟩, hroots⟩
    refine ⟨hid, ?_, hroots⟩
    have hnone : (others.filter fun u => u.IsConversational) = [] :=
      List.filter_eq_nil_iff.2 fun u hu => by simpa using hothers u hu
    have hfilter := hperm.filter fun u => u.IsConversational
    rw [List.filter_append, hnone, List.append_nil, List.filter_filter] at hfilter
    simpa using hfilter.symm

end Wave

/-! ## Searches -/

namespace Plan

variable {ws vs : List Wave}

theorem ids_eq_of_sameConversation (p : Plan) (h : List.Forall₂ Wave.SameConversation ws vs) :
    p.ids ws = p.ids vs := by
  have hlooks : List.Forall₂ Summary.LooksLike (ws.map Wave.summary) (vs.map Wave.summary) :=
    List.rel_map (fun _ _ hwv => hwv.looksLike) h
  have hids := List.rel_map (P := Eq) (fun _ _ hst => hst.id) (p.forall₂_run hlooks)
  rwa [List.forall₂_eq_eq_eq] at hids

/-- **No search sees what is not part of the conversation.**  Two lists of waves that are, one by
one, the same conversations give the same ids in the same order, or the search fails for the same
reason, whatever the clock, the domain and the text. -/
theorem ofText_ids_eq_of_sameConversation (h : List.Forall₂ Wave.SameConversation ws vs)
    (clock : Clock) (localDomain text : String) :
    (ofText clock localDomain text).map (fun p => p.ids ws)
      = (ofText clock localDomain text).map fun p => p.ids vs := by
  have hids : (fun p : Plan => p.ids ws) = fun p => p.ids vs :=
    funext fun p => p.ids_eq_of_sameConversation h
  rw [hids]

/-- A reply moves in front of two roots, and around them come a draft, which Bob takes part in, and
a wavelet whose id stops at the sign; a search for Ann's waves with Bob finds as much as before. -/
theorem ofText_ids_eq_of_sameConversation_draft :
    ∃ p, ofText Clock.utc "example.com" "creator:ann with:bob orderby:createdasc" = .ok p
      ∧ p.ids [⟨"v", []⟩, ⟨"w", [⟨"conv+root", ⟨"ann@example.com"⟩, 5, 7, []⟩,
          ⟨"conv+root", ⟨"bob@example.com"⟩, 1, 2, []⟩, ⟨"conv+b", ⟨"bob@example.com"⟩, 6, 6, []⟩]⟩]
        = p.ids [⟨"v", [⟨"user+bob", ⟨"bob@example.com"⟩, 9, 9, []⟩]⟩,
          ⟨"w", [⟨"draft", ⟨"ann@example.com"⟩, 8, 8, [⟨"bob@example.com"⟩]⟩,
            ⟨"conv+b", ⟨"bob@example.com"⟩, 6, 6, []⟩, ⟨"conv+root", ⟨"ann@example.com"⟩, 5, 7, []⟩,
            ⟨"conv+", ⟨"bob@example.com"⟩, 9, 9, []⟩,
            ⟨"conv+root", ⟨"bob@example.com"⟩, 1, 2, []⟩]⟩] := by
  obtain ⟨p, hp⟩ : ∃ p,
      ofText Clock.utc "example.com" "creator:ann with:bob orderby:createdasc" = .ok p := ⟨_, rfl⟩
  have hmap : ∀ ws : List Wave,
      (ofText Clock.utc "example.com" "creator:ann with:bob orderby:createdasc").map
        (fun p => p.ids ws) = .ok (p.ids ws) := fun ws => by rw [hp]; rfl
  refine ⟨p, hp, @Except.ok.inj Refusal _ _ _ ?_⟩
  rw [← hmap, ← hmap]
  refine ofText_ids_eq_of_sameConversation (.cons ?_ (.cons ?_ .nil)) _ _ _
  · exact ⟨rfl, by decide, rfl⟩
  · exact ⟨rfl, by decide, rfl⟩

end Plan

end WaveFinder
