import Mathlib.Data.List.Perm.Basic
import Mathlib.Logic.Relation
import WaveFinder.Proofs.Search.Agreement

/-!
# Proofs/Search/TokenOrder — how far the order of the tokens matters to a search

    tokens ──reorder, name again──▸ tokens'

A token tells the same pair wherever it stands, so tokens in another order tell the same pairs in
another order, and under a key whose tokens keep their order the query holds the same values
(`given_eq_of_filter_eq`).  That the date fields agree is a matter of which are named, not of when.
A token that is named again is accepted again and adds nothing (`foldlM_accept_again`).  A search
goes by the order of the days and of the sort keys alone, so any number of such changes leaves the
results as they were (`Plan.results_eq_of_reworded`).
-/

namespace WaveFinder

open Query

/-- Whether a search goes by the order in which the values of a key come: the first of the days
counts, and the first of the sort keys decides first. -/
def Key.goesByOrder (k : Key) : Bool :=
  k.isDay || k == .order

theorem Key.token_inj {j k : Key} (h : j.token = k.token) : j = k := by
  have hread := congrArg ofToken? h
  rwa [ofToken?_token, ofToken?_token, Option.some.injEq] at hread

namespace Query

variable {c : Clock} {j k : Key} {v w w' : String} {t : List Char} {p p' : Key × String} {q : Query}
  {ts us before after : List (List Char)} {ps ps' : List (Key × String)}

/-! ## Tokens of a key -/

/-- Whether a token begins with a key and a colon. -/
def beginsWith (k : Key) (t : List Char) : Bool :=
  (k.token.toList ++ [':']).isPrefixOf t

/-- One change to the tokens of a text. -/
inductive Rewords : List (List Char) → List (List Char) → Prop
  /-- The tokens come in another order, but those of a key whose order matters come in the same. -/
  | reorder {ts us : List (List Char)} : ts.Perm us →
      (∀ k : Key, k.goesByOrder = true → ts.filter (beginsWith k) = us.filter (beginsWith k)) →
      Rewords ts us
  /-- A token that came before comes again. -/
  | again {before after : List (List Char)} {t : List Char} : t ∈ before →
      Rewords (before ++ after) (before ++ t :: after)

/-- **A token that says a value begins with the key of the value and with no other.** -/
theorem beginsWith_iff (h : Says t j v) : beginsWith k t = true ↔ j = k := by
  rw [beginsWith, List.isPrefixOf_iff_prefix]
  constructor
  · rintro ⟨rest, hrest⟩
    have hkey : ∀ (i : Key) (cs : List Char),
        (i.token.toList ++ ':' :: cs).takeWhile (· != ':') = i.token.toList := by
      intro i cs
      have hpos : ∀ d ∈ i.token.toList, (d != ':') = true := by
        intro d hd
        rw [bne_iff_ne]
        rintro rfl
        exact i.colon_notMem_token hd
      rw [List.takeWhile_append_of_pos hpos, List.takeWhile_cons_of_neg (by decide),
        List.append_nil]
    rw [List.append_assoc, List.singleton_append, h.split] at hrest
    have htokens := congrArg (List.takeWhile (· != ':')) hrest
    rw [hkey, hkey] at htokens
    exact (Key.token_inj (String.toList_inj.1 htokens)).symm
  · rintro rfl
    exact ⟨v.toList, by rw [h.split, List.append_assoc, List.singleton_append]⟩

/-! ## Tokens in another order -/

theorem Keeps.unique (h : Keeps c k v w) (h' : Keeps c k v w') : w = w' := by
  have hroom : empty.HasRoom k v := by
    rintro rfl u hu
    cases hu
  exact Except.ok.inj ((check_eq_ok_iff.2 ⟨h, hroom⟩).symm.trans (check_eq_ok_iff.2 ⟨h', hroom⟩))

theorem Tells.unique (h : Tells c t p) (h' : Tells c t p') : p = p' := by
  obtain ⟨v, hs, hkeep⟩ := h
  obtain ⟨v', hs', hkeep'⟩ := h'
  obtain ⟨hkey, rfl⟩ := hs.unique hs'
  refine Prod.ext hkey (hkeep.unique ?_)
  rwa [hkey]

/-- **Under a key, tokens give what those of the key give.** -/
theorem given_eq_of_filter_eq (h : List.Forall₂ (Tells c) ts ps)
    (h' : List.Forall₂ (Tells c) us ps')
    (hfilter : ts.filter (beginsWith k) = us.filter (beginsWith k)) : given k ps = given k ps' := by
  have hkey : ∀ t p, Tells c t p → (beginsWith k t = true ↔ (p.1 == k) = true) := by
    rintro t p ⟨v, hs, -⟩
    rw [beginsWith_iff hs, beq_iff_eq]
  have hunder := List.rel_filter (fun t p => hkey t p) h
  rw [hfilter] at hunder
  have hunique : Relator.RightUnique (Tells c) := fun _ _ _ => Tells.unique
  have hpairs := hunique.forall₂ hunder (List.rel_filter (fun t p => hkey t p) h')
  rw [given, given, hpairs]

/-- Date fields that agree have the same first if they are the same in some order. -/
theorem head?_eq_of_perm {vs ws : List String} (h : vs.Perm ws)
    (hagree : ∀ v ∈ vs, ∀ w ∈ vs, v = w) : vs.head? = ws.head? := by
  rcases vs with _ | ⟨v, vs⟩
  · rw [h.nil_eq]
  · rcases ws with _ | ⟨w, ws⟩
    · exact absurd h.eq_nil (List.cons_ne_nil v vs)
    · rw [List.head?_cons, List.head?_cons,
        hagree v (List.mem_cons_self ..) w (h.symm.subset (List.mem_cons_self ..))]

/-- **The same pairs in another order ask the same of a search**, if they give the same values in
the same order for the keys whose order matters. -/
theorem asksLike_of_perm (hperm : ps.Perm ps') (hagree : DateFieldsAgree none ps)
    (horder : ∀ k : Key, k.goesByOrder = true → given k ps = given k ps') (localDomain : String) :
    AsksLike localDomain localDomain (empty.insertAll ps) (empty.insertAll ps') := by
  have hgiven : ∀ k, (given k ps).Perm (given k ps') :=
    fun k => (hperm.filter fun p : Key × String => p.1 == k).map Prod.snd
  refine ⟨fun k hk => ?_, ?_, fun k _ r => ?_⟩
  · rw [first?_insertAll_empty, first?_insertAll_empty]
    rcases hk with hk | rfl
    · rw [horder k (by rw [Key.goesByOrder, hk, Bool.true_or])]
    · exact head?_eq_of_perm (hgiven _) hagree
  · rw [values_insertAll_empty, values_insertAll_empty, horder .order rfl]
  · rw [values_insertAll_empty, values_insertAll_empty, List.mem_map, List.mem_map]
    simp only [List.mem_eraseDups, (hgiven k).mem_iff]

/-- Tokens in another order are read if the tokens are, and as a query that asks the same. -/
theorem exists_of_perm (hperm : ts.Perm us)
    (horder : ∀ k : Key, k.goesByOrder = true → ts.filter (beginsWith k) = us.filter (beginsWith k))
    (localDomain : String) (hq : ts.foldlM (accept c) empty = .ok q) :
    ∃ q', us.foldlM (accept c) empty = .ok q' ∧ AsksLike localDomain localDomain q q' := by
  obtain ⟨ps, htells, hagree, rfl⟩ := foldlM_accept_eq_ok_iff.1 hq
  obtain ⟨ps', htells', hpairs⟩ := List.perm_comp_forall₂ hperm.symm htells
  have hagree' : DateFieldsAgree (empty.first? .dateField) ps' := by
    intro v hv w hw
    have hmem : ∀ {u}, u ∈ given .dateField ps' → u ∈ given .dateField ps := by
      intro u hu
      exact mem_given.2 (hpairs.subset (mem_given.1 hu))
    exact hagree v (hmem hv) w (hmem hw)
  refine ⟨_, foldlM_accept_eq_ok_iff.2 ⟨ps', htells', hagree', rfl⟩, ?_⟩
  exact asksLike_of_perm hpairs.symm hagree
    (fun k hk => given_eq_of_filter_eq htells htells' (horder k hk)) localDomain

/-! ## Tokens that come again -/

/-- **A token that was accepted is accepted again, and adds nothing.** -/
theorem accept_of_mem (hq : before.foldlM (accept c) empty = .ok q) (ht : t ∈ before) :
    accept c q t = .ok q := by
  obtain ⟨ps, htells, hagree, rfl⟩ := foldlM_accept_eq_ok_iff.1 hq
  obtain ⟨⟨k, w⟩, hp, htell⟩ := exists_right_of_mem htells ht
  have hvalue : w ∈ (empty.insertAll ps).values k := by
    rw [values_insertAll_empty, List.mem_eraseDups]
    exact mem_given.2 hp
  refine accept_eq_ok_iff.2 ⟨(k, w), htell, ?_, ext_values fun j => ?_⟩
  · rintro rfl u hu
    rw [first?_insertAll_empty] at hu
    exact hagree u (List.mem_of_mem_head? hu) w (mem_given.2 hp)
  · rw [values_insert]
    split
    · next hjk => rw [addNew, if_pos (hjk ▸ hvalue)]
    · rfl

theorem foldlM_accept_again (ht : t ∈ before) :
    (before ++ t :: after).foldlM (accept c) empty = (before ++ after).foldlM (accept c) empty := by
  rw [foldlM_accept_append, foldlM_accept_append]
  rcases hq : before.foldlM (accept c) empty with fault | q
  · rfl
  · simp only [Except.bind, List.foldlM_cons, accept_of_mem hq ht]
    rfl

/-! ## Any number of changes -/

/-- **One change to the tokens**: they are read or refused as before, and what they ask of a search
stays the same. -/
theorem Rewords.related (h : Rewords ts us) (c : Clock) (localDomain : String) :
    Except.Related (AsksLike localDomain localDomain) (ts.foldlM (accept c) empty)
      (us.foldlM (accept c) empty) := by
  cases h with
  | reorder hperm horder =>
    refine .of_forall (fun q => exists_of_perm hperm horder localDomain) fun q' hq' => ?_
    obtain ⟨q, hq, -⟩ := exists_of_perm hperm.symm (fun k hk => (horder k hk).symm) localDomain hq'
    exact ⟨q, hq⟩
  | again ht =>
    rw [foldlM_accept_again ht]
    exact .refl (AsksLike.refl localDomain) _

theorem related_of_reworded (h : Relation.ReflTransGen Rewords ts us) (c : Clock)
    (localDomain : String) :
    Except.Related (AsksLike localDomain localDomain) (ts.foldlM (accept c) empty)
      (us.foldlM (accept c) empty) := by
  induction h with
  | refl => exact .refl (AsksLike.refl localDomain) _
  | tail _ hstep ih => exact ih.trans (hstep.related c localDomain) fun _ _ _ => AsksLike.trans

end Query

/-! ## Searches -/

namespace Plan

/-- **The order of the tokens matters only where it is meant to.**  Let the tokens of a text be put
in another order in which the sort keys keep theirs, and so do the first days and the last days, and
let tokens come again after they came before, any number of times.  Then, on every clock and under
every domain, the one text is read if and only if the other is, comes to a plan if and only if the
other does, and finds the same: the same results, and of waves the same ids, in the same order. -/
theorem results_eq_of_reworded {s s' : String}
    (h : Relation.ReflTransGen Rewords (tokens s) (tokens s')) (clock : Clock)
    (localDomain : String) :
    ((∃ q, parse clock s = .ok q) ↔ ∃ q, parse clock s' = .ok q)
      ∧ ((∃ p, ofText clock localDomain s = .ok p) ↔ ∃ p, ofText clock localDomain s' = .ok p)
      ∧ ∀ p p', ofText clock localDomain s = .ok p → ofText clock localDomain s' = .ok p' →
          (∀ {ι : Type} [Ord ι] (entries : List (Summary ι)), p.run entries = p'.run entries)
          ∧ ∀ ws : List Wave, p.ids ws = p'.ids ws := by
  have hread : Except.Related (AsksLike localDomain localDomain) (parse clock s) (parse clock s') :=
    related_of_reworded h clock localDomain
  have hplan := related_ofText hread
  refine ⟨hread.exists_ok_iff, hplan.exists_ok_iff, fun p p' hp hp' => ?_⟩
  have hfinds := hplan.of_ok hp hp'
  exact ⟨hfinds.run_eq, hfinds.ids_eq⟩

/-- Ahead of UTC, a person is named after the days and not before them, and the first of the first
days comes again in the end. -/
theorem results_eq_of_reworded_days :
    ∃ p p', ofText (Clock.fixed 20700000) "example.com" "with:a from:20230301 from:20230101" = .ok p
      ∧ ofText (Clock.fixed 20700000) "example.com"
          "from:20230301 from:20230101 with:a from:20230301" = .ok p'
      ∧ ∀ ws : List Wave, p.ids ws = p'.ids ws := by
  have hreorder : Rewords (tokens "with:a from:20230301 from:20230101")
      (tokens "from:20230301 from:20230101 with:a" ++ []) := by
    refine .reorder (by decide) fun k hk => ?_
    cases k with
    | firstDay | lastDay | order => rfl
    | folder | person | creator | id | tag | dateField => cases hk
  have hagain : Rewords (tokens "from:20230301 from:20230101 with:a" ++ [])
      (tokens "from:20230301 from:20230101 with:a from:20230301") :=
    .again (show "from:20230301".toList ∈ _ by decide)
  obtain ⟨-, hplan, hfind⟩ :=
    results_eq_of_reworded ((Relation.ReflTransGen.single hreorder).tail hagain)
      (Clock.fixed 20700000) "example.com"
  obtain ⟨p, hp⟩ : ∃ p, ofText (Clock.fixed 20700000) "example.com"
      "with:a from:20230301 from:20230101" = .ok p := ⟨_, rfl⟩
  obtain ⟨p', hp'⟩ := hplan.1 ⟨p, hp⟩
  exact ⟨p, p', hp, hp', (hfind p p' hp hp').2⟩

end Plan

end WaveFinder
