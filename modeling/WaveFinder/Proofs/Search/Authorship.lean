import WaveFinder.Proofs.Query.Writing
import WaveFinder.Proofs.Search.Narrowing
import WaveFinder.Proofs.Search.Visibility

/-!
# Proofs/Search/Authorship — the author of a wave is one of those who take part

    text creator:x ──▸ criteria,  where x is the creator       ──▸ results
    text with:x    ──▸ criteria', where x is one of the people ──▸ results', which contain these

The author of a wave is looked up at its root, and the root is found by its id; people are looked
for in the conversation, and what belongs to it is told by how an id begins.  A root begins like the
conversation, so the author takes part in the wave (`Wave.involves_of_rootCreator`).  A value is
read as the same address under either key, and nothing else of the query depends on the key that it
stands under (`Criteria.meets_of_insert_person`).
-/

namespace WaveFinder

open Text Query

/-! ## Waves -/

/-- **The author of a wave takes part in it.** -/
theorem Wave.involves_of_rootCreator {w : Wave} {a : Address} (h : w.summary.rootCreator = some a) :
    Criteria.involves w.summary a = true := by
  rw [rootCreator_summary] at h
  obtain ⟨u, hu, rfl⟩ := Option.map_eq_some_iff.1 h
  obtain ⟨hmem, hroot⟩ := List.mem_filter.1 (List.mem_of_mem_head? hu)
  have hconversational := Wavelet.isConversational_of_root (of_decide_eq_true hroot)
  rw [Criteria.involves, conversation_summary, List.any_eq_true]
  refine ⟨u.document, List.mem_map_of_mem
    (List.mem_filter.2 ⟨hmem, decide_eq_true hconversational⟩), ?_⟩
  rw [Bool.or_eq_true, beq_iff_eq]
  exact .inl rfl

/-! ## One value under either key -/

namespace Query

variable {c : Clock} {localDomain s x : String} {q q' : Query} {k : Key} {as as' : List Address}
  {a : Address}

/-- What is written after a text and a blank is one more token. -/
theorem tokens_append_tokenText (s : String) (k : Key) (hx : IsWritable x) :
    tokens (s ++ " " ++ tokenText k x) = tokens s ++ [(tokenText k x).toList] := by
  have hne : (tokenText k x).toList ≠ [] := by
    rw [toList_tokenText]
    exact List.append_ne_nil_of_left_ne_nil k.toList_token_ne_nil _
  have htext : (s ++ " " ++ tokenText k x).toList = s.toList ++ ' ' :: (tokenText k x).toList := by
    simp
  rw [tokens, htext, runs_append_cons (by decide),
    runs_of_forall hne (isAsciiBlank_of_mem_tokenText hx), tokens]

/-- A creator or a person after a text is put into the query as it stands. -/
theorem exists_insert_of_parse_append_tokenText (hk : k = .creator ∨ k = .person)
    (hx : IsWritable x) (hq' : parse c (s ++ " " ++ tokenText k x) = .ok q') :
    ∃ q, parse c s = .ok q ∧ q' = q.insert k x := by
  obtain ⟨q, hq, haccept⟩ := (parse_append_eq_ok_iff (tokens_append_tokenText s k hx)).1 hq'
  obtain ⟨⟨j, w⟩, htells, -, rfl⟩ := accept_eq_ok_iff.1 haccept
  obtain ⟨rfl, hkeep⟩ := (tells_tokenText_iff hx).1 htells
  refine ⟨q, hq, ?_⟩
  rcases hk with rfl | rfl
  · rw [show w = x from hkeep]
  · rw [show w = x from hkeep]

/-- The first of the people of a key comes to the one address of the key. -/
theorem addresses_insert_of_has_eq_false (hno : q.has k = false)
    (hread : (q.insert k x).addresses localDomain k = .ok as) :
    ∃ a, Address.ofTyped localDomain x = .ok a ∧ as = [a] := by
  rw [addresses, values_insert, if_pos rfl, values_eq_nil_iff.2 hno, Except.mapM_eq_ok_iff] at hread
  obtain ⟨a, _, ha, hnil, rfl⟩ := List.forall₂_cons_left_iff.1 hread
  exact ⟨a, Except.mapError_eq_ok_iff.1 ha, by rw [List.forall₂_nil_left_iff.1 hnil]⟩

/-- One more of the people of a key comes to one more address at most. -/
theorem mem_addresses_insert (ha : Address.ofTyped localDomain x = .ok a)
    (hread : q.addresses localDomain k = .ok as)
    (hread' : (q.insert k x).addresses localDomain k = .ok as') {b : Address} (hb : b ∈ as') :
    b = a ∨ b ∈ as := by
  obtain ⟨raw, hraw, hb'⟩ := exists_left_of_mem (Except.mapM_eq_ok_iff.1 hread') hb
  rw [values_insert, if_pos rfl, mem_addNew] at hraw
  rcases hraw with hraw | rfl
  · obtain ⟨b', hmem, hb''⟩ := exists_right_of_mem (Except.mapM_eq_ok_iff.1 hread) hraw
    obtain rfl : b = b' := Except.ok.inj (hb'.symm.trans hb'')
    exact .inr hmem
  · exact .inl (Except.ok.inj ((Except.mapError_eq_ok_iff.1 hb').symm.trans ha))

end Query

namespace Criteria

variable {ι : Type} {clock : Clock} {localDomain x : String} {q : Query} {c c' : Criteria}
  {s : Summary ι}

/-- What meets the creators is by the creator if there is only one. -/
theorem rootCreator_of_meetsCreators {a : Address} (ha : c.creators = [a])
    (hs : c.meetsCreators s = true) : s.rootCreator = some a := by
  rw [meetsCreators, ha, List.isEmpty_cons, Bool.false_or] at hs
  rcases hroot : s.rootCreator with _ | b
  · rw [hroot] at hs
    cases hs
  · rw [hroot] at hs
    rw [List.mem_singleton.1 (List.contains_iff_mem.1 hs)]

/-- **Whoever is asked for as the creator may be asked for as one of the people instead**: where a
query names no creator, what meets it with a creator meets it with that person as well, if authors
take part. -/
theorem meets_of_insert_person (hno : q.has .creator = false)
    (hc : ofQuery clock localDomain (q.insert .creator x) = .ok c)
    (hc' : ofQuery clock localDomain (q.insert .person x) = .ok c')
    (hinvolves : ∀ a, s.rootCreator = some a → involves s a = true) (hs : c.meets s = true) :
    c'.meets s = true := by
  obtain ⟨hwindow, hcreators, hpeople⟩ := ofQuery_eq_ok_iff.1 hc
  obtain ⟨hwindow', hcreators', hpeople'⟩ := ofQuery_eq_ok_iff.1 hc'
  obtain ⟨hs₁, hs₂, hs₃⟩ := meets_eq_true_iff.1 hs
  obtain ⟨a, ha, hone⟩ := addresses_insert_of_has_eq_false hno hcreators
  rw [addresses_insert_of_ne (by decide)] at hpeople hcreators'
  refine meets_eq_true_iff.2 ⟨?_, ?_, ?_⟩
  · have hsame : Window.ofQuery clock (q.insert .person x)
        = Window.ofQuery clock (q.insert .creator x) := by
      refine Window.ofQuery_congr fun j hj => ?_
      rw [first?_insert_of_ne, first?_insert_of_ne]
      all_goals rintro rfl; simp [Key.isDay] at hj
    rw [hsame, hwindow, Except.ok.injEq] at hwindow'
    rwa [meetsWindow, ← hwindow']
  · rw [addresses_of_values_eq_nil (values_eq_nil_iff.2 hno), Except.ok.injEq] at hcreators'
    rw [meetsCreators, ← hcreators']
    rfl
  · rw [meetsPeople, List.all_eq_true] at hs₃ ⊢
    intro b hb
    rcases mem_addresses_insert ha hpeople hpeople' hb with rfl | hb
    · exact hinvolves b (rootCreator_of_meetsCreators hone hs₂)
    · exact hs₃ b hb

end Criteria

/-! ## Searches -/

namespace Plan

/-- **The author of a wave counts as one who takes part in it.**  Let a text name no creator, and
let it be followed by somebody, once as the creator and once as one of the people.  Where both texts
come to plans, on whatever clock and under whatever domain, the ids that the first finds among waves
are a part of those that the second finds, in the same order. -/
theorem ids_sublist_of_creator_of_person {clock : Clock} {localDomain s x : String} {p p' : Plan}
    (homits : Omits .creator (tokens s)) (hx : IsWritable x)
    (hp : ofText clock localDomain (s ++ " " ++ tokenText .creator x) = .ok p)
    (hp' : ofText clock localDomain (s ++ " " ++ tokenText .person x) = .ok p') (ws : List Wave) :
    (p.ids ws).Sublist (p'.ids ws) := by
  obtain ⟨q₁, hq₁, hc, hranking⟩ := ofText_eq_ok_iff.1 hp
  obtain ⟨q₂, hq₂, hc', hranking'⟩ := ofText_eq_ok_iff.1 hp'
  obtain ⟨q, hq, rfl⟩ := exists_insert_of_parse_append_tokenText (.inl rfl) hx hq₁
  obtain ⟨r, hr, rfl⟩ := exists_insert_of_parse_append_tokenText (.inr rfl) hx hq₂
  obtain rfl : q = r := Except.ok.inj (hq.symm.trans hr)
  rw [Ranking.ofQuery_insert (by decide)] at hranking hranking'
  refine (run_sublist_run_of_mem (hranking.trans hranking'.symm) fun e he hmeets => ?_).map _
  obtain ⟨w, -, rfl⟩ := List.mem_map.1 he
  exact Criteria.meets_of_insert_person ((has_eq_false_iff_omits hq).2 homits) hc hc'
    (fun _ => Wave.involves_of_rootCreator) hmeets

/-- What the whole domain has begun with Bob, an hour ahead of UTC, is among what Bob and the whole
domain take part in. -/
theorem ids_sublist_of_creator_of_person_shared :
    ∃ p p', ofText (Clock.fixed 3600000) "example.com" ("with:bob" ++ " " ++ "creator:@") = .ok p
      ∧ ofText (Clock.fixed 3600000) "example.com" ("with:bob" ++ " " ++ "with:@") = .ok p'
      ∧ ∀ ws : List Wave, (p.ids ws).Sublist (p'.ids ws) := by
  obtain ⟨p, hp⟩ : ∃ p, ofText (Clock.fixed 3600000) "example.com"
      ("with:bob" ++ " " ++ tokenText .creator "@") = .ok p := ⟨_, rfl⟩
  obtain ⟨p', hp'⟩ : ∃ p', ofText (Clock.fixed 3600000) "example.com"
      ("with:bob" ++ " " ++ tokenText .person "@") = .ok p' := ⟨_, rfl⟩
  have hbob : Says "with:bob".toList .person "bob" := splitToken?_eq_some_iff.1 rfl
  have homits : Omits .creator (tokens "with:bob") := by
    intro t ht v hv
    obtain rfl : t = "with:bob".toList := List.mem_singleton.1 ht
    exact absurd (hbob.unique hv).1 (by decide)
  exact ⟨p, p', hp, hp',
    ids_sublist_of_creator_of_person homits (isWritable_of_all (by decide) rfl) hp hp'⟩

end Plan

end WaveFinder
