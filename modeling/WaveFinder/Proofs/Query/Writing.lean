import WaveFinder.Proofs.Query.Grammar

/-!
# Proofs/Query/Writing — a text that is written pair by pair

    pairs ──written──▸ text ──parse──▸ query

Any pairs of a key and a value can be written one after the other, but a value that is empty, holds
a colon or holds an ASCII blank is not told from its surroundings again (`IsWritable`).  Pairs whose
values are writable are the pairs that the text says, so it is read if each of the values is kept,
and as what is kept of them (`parse_written_eq_ok_iff`).
-/

namespace WaveFinder

open Text

theorem Key.isAsciiBlank_of_mem_token {k : Key} {c : Char} (h : c ∈ k.token.toList) :
    isAsciiBlank c = false := by
  have hall : k.token.toList.all (fun c => !isAsciiBlank c) = true := by rcases k <;> rfl
  simpa using List.all_eq_true.1 hall c h

namespace Query

variable {c : Clock} {k : Key} {v : String} {ps : List (Key × String)}

/-! ## One pair -/

/-- A value that can stand in a token. -/
structure IsWritable (v : String) : Prop where
  ne_empty : v ≠ ""
  colon : ':' ∉ v.toList
  blank : ∀ c ∈ v.toList, isAsciiBlank c = false

theorem says_tokenText (h : IsWritable v) : Says (tokenText k v).toList k v :=
  says_iff.2 ⟨toList_tokenText k v, h.ne_empty, h.colon⟩

theorem isAsciiBlank_of_mem_tokenText (h : IsWritable v) :
    ∀ d ∈ (tokenText k v).toList, isAsciiBlank d = false := by
  intro d hd
  rw [toList_tokenText, List.mem_append, List.mem_cons] at hd
  rcases hd with hd | rfl | hd
  · exact Key.isAsciiBlank_of_mem_token hd
  · decide
  · exact h.blank d hd

/-- The token of a pair is a word. -/
theorem isWord_tokenText (h : IsWritable v) :
    (tokenText k v).toList ≠ [] ∧ ∀ d ∈ (tokenText k v).toList, isAsciiBlank d = false := by
  refine ⟨?_, isAsciiBlank_of_mem_tokenText h⟩
  rw [toList_tokenText]
  exact List.append_ne_nil_of_left_ne_nil k.toList_token_ne_nil _

/-- **The token of a pair tells what is kept of the pair.** -/
theorem tells_tokenText_iff (h : IsWritable v) {p : Key × String} :
    Tells c (tokenText k v).toList p ↔ p.1 = k ∧ Keeps c k v p.2 := by
  constructor
  · rintro ⟨u, hs, hkeep⟩
    obtain ⟨rfl, rfl⟩ := hs.unique (says_tokenText h)
    exact ⟨rfl, hkeep⟩
  · rintro ⟨rfl, hkeep⟩
    exact ⟨v, says_tokenText h, hkeep⟩

/-! ## Values that can be written -/

theorem isWritable_of_all (hne : v ≠ "")
    (h : v.toList.all (fun d => d != ':' && !isAsciiBlank d) = true) : IsWritable v := by
  have hd : ∀ d ∈ v.toList, d ≠ ':' ∧ isAsciiBlank d = false := by
    simpa [List.all_eq_true] using h
  exact ⟨hne, fun hcolon => (hd _ hcolon).1 rfl, fun d hmem => (hd d hmem).2⟩

theorem isWritable_folder (f : Folder) : IsWritable f.token := by
  rcases f <;> exact isWritable_of_all (by decide) rfl

theorem isWritable_dateField (f : DateField) : IsWritable f.token := by
  rcases f <;> exact isWritable_of_all (by decide) rfl

theorem isWritable_order (o : SortKey) : IsWritable o.token := by
  rcases o with ⟨_ | _ | _, _ | _⟩ <;> exact isWritable_of_all (by decide) rfl

/-- A date can be written, though not every date that is written can be read. -/
theorem isWritable_compact (d : Date) : IsWritable (String.ofList d.compact) where
  ne_empty h := d.compact_ne_nil (by simpa using congrArg String.toList h)
  colon h := by
    rw [String.toList_ofList] at h
    rcases Date.of_mem_compact h with h | h | h <;> exact absurd h (by decide)
  blank c h := by
    rw [String.toList_ofList] at h
    rcases Date.of_mem_compact h with h | rfl | rfl
    · exact isAsciiBlank_of_isDigit h
    · decide
    · decide

/-! ## Pair after pair -/

/-- The text of some pairs, with a space between two of them. -/
def written (ps : List (Key × String)) : String :=
  " ".intercalate (ps.map fun p => tokenText p.1 p.2)

theorem tokens_written (h : ∀ p ∈ ps, IsWritable p.2) :
    tokens (written ps) = ps.map fun p => (tokenText p.1 p.2).toList := by
  have htext : written ps
      = " ".intercalate ((ps.map fun p => (tokenText p.1 p.2).toList).map String.ofList) := by
    rw [written, List.map_map]
    simp only [Function.comp_def, String.ofList_toList]
  rw [htext, tokens_intercalate_of_words]
  rintro t ht
  obtain ⟨p, hp, rfl⟩ := List.mem_map.1 ht
  exact isWord_tokenText (h p hp)

/-- **What a written text is read as**: each of the values is kept in some form, the date fields
among them agree, and the query is made of what is kept. -/
theorem parse_written_eq_ok_iff (h : ∀ p ∈ ps, IsWritable p.2) {q : Query} :
    parse c (written ps) = .ok q
      ↔ ∃ kept, List.Forall₂ (fun p w => w.1 = p.1 ∧ Keeps c p.1 p.2 w.2) ps kept
          ∧ DateFieldsAgree none kept ∧ q = empty.insertAll kept := by
  rw [parse_eq_ok_iff, tokens_written h]
  refine exists_congr fun kept => and_congr_left fun _ => ?_
  rw [List.forall₂_map_left_iff]
  exact forall₂_congr_of_mem fun p hp _ => tells_tokenText_iff (h p hp)

end Query

end WaveFinder
