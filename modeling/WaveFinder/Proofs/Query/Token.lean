import WaveFinder.Proofs.Text.Words
import WaveFinder.Query.Text

/-!
# Proofs/Query/Token — what a token says

A token says that a key has a value (`Says`): it is the two of them with its only colon between.
This is what `splitToken?` reads off it, no more and no less (`splitToken?_eq_some_iff`), and
`tokenText` writes the token again (`Says.tokenText_eq`).
-/

namespace WaveFinder

open Text

theorem Key.colon_notMem_token (k : Key) : ':' ∉ k.token.toList := by
  rcases k <;> decide

theorem Key.toList_token_ne_nil (k : Key) : k.token.toList ≠ [] := by
  rcases k <;> decide

namespace Query

/-! ## Words -/

/-- Words with a space between them are the tokens of the text that they make. -/
theorem tokens_intercalate_of_words {ts : List (List Char)}
    (h : ∀ t ∈ ts, t ≠ [] ∧ ∀ c ∈ t, isAsciiBlank c = false) :
    tokens (" ".intercalate (ts.map String.ofList)) = ts := by
  have htext : (" ".intercalate (ts.map String.ofList)).toList = joinWith [' '] ts := by
    rw [String.toList_intercalate, List.map_map, joinWith_eq_intercalate]
    simp [Function.comp_def]
  rw [tokens, htext]
  exact runs_joinWith (by decide) h

/-! ## What a word says -/

/-- A token says that a key has a value: the token of the key, the only colon, and the value, of
which there is at least one character. -/
structure Says (token : List Char) (k : Key) (v : String) : Prop where
  colon : token.count ':' = 1
  split : token = k.token.toList ++ ':' :: v.toList
  value : v ≠ ""

variable {token : List Char} {k : Key} {v : String}

theorem says_iff :
    Says token k v ↔ token = k.token.toList ++ ':' :: v.toList ∧ v ≠ "" ∧ ':' ∉ v.toList := by
  have hcount : (k.token.toList ++ ':' :: v.toList).count ':' = v.toList.count ':' + 1 := by
    rw [List.count_append, List.count_eq_zero_of_not_mem k.colon_notMem_token,
      List.count_cons_self, Nat.zero_add]
  constructor
  · rintro ⟨hc, rfl, hv⟩
    refine ⟨rfl, hv, List.count_eq_zero.1 ?_⟩
    omega
  · rintro ⟨rfl, hv, hc⟩
    refine ⟨?_, rfl, hv⟩
    rw [hcount, List.count_eq_zero_of_not_mem hc]

/-- **Splitting a token gives what it says**, and fails if it says nothing. -/
theorem splitToken?_eq_some_iff : splitToken? token = some (k, v) ↔ Says token k v := by
  rw [says_iff, splitToken?]
  constructor
  · intro h
    split at h
    · rename_i key value hp
      obtain ⟨rfl, -, hvalue⟩ := pieces_eq_pair_iff.1 hp
      split at h
      · exact absurd h (by simp)
      · rename_i hne
        obtain ⟨j, hj, he⟩ := Option.map_eq_some_iff.1 h
        obtain ⟨rfl, rfl⟩ := Prod.mk.inj he
        have hkey : j.token.toList = key := by rw [Key.token_of_ofToken? hj, String.toList_ofList]
        refine ⟨by rw [hkey, String.toList_ofList], ?_, by rwa [String.toList_ofList]⟩
        intro hempty
        have : value = [] := by simpa using congrArg String.toList hempty
        exact hne (by simp [this])
    · exact absurd h (by simp)
  · rintro ⟨rfl, hv, hc⟩
    rw [pieces_eq_pair_iff.2 ⟨rfl, k.colon_notMem_token, hc⟩]
    have hv' : v.toList ≠ [] := by simpa using hv
    simp [hv', k.toList_token_ne_nil]

theorem Says.unique {j : Key} {w : String} (h : Says token k v) (h' : Says token j w) :
    k = j ∧ v = w := by
  have := (splitToken?_eq_some_iff.2 h).symm.trans (splitToken?_eq_some_iff.2 h')
  exact Prod.mk.inj (Option.some.inj this)

theorem toList_tokenText (k : Key) (v : String) :
    (tokenText k v).toList = k.token.toList ++ ':' :: v.toList := by
  simp [tokenText]

/-- A token is told by what it says. -/
theorem Says.tokenText_eq (h : Says token k v) : tokenText k v = String.ofList token := by
  rw [← String.toList_inj, toList_tokenText, String.toList_ofList, h.split]

end Query

end WaveFinder
