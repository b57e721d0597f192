import WaveFinder.Text.Split

/-!
# Proofs/Text/Words — the words of a text are its maximal runs

`MaximalRuns sep cs ws` says what the words of a text are without cutting it: a word is not empty,
holds no separator, and is followed by a separator or by nothing.  Every text has exactly one such
list of words, the one that `runs` cuts out of it (`maximalRuns_iff`).

The other half of the module goes the way back, from pieces to the text they were cut from
(`joinWith_pieces`).
-/

namespace WaveFinder.Text

variable {sep : Char → Bool} {cs : List Char}

/-! ## Maximal runs -/

/-- `ws` are the maximal runs of characters other than separators, in the order of the text. -/
inductive MaximalRuns (sep : Char → Bool) : List Char → List (List Char) → Prop
  | nil : MaximalRuns sep [] []
  | skip {c cs ws} : sep c = true → MaximalRuns sep cs ws → MaximalRuns sep (c :: cs) ws
  | run {w cs ws} : w ≠ [] → (∀ c ∈ w, sep c = false) → (∀ c ∈ cs.head?, sep c = true) →
      MaximalRuns sep cs ws → MaximalRuns sep (w ++ cs) (w :: ws)

theorem runs_cons_of_sep {c : Char} (hc : sep c = true) : runs sep (c :: cs) = runs sep cs :=
  runs_append_cons hc [] cs

theorem runs_of_forall {w : List Char} (hne : w ≠ []) (h : ∀ c ∈ w, sep c = false) :
    runs sep w = [w] := by
  simp [runs, pieces_of_forall h, hne]

/-- A word that a separator or the end of the text follows is the first of the runs. -/
theorem runs_append {w : List Char} (hne : w ≠ []) (h : ∀ c ∈ w, sep c = false)
    (hcs : ∀ c ∈ cs.head?, sep c = true) : runs sep (w ++ cs) = w :: runs sep cs := by
  rcases cs with _ | ⟨d, ds⟩
  · rw [List.append_nil, runs_of_forall hne h]
    rfl
  · have hd : sep d = true := hcs d rfl
    rw [runs_append_cons hd, runs_cons_of_sep hd, runs_of_forall hne h]
    rfl

theorem MaximalRuns.eq_runs {ws : List (List Char)} (h : MaximalRuns sep cs ws) :
    ws = runs sep cs := by
  induction h with
  | nil => rfl
  | skip hc _ ih => rw [ih, runs_cons_of_sep hc]
  | run hne hw hcs _ ih => rw [ih, runs_append hne hw hcs]

theorem exists_maximalRuns (sep : Char → Bool) (cs : List Char) :
    ∃ ws, MaximalRuns sep cs ws := by
  induction cs with
  | nil => exact ⟨[], .nil⟩
  | cons c cs ih =>
    obtain ⟨ws, h⟩ := ih
    by_cases hc : sep c = true
    · exact ⟨ws, .skip hc h⟩
    · -- The character opens a word of its own or belongs to the word that stands next.
      have hc' : sep c = false := by simpa using hc
      have hone : ∀ d ∈ [c], sep d = false := by simpa using hc'
      rcases h with _ | ⟨hd, h⟩ | ⟨hne, hw, hcs, h⟩
      · exact ⟨[[c]], .run (w := [c]) (by simp) hone (by simp) .nil⟩
      · exact ⟨[c] :: ws, .run (w := [c]) (by simp) hone (by simpa using hd) (.skip hd h)⟩
      · rename_i w rest ws
        refine ⟨(c :: w) :: ws, .run (w := c :: w) (by simp) ?_ hcs h⟩
        intro d hd
        rcases List.mem_cons.1 hd with rfl | hd
        · exact hc'
        · exact hw d hd

/-- **A text has one list of words, and `runs` finds it.** -/
theorem maximalRuns_iff {ws : List (List Char)} : MaximalRuns sep cs ws ↔ ws = runs sep cs := by
  refine ⟨MaximalRuns.eq_runs, ?_⟩
  rintro rfl
  obtain ⟨ws, h⟩ := exists_maximalRuns sep cs
  rwa [← h.eq_runs]

/-! ## Pieces joined again -/

theorem joinWith_cons (glue w : List Char) {ws : List (List Char)} (h : ws ≠ []) :
    joinWith glue (w :: ws) = w ++ glue ++ joinWith glue ws := by
  rcases ws with _ | ⟨v, ws⟩
  · exact absurd rfl h
  · rfl

theorem joinWith_eq_intercalate (glue : List Char) (ws : List (List Char)) :
    joinWith glue ws = glue.intercalate ws := by
  induction ws with
  | nil => rfl
  | cons w ws ih =>
    rcases ws with _ | ⟨v, ws⟩
    · simp [joinWith]
    · rw [joinWith, ih, List.intercalate_cons_cons]

/-- **The pieces between separators, joined by the separator, are the text.** -/
theorem joinWith_pieces (c : Char) (cs : List Char) : joinWith [c] (pieces (· == c) cs) = cs := by
  induction cs with
  | nil => rfl
  | cons d ds ih =>
    by_cases hd : d = c
    · subst hd
      have hp : pieces (· == d) (d :: ds) = [] :: pieces (· == d) ds := by simp [pieces]
      rw [hp, joinWith_cons _ _ (pieces_ne_nil _ _), ih]
      rfl
    · obtain ⟨w, ws, hw⟩ := List.exists_cons_of_ne_nil (pieces_ne_nil (· == c) ds)
      have hp : pieces (· == c) (d :: ds) = (d :: w) :: ws := by simp [pieces, hd, hw]
      have hj : joinWith [c] ((d :: w) :: ws) = d :: joinWith [c] (w :: ws) := by
        rcases ws with _ | ⟨v, ws⟩ <;> rfl
      rw [hp, hj, ← hw, ih]

/-- A text has two pieces if it holds the separator once, and they are what stands on either
side. -/
theorem pieces_eq_pair_iff {c : Char} {a b : List Char} :
    pieces (· == c) cs = [a, b] ↔ cs = a ++ c :: b ∧ c ∉ a ∧ c ∉ b := by
  have hne : ∀ {w : List Char}, c ∉ w ↔ ∀ d ∈ w, (d == c) = false := by
    intro w
    constructor
    · intro h d hd
      exact beq_eq_false_iff_ne.2 fun e => h (e ▸ hd)
    · intro h hc
      exact absurd (h c hc) (by simp)
  constructor
  · intro h
    have hj := joinWith_pieces c cs
    rw [h, joinWith, joinWith, List.append_assoc, List.singleton_append] at hj
    refine ⟨hj.symm, hne.2 ?_, hne.2 ?_⟩
    · exact sep_of_mem_pieces (h ▸ List.mem_cons_self ..)
    · exact sep_of_mem_pieces (h ▸ List.mem_cons_of_mem _ (List.mem_cons_self ..))
  · rintro ⟨rfl, ha, hb⟩
    rw [pieces_append_cons (by simp), pieces_of_forall (hne.1 ha), pieces_of_forall (hne.1 hb)]
    rfl

end WaveFinder.Text
