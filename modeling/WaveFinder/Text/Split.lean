/-!
# Text/Split — cutting text at separators

`pieces sep` cuts a text at every separator and keeps the empty pieces; `runs sep` keeps the
non-empty ones, which are the maximal runs of other characters.  Words written one separator apart
are cut into the same words again (`runs_joinWith`).
-/

namespace WaveFinder.Text

/-- The parts of a text between its separators, empty ones included: one more than there are
separators. -/
def pieces (sep : Char → Bool) : List Char → List (List Char)
  | [] => [[]]
  | c :: cs =>
    if sep c then
      [] :: pieces sep cs
    else
      match pieces sep cs with
      | [] => [[c]]
      | w :: ws => (c :: w) :: ws

/-- The maximal runs of characters that are no separators. -/
def runs (sep : Char → Bool) (cs : List Char) : List (List Char) :=
  (pieces sep cs).filter (fun w => !w.isEmpty)

/-- Drops the characters of a class from both ends. -/
def trim (p : Char → Bool) (cs : List Char) : List Char :=
  ((cs.dropWhile p).reverse.dropWhile p).reverse

/-- Joins texts with a separator between neighbours. -/
def joinWith (sep : List Char) : List (List Char) → List Char
  | [] => []
  | [w] => w
  | w :: v :: ws => w ++ sep ++ joinWith sep (v :: ws)

theorem pieces_ne_nil (sep : Char → Bool) (cs : List Char) : pieces sep cs ≠ [] := by
  cases cs with
  | nil => simp [pieces]
  | cons c cs =>
    simp only [pieces]
    split
    · simp
    · split <;> simp

/-- No piece holds a separator. -/
theorem sep_of_mem_pieces {sep : Char → Bool} {cs w : List Char} (hw : w ∈ pieces sep cs) :
    ∀ c ∈ w, sep c = false := by
  induction cs generalizing w with
  | nil => simp only [pieces, List.mem_singleton] at hw; simp [hw]
  | cons c cs ih =>
    simp only [pieces] at hw
    split at hw
    · rcases List.mem_cons.1 hw with rfl | hw
      · simp
      · exact ih hw
    · next hc =>
      split at hw
      · next h => exact absurd h (pieces_ne_nil sep cs)
      · next v vs h =>
        rw [h] at ih
        rcases List.mem_cons.1 hw with rfl | hw
        · intro d hd
          rcases List.mem_cons.1 hd with rfl | hd
          · simpa using hc
          · exact ih (List.mem_cons_self ..) d hd
        · exact ih (List.mem_cons_of_mem _ hw)

/-- A text without separators is its own only piece. -/
theorem pieces_of_forall {sep : Char → Bool} {cs : List Char} (h : ∀ c ∈ cs, sep c = false) :
    pieces sep cs = [cs] := by
  induction cs with
  | nil => rfl
  | cons c cs ih =>
    rw [pieces, ih fun d hd => h d (List.mem_cons_of_mem _ hd)]
    simp [h c (List.mem_cons_self ..)]

/-- A separator ends the piece before it. -/
theorem pieces_append_cons {sep : Char → Bool} {c : Char} (hc : sep c = true)
    (cs ds : List Char) : pieces sep (cs ++ c :: ds) = pieces sep cs ++ pieces sep ds := by
  induction cs with
  | nil => simp [pieces, hc]
  | cons a cs ih =>
    simp only [List.cons_append, pieces, ih]
    split
    · simp
    · cases h : pieces sep cs with
      | nil => exact absurd h (pieces_ne_nil sep cs)
      | cons w ws => simp

theorem runs_append_cons {sep : Char → Bool} {c : Char} (hc : sep c = true) (cs ds : List Char) :
    runs sep (cs ++ c :: ds) = runs sep cs ++ runs sep ds := by
  simp [runs, pieces_append_cons hc]

theorem mem_runs {sep : Char → Bool} {cs w : List Char} (hw : w ∈ runs sep cs) :
    w ≠ [] ∧ ∀ c ∈ w, sep c = false := by
  simp only [runs, List.mem_filter, Bool.not_eq_true', List.isEmpty_eq_false_iff] at hw
  exact ⟨hw.2, sep_of_mem_pieces hw.1⟩

/-- **Words survive being written one separator apart.** -/
theorem runs_joinWith {sep : Char → Bool} {c : Char} (hc : sep c = true) {ws : List (List Char)}
    (h : ∀ w ∈ ws, w ≠ [] ∧ ∀ d ∈ w, sep d = false) : runs sep (joinWith [c] ws) = ws := by
  induction ws with
  | nil => rfl
  | cons w ws ih =>
    have hw := h w (List.mem_cons_self ..)
    have one : runs sep w = [w] := by simp [runs, pieces_of_forall hw.2, hw.1]
    cases ws with
    | nil => simpa [joinWith] using one
    | cons v ws =>
      rw [joinWith, List.append_assoc, List.singleton_append, runs_append_cons hc, one,
        ih fun u hu => h u (List.mem_cons_of_mem _ hu)]
      rfl

end WaveFinder.Text
