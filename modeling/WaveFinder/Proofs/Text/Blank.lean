import WaveFinder.Text.Blank
import WaveFinder.Text.Split

/-!
# Proofs/Text/Blank — letters, digits and what stands around words

No ASCII letter or digit is a blank or a control.  Trimming takes characters of a class off both
ends of a text: the text is what is left, with characters of the class around it
(`exists_eq_append_trim`), and a word that has none of them is left as a whole (`trim_append`).
-/

namespace WaveFinder.Text

variable {c : Char} {p : Char → Bool} {before word after : List Char}

/-! ## Letters and digits -/

theorem isUpper_iff : c.isUpper = true ↔ 65 ≤ c.toNat ∧ c.toNat ≤ 90 :=
  decide_eq_true_iff

theorem isLower_iff : c.isLower = true ↔ 97 ≤ c.toNat ∧ c.toNat ≤ 122 := by
  change (decide (97 ≤ c.toNat) && decide (c.toNat ≤ 122)) = true ↔ _
  rw [Bool.and_eq_true, decide_eq_true_iff, decide_eq_true_iff]

theorem isDigit_iff : c.isDigit = true ↔ 48 ≤ c.toNat ∧ c.toNat ≤ 57 := by
  change (decide (48 ≤ c.toNat) && decide (c.toNat ≤ 57)) = true ↔ _
  rw [Bool.and_eq_true, decide_eq_true_iff, decide_eq_true_iff]

theorem isAlpha_iff : c.isAlpha = true ↔ c.isUpper = true ∨ c.isLower = true :=
  iff_of_eq (Bool.or_eq_true _ _)

theorem isAlphanum_iff : c.isAlphanum = true ↔ c.isAlpha = true ∨ c.isDigit = true :=
  iff_of_eq (Bool.or_eq_true _ _)

theorem toNat_bounds_of_isAlphanum (h : c.isAlphanum = true) :
    48 ≤ c.toNat ∧ c.toNat ≤ 57 ∨ 65 ≤ c.toNat ∧ c.toNat ≤ 90 ∨ 97 ≤ c.toNat ∧ c.toNat ≤ 122 := by
  rw [isAlphanum_iff, isAlpha_iff, isUpper_iff, isLower_iff, isDigit_iff] at h
  omega

theorem isBlank_of_isAlphanum (h : c.isAlphanum = true) : isBlank c = false := by
  have hbounds := toNat_bounds_of_isAlphanum h
  simp only [isBlank, Bool.or_eq_false_iff, Bool.and_eq_false_iff, decide_eq_false_iff_not,
    beq_eq_false_iff_ne]
  omega

theorem isControl_of_isAlphanum (h : c.isAlphanum = true) : isControl c = false := by
  have hbounds := toNat_bounds_of_isAlphanum h
  simp only [isControl, Bool.or_eq_false_iff, Bool.and_eq_false_iff, decide_eq_false_iff_not]
  omega

/-! ## Trimming -/

/-- **What is trimmed off a text** are characters of the class, at both ends. -/
theorem exists_eq_append_trim (p : Char → Bool) (cs : List Char) :
    ∃ before after, cs = before ++ trim p cs ++ after ∧ ∀ c ∈ before ++ after, p c = true := by
  refine ⟨cs.takeWhile p, ((cs.dropWhile p).reverse.takeWhile p).reverse, ?_, fun c hc => ?_⟩
  · rw [trim, List.append_assoc, ← List.reverse_append, List.takeWhile_append_dropWhile,
      List.reverse_reverse, List.takeWhile_append_dropWhile]
  · obtain hc | hc := List.mem_append.1 hc
    · exact List.all_eq_true.1 List.all_takeWhile c hc
    · exact List.all_eq_true.1 List.all_takeWhile c (List.mem_reverse.1 hc)

theorem dropWhile_append_word (hbefore : ∀ c ∈ before, p c = true) (hne : word ≠ [])
    (hword : ∀ c ∈ word, p c = false) (after : List Char) :
    (before ++ (word ++ after)).dropWhile p = word ++ after := by
  obtain ⟨c, cs, rfl⟩ := List.exists_cons_of_ne_nil hne
  rw [List.dropWhile_append_of_pos hbefore, List.cons_append, List.dropWhile_cons_of_neg]
  rw [hword c (List.mem_cons_self ..)]
  decide

/-- **A word between characters of the class is what trimming leaves.** -/
theorem trim_append (hends : ∀ c ∈ before ++ after, p c = true) (hne : word ≠ [])
    (hword : ∀ c ∈ word, p c = false) : trim p (before ++ word ++ after) = word := by
  obtain ⟨hbefore, hafter⟩ := List.forall_mem_append.1 hends
  have hback : (after.reverse ++ (word.reverse ++ [])).dropWhile p = word.reverse ++ [] :=
    dropWhile_append_word (fun c hc => hafter c (List.mem_reverse.1 hc))
      (List.reverse_ne_nil_iff.2 hne) (fun c hc => hword c (List.mem_reverse.1 hc)) []
  rw [List.append_nil] at hback
  rw [trim, List.append_assoc, dropWhile_append_word hbefore hne hword, List.reverse_append, hback,
    List.reverse_reverse]

end WaveFinder.Text
