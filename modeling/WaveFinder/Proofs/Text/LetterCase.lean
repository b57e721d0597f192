import Mathlib.Data.List.Forall2
import WaveFinder.Proofs.Text.Blank
import WaveFinder.Text.Lowercase

/-!
# Proofs/Text/LetterCase — the case of ASCII letters

    text, text recased ──lower──▸ the same text

A text is recased (`Recased`) if some of its ASCII letters are put into the other case.  The lower
case of a character is then what it was, but for a capital sigma it also depends on the characters
around it.  It asks of those whether they are cased and whether they are to be passed over, and
ASCII letters of either case are cased and are not passed over (`isCased_of_isAlpha`,
`isCaseIgnorable_of_isAlpha`).  So the lower case of the text is what it was (`Recased.lower_eq`).
-/

namespace WaveFinder.Text

variable {c d : Char} {cs ds before before' : List Char}

/-- Two texts are the same but for the case of ASCII letters. -/
def Recased (cs ds : List Char) : Prop :=
  List.Forall₂ (fun c d => c.toLower = d.toLower) cs ds

instance : Decidable (Recased cs ds) :=
  inferInstanceAs (Decidable (List.Forall₂ _ cs ds))

theorem Recased.refl (cs : List Char) : Recased cs cs :=
  List.forall₂_same.2 fun _ _ => rfl

theorem Recased.symm (h : Recased cs ds) : Recased ds cs :=
  h.flip.imp fun _ _ => Eq.symm

theorem Recased.append {es fs : List Char} (h : Recased cs ds) (h' : Recased es fs) :
    Recased (cs ++ es) (ds ++ fs) :=
  List.rel_append h h'

/-! ## Letters -/

theorem toLower_of_not_isUpper (h : c.isUpper = false) : c.toLower = c :=
  dif_neg (of_decide_eq_false h)

theorem toLower_of_not_isAlpha (h : c.isAlpha = false) : c.toLower = c :=
  toLower_of_not_isUpper (Bool.or_eq_false_iff.1 h).1

theorem toNat_toLower_of_isUpper (h : c.isUpper = true) : c.toLower.toNat = c.toNat + 32 := by
  have hbounds := isUpper_iff.1 h
  have hval : c.toLower.val = c.val + 32 := congrArg Char.val (dif_pos (of_decide_eq_true h))
  have hadd : c.toLower.toNat = (c.toNat + 32) % 2 ^ 32 := by
    rw [Char.toNat, hval, UInt32.toNat_add]
    rfl
  omega

theorem isUpper_toLower (c : Char) : c.toLower.isUpper = false := by
  rcases h : c.isUpper with _ | _
  · rw [toLower_of_not_isUpper h, h]
  · have hbounds := isUpper_iff.1 h
    rw [Bool.eq_false_iff, ne_eq, isUpper_iff, toNat_toLower_of_isUpper h]
    omega

theorem isAlpha_toLower (c : Char) : c.toLower.isAlpha = c.isAlpha := by
  rcases h : c.isUpper with _ | _
  · rw [toLower_of_not_isUpper h]
  · have hbounds := isUpper_iff.1 h
    have hlower : c.toLower.isLower = true := by
      rw [isLower_iff, toNat_toLower_of_isUpper h]
      omega
    rw [isAlpha_iff.2 (.inl h), isAlpha_iff.2 (.inr hlower)]

/-- **Characters that differ in their case alone are both ASCII letters**, if they differ. -/
theorem eq_or_isAlpha (h : c.toLower = d.toLower) :
    c = d ∨ c.isAlpha = true ∧ d.isAlpha = true := by
  have hboth : c.isAlpha = d.isAlpha := by
    rw [← isAlpha_toLower, h, isAlpha_toLower]
  rcases hd : d.isAlpha with _ | _
  · rw [hd] at hboth
    rw [toLower_of_not_isAlpha hboth, toLower_of_not_isAlpha hd] at h
    exact .inl h
  · exact .inr ⟨hboth.trans hd, rfl⟩

/-- What is the same for all ASCII letters does not depend on their case. -/
theorem eq_of_toLower_eq {α : Type} {f : Char → α} {a : α} (hf : ∀ c, c.isAlpha = true → f c = a)
    (h : c.toLower = d.toLower) : f c = f d := by
  rcases eq_or_isAlpha h with rfl | ⟨hc, hd⟩
  · rfl
  · rw [hf c hc, hf d hd]

theorem ne_of_isAlpha {e : Char} (he : e.isAlpha = false) (h : c.isAlpha = true) :
    (c == e) = false := by
  rw [beq_eq_false_iff_ne]
  rintro rfl
  rw [he] at h
  cases h

theorem toNat_lt_of_isAlpha (h : c.isAlpha = true) : c.toNat < 128 := by
  rw [isAlpha_iff, isUpper_iff, isLower_iff] at h
  omega

/-- ASCII letters are cased, and they are not passed over. -/
theorem isCased_and_not_isCaseIgnorable (h : c.isAlpha = true) :
    isCased c = true ∧ isCaseIgnorable c = false := by
  have hletters : ∀ n < 128, (Char.ofNat n).isAlpha = true →
      isCased (Char.ofNat n) = true ∧ isCaseIgnorable (Char.ofNat n) = false := by decide +kernel
  have hc := hletters c.toNat (toNat_lt_of_isAlpha h)
  rw [Char.ofNat_toNat] at hc
  exact hc h

theorem isCased_of_isAlpha (h : c.isAlpha = true) : isCased c = true :=
  (isCased_and_not_isCaseIgnorable h).1

theorem isCaseIgnorable_of_isAlpha (h : c.isAlpha = true) : isCaseIgnorable c = false :=
  (isCased_and_not_isCaseIgnorable h).2

theorem lowerChar_eq_of_toLower_eq (h : c.toLower = d.toLower) : lowerChar c = lowerChar d := by
  rcases eq_or_isAlpha h with rfl | ⟨hc, hd⟩
  · rfl
  · rw [lowerChar_of_ascii (toNat_lt_of_isAlpha hc), lowerChar_of_ascii (toNat_lt_of_isAlpha hd), h]

/-! ## Texts -/

theorem Recased.startsCased_eq (h : Recased cs ds) : startsCased cs = startsCased ds := by
  induction h with
  | nil => rfl
  | @cons c d cs ds hcd _ ih =>
    have hignorable := eq_of_toLower_eq (fun _ => isCaseIgnorable_of_isAlpha) hcd
    have hcased := eq_of_toLower_eq (fun _ => isCased_of_isAlpha) hcd
    rcases hd : isCaseIgnorable d with _ | _
    · rw [startsCased, startsCased, List.dropWhile_cons_of_neg (by rw [hignorable, hd]; decide),
        List.dropWhile_cons_of_neg (by rw [hd]; decide)]
      exact hcased
    · rw [startsCased, startsCased, List.dropWhile_cons_of_pos (hignorable.trans hd),
        List.dropWhile_cons_of_pos hd]
      exact ih

theorem Recased.lowerAfter_eq (hbefore : Recased before before') (h : Recased cs ds) :
    lowerAfter before cs = lowerAfter before' ds := by
  induction h generalizing before before' with
  | nil => rfl
  | @cons c d cs ds hcd hrest ih =>
    have hsigma : (c == 'Σ') = (d == 'Σ') :=
      eq_of_toLower_eq (fun _ => ne_of_isAlpha (e := 'Σ') (by decide)) hcd
    have hstarts : startsCased cs = startsCased ds := Recased.startsCased_eq hrest
    rw [lowerAfter, lowerAfter, hsigma, hstarts, hbefore.startsCased_eq,
      lowerChar_eq_of_toLower_eq hcd, ih (.cons hcd hbefore)]

/-- **The lower case of a text does not depend on the case of its ASCII letters.** -/
theorem Recased.lower_eq (h : Recased cs ds) : lower cs = lower ds :=
  Recased.lowerAfter_eq .nil h

/-- A text without ASCII letters can be recased in no way. -/
theorem Recased.eq_of_forall (h : Recased cs ds) (hcs : ∀ c ∈ cs, c.isAlpha = false) : cs = ds := by
  induction h with
  | nil => rfl
  | @cons c d cs ds hcd _ ih =>
    obtain ⟨hc, hcs⟩ := List.forall_mem_cons.1 hcs
    have hsame : c = d := (eq_or_isAlpha hcd).resolve_right fun halpha => by simp [hc] at halpha
    rw [hsame, ih hcs]

/-- Other characters than ASCII letters stand in a text or do not, whatever the case. -/
theorem Recased.mem_iff {e : Char} (he : e.isAlpha = false) (h : Recased cs ds) :
    e ∈ cs ↔ e ∈ ds := by
  induction h with
  | nil => rfl
  | @cons c d cs ds hcd _ ih =>
    have hsame : (c == e) = (d == e) := eq_of_toLower_eq (fun _ => ne_of_isAlpha he) hcd
    have hhead : e = c ↔ e = d := by
      rw [@eq_comm _ e c, @eq_comm _ e d, ← beq_iff_eq, hsame, beq_iff_eq]
    rw [List.mem_cons, List.mem_cons, hhead, ih]

end WaveFinder.Text
