import WaveFinder.Proofs.Text.LetterCase

/-!
# Proofs/Text/Lowercase — lower case is final, and is found between separators

    text ──lower──▸ lower case ──lower──▸ the same

No range of the table shifts a code point to where a range, the same or another, would shift it on
(`CaseRange.misses`), and the two small sigmas stay as they are.  So what has been put into lower
case is lower case (`lower_lower`), and no character becomes an `@` (`at_mem_lower_iff`).

A sigma looks past the characters around it only as far as to one that is neither cased nor to be
passed over.  Such a character parts a text into two that are lowered each on its own
(`lower_append_cons`).
-/

namespace WaveFinder.Text

variable {c d e : Char} {cs before : List Char}

/-! ## The table -/

namespace CaseRange

variable {r r' : CaseRange} {n : Nat}

/-- Where a range shifts a code point. -/
def shifted (r : CaseRange) (n : Nat) : Nat :=
  ((n : Int) + r.shift).toNat

/-- Whether a range shifts to characters, and to none before the small letters of ASCII. -/
def isSound (r : CaseRange) : Bool :=
  Nat.blt 0x60 (r.shifted r.first)
    && (Nat.blt (r.shifted r.last) 0xD800
      || Nat.blt 0xDFFF (r.shifted r.first) && Nat.blt (r.shifted r.last) 0x110000)

/-- Whether another range does not cover what a range shifts to: this lies below that range, or
above it, or in the gaps that it leaves at every second code point. -/
def misses (r r' : CaseRange) : Bool :=
  Nat.blt (r.shifted r.last) r'.first || Nat.blt r'.last (r.shifted r.first)
    || (r'.step % 2 == 0 && (r.step % 2 == 0 || r.first == r.last)
      && (r.shifted r.first + r'.first) % 2 == 1)

theorem covers_iff : r.covers n = true ↔ r.first ≤ n ∧ n ≤ r.last ∧ r.step ∣ n - r.first := by
  rw [covers, Bool.and_eq_true, Bool.and_eq_true, decide_eq_true_eq, decide_eq_true_eq, beq_iff_eq,
    ← Nat.dvd_iff_mod_eq_zero, and_assoc]

theorem isSound_iff :
    r.isSound = true ↔ 0x60 < r.shifted r.first ∧ (r.shifted r.last < 0xD800
      ∨ 0xDFFF < r.shifted r.first ∧ r.shifted r.last < 0x110000) := by
  simp only [isSound, Bool.and_eq_true, Bool.or_eq_true, Nat.blt_eq]

theorem misses_iff :
    r.misses r' = true ↔ r.shifted r.last < r'.first ∨ r'.last < r.shifted r.first
      ∨ 2 ∣ r'.step ∧ (2 ∣ r.step ∨ r.first = r.last)
        ∧ (r.shifted r.first + r'.first) % 2 = 1 := by
  simp only [misses, Bool.and_eq_true, Bool.or_eq_true, Nat.blt_eq, beq_iff_eq,
    ← Nat.dvd_iff_mod_eq_zero, or_assoc, and_assoc]

/-- A range shifts what it covers to between where it shifts its ends. -/
theorem shifted_bounds (hn : r.covers n = true) :
    r.shifted r.first ≤ r.shifted n ∧ r.shifted n ≤ r.shifted r.last := by
  obtain ⟨hfirst, hlast, -⟩ := covers_iff.1 hn
  rw [shifted, shifted, shifted]
  omega

theorem covers_shifted_of_misses (hr : r.isSound = true) (h : r.misses r' = true)
    (hn : r.covers n = true) : r'.covers (r.shifted n) = false := by
  obtain ⟨hlo, hhi⟩ := shifted_bounds hn
  obtain ⟨hsound, -⟩ := isSound_iff.1 hr
  obtain ⟨hfirst, hlast, hstep⟩ := covers_iff.1 hn
  rw [← Bool.not_eq_true, covers_iff]
  rintro ⟨hfirst', hlast', hstep'⟩
  obtain hbelow | habove | ⟨heven', heven, hodd⟩ := misses_iff.1 h
  · omega
  · omega
  · have hm2 : 2 ∣ r.shifted n - r'.first := Nat.dvd_trans heven' hstep'
    have hn2 : 2 ∣ n - r.first := by
      obtain heven | hone := heven
      · exact Nat.dvd_trans heven hstep
      · omega
    rw [shifted] at *
    omega

end CaseRange

/-- The table shifts to characters that no range shifts on, and none of them is the dotted capital
I. -/
theorem misses_lowercaseRanges :
    (lowercaseRanges.all fun r => r.isSound && r.misses ⟨0x130, 0x130, 1, 0⟩
      && lowercaseRanges.all r.misses) = true := by
  decide +kernel

/-- **What a range of the table shifts to** is a character beyond the ASCII capitals, and neither
the dotted capital I nor a code point that any range covers. -/
theorem shifted_of_mem_lowercaseRanges {r : CaseRange} {n : Nat} (hr : r ∈ lowercaseRanges)
    (hn : r.covers n = true) :
    (r.shifted n).isValidChar ∧ 0x60 < r.shifted n ∧ r.shifted n ≠ 0x130
      ∧ ∀ r' ∈ lowercaseRanges, r'.covers (r.shifted n) = false := by
  have htable := List.all_eq_true.1 misses_lowercaseRanges r hr
  obtain ⟨hhead, hmisses⟩ := (Bool.and_eq_true _ _).mp htable
  obtain ⟨hsound, hdotted⟩ := (Bool.and_eq_true _ _).mp hhead
  have hbounds := CaseRange.shifted_bounds hn
  have hvalid := CaseRange.isSound_iff.1 hsound
  refine ⟨?_, by omega, ?_, fun r' hr' => ?_⟩
  · rw [Nat.isValidChar]
    omega
  · rintro h
    have hcovers := CaseRange.covers_shifted_of_misses hsound hdotted hn
    rw [h] at hcovers
    exact absurd hcovers (by decide)
  · exact CaseRange.covers_shifted_of_misses hsound (List.all_eq_true.1 hmisses r' hr') hn

/-! ## One character -/

/-- A character is its own lower case. -/
def IsLower (c : Char) : Prop :=
  lowerChar c = [c]

instance : Decidable (IsLower c) :=
  inferInstanceAs (Decidable (_ = _))

theorem isLower_of_ascii (h : c.toNat < 128) (hupper : c.isUpper = false) : IsLower c := by
  rw [IsLower, lowerChar_of_ascii h, toLower_of_not_isUpper hupper]

theorem isLower_toLower (h : c.toNat < 128) : IsLower c.toLower := by
  refine isLower_of_ascii ?_ (isUpper_toLower c)
  rcases halpha : c.isAlpha with _ | _
  · rwa [toLower_of_not_isAlpha halpha]
  · exact toNat_lt_of_isAlpha ((isAlpha_toLower c).trans halpha)

/-- A capital sigma is not its own lower case. -/
theorem IsLower.ne_sigma (h : IsLower c) : c ≠ 'Σ' := by
  rintro rfl
  exact absurd h (by decide +kernel)

section Shifted

variable {r : CaseRange} {n : Nat} (hr : r ∈ lowercaseRanges) (hn : r.covers n = true)
include hr hn

theorem toNat_ofNat_shifted : (Char.ofNat (r.shifted n)).toNat = r.shifted n := by
  rw [Char.ofNat, dif_pos (shifted_of_mem_lowercaseRanges hr hn).1]
  rfl

theorem isLower_shifted : IsLower (Char.ofNat (r.shifted n)) := by
  obtain ⟨-, hbeyond, hdotted, hcovers⟩ := shifted_of_mem_lowercaseRanges hr hn
  have hcode := toNat_ofNat_shifted hr hn
  by_cases hascii : (Char.ofNat (r.shifted n)).toNat < 128
  · refine isLower_of_ascii hascii (Bool.eq_false_iff.2 fun hupper => ?_)
    have hcapital := isUpper_iff.1 hupper
    omega
  · have hne : Char.ofNat (r.shifted n) ≠ 'İ' := by
      intro h
      rw [h] at hcode
      exact hdotted hcode.symm
    have hnone : lowercaseRanges.find? (fun r' => r'.covers (r.shifted n)) = none :=
      List.find?_eq_none.2 fun r' hr' => by rw [hcovers r' hr']; decide
    rw [IsLower, lowerChar, if_neg hascii, if_neg (by simpa using hne), hcode, hnone]

end Shifted

/-- **The lower case of a character is lower case**, and it is an `@` only if the character is. -/
theorem of_mem_lowerChar (h : d ∈ lowerChar c) : IsLower d ∧ (d = '@' → c = '@') := by
  rw [lowerChar] at h
  split at h
  · next hascii =>
    obtain rfl := List.mem_singleton.1 h
    refine ⟨isLower_toLower hascii, fun hat => ?_⟩
    obtain hat | ⟨-, hno⟩ := eq_or_isAlpha (d := '@') hat
    · exact hat
    · exact absurd hno (by decide)
  · next hascii =>
    split at h
    · obtain rfl | h := List.mem_cons.1 h
      · exact ⟨by decide +kernel, fun hat => absurd hat (by decide)⟩
      · obtain rfl := List.mem_singleton.1 h
        exact ⟨by decide +kernel, fun hat => absurd hat (by decide)⟩
    · next hdotted =>
      split at h
      · next r hfind =>
        have hcovers : r.covers c.toNat = true := by simpa using List.find?_some hfind
        have hr := List.mem_of_find?_eq_some hfind
        obtain rfl : d = Char.ofNat (r.shifted c.toNat) := List.mem_singleton.1 h
        refine ⟨isLower_shifted hr hcovers, fun hat => ?_⟩
        have hcode := toNat_ofNat_shifted hr hcovers
        have hbeyond := (shifted_of_mem_lowercaseRanges hr hcovers).2.1
        rw [← hcode, hat] at hbeyond
        exact absurd hbeyond (by decide)
      · next hnone =>
        obtain rfl := List.mem_singleton.1 h
        refine ⟨?_, id⟩
        rw [IsLower, lowerChar, if_neg hascii, if_neg hdotted, hnone]

/-! ## Texts -/

theorem lowerAfter_cons_of_ne (hc : c ≠ 'Σ') (before cs : List Char) :
    lowerAfter before (c :: cs) = lowerChar c ++ lowerAfter (c :: before) cs := by
  rw [lowerAfter, if_neg (by simpa using hc)]

/-- What comes of a text is a small sigma or comes of one of its characters. -/
theorem of_mem_lowerAfter (h : d ∈ lowerAfter before cs) :
    IsLower d ∧ (d = '@' → '@' ∈ cs) := by
  induction cs generalizing before with
  | nil => exact absurd h List.not_mem_nil
  | cons c cs ih =>
    rw [lowerAfter, List.mem_append] at h
    obtain h | h := h
    · split at h
      · obtain rfl := List.mem_singleton.1 h
        split
        · exact ⟨by decide +kernel, fun hat => absurd hat (by decide)⟩
        · exact ⟨by decide +kernel, fun hat => absurd hat (by decide)⟩
      · obtain ⟨hlower, hat⟩ := of_mem_lowerChar h
        exact ⟨hlower, fun hd => List.mem_cons.2 (.inl (hat hd).symm)⟩
    · obtain ⟨hlower, hat⟩ := ih h
      exact ⟨hlower, fun hd => List.mem_cons_of_mem _ (hat hd)⟩

theorem isLower_of_mem_lower (h : d ∈ lower cs) : IsLower d :=
  (of_mem_lowerAfter h).1

theorem lowerAfter_of_isLower (h : ∀ c ∈ cs, IsLower c) (before : List Char) :
    lowerAfter before cs = cs := by
  induction cs generalizing before with
  | nil => rfl
  | cons c cs ih =>
    obtain ⟨hc, hcs⟩ := List.forall_mem_cons.1 h
    rw [lowerAfter_cons_of_ne hc.ne_sigma, ih hcs, hc]
    rfl

/-- **Lower case is lower case.** -/
theorem lower_lower (cs : List Char) : lower (lower cs) = lower cs :=
  lowerAfter_of_isLower (fun _ => isLower_of_mem_lower) []

/-! ## Between separators -/

section Separator

variable (hcased : isCased e = false) (hignorable : isCaseIgnorable e = false)
include hcased hignorable

/-- What stands beyond a character that is neither cased nor to be passed over is not seen. -/
theorem startsCased_append_cons (cs ds : List Char) :
    startsCased (cs ++ e :: ds) = startsCased cs := by
  induction cs with
  | nil =>
    rw [List.nil_append, startsCased, List.dropWhile_cons_of_neg (by rw [hignorable]; decide)]
    exact hcased
  | cons c cs ih =>
    rcases hc : isCaseIgnorable c with _ | _
    · rw [List.cons_append, startsCased, startsCased,
        List.dropWhile_cons_of_neg (by rw [hc]; decide),
        List.dropWhile_cons_of_neg (by rw [hc]; decide)]
    · rw [List.cons_append, startsCased, startsCased, List.dropWhile_cons_of_pos hc,
        List.dropWhile_cons_of_pos hc]
      exact ih

theorem lowerAfter_append_cons_before (us before cs : List Char) :
    lowerAfter (us ++ e :: before) cs = lowerAfter us cs := by
  induction cs generalizing us with
  | nil => rfl
  | cons c cs ih =>
    have hrest := ih (c :: us)
    rw [List.cons_append] at hrest
    rw [lowerAfter, lowerAfter, startsCased_append_cons hcased hignorable, hrest]

theorem lowerAfter_append_cons (before cs ds : List Char) :
    lowerAfter before (cs ++ e :: ds) = lowerAfter before cs ++ lowerChar e ++ lower ds := by
  induction cs generalizing before with
  | nil =>
    have hne : e ≠ 'Σ' := by
      rintro rfl
      exact absurd hcased (by decide +kernel)
    have hafter := lowerAfter_append_cons_before hcased hignorable [] before ds
    rw [List.nil_append] at hafter
    rw [List.nil_append, lowerAfter_cons_of_ne hne, hafter]
    rfl
  | cons c cs ih =>
    rw [List.cons_append, lowerAfter, lowerAfter, startsCased_append_cons hcased hignorable, ih]
    simp only [List.append_assoc]

/-- **A character that is neither cased nor to be passed over parts a text** into two that are put
into lower case each on its own. -/
theorem lower_append_cons (cs ds : List Char) :
    lower (cs ++ e :: ds) = lower cs ++ lowerChar e ++ lower ds :=
  lowerAfter_append_cons hcased hignorable [] cs ds

end Separator

theorem lower_append_at (cs ds : List Char) :
    lower (cs ++ '@' :: ds) = lower cs ++ '@' :: lower ds := by
  rw [lower_append_cons (by decide +kernel) (by decide +kernel), lowerChar_of_ascii (by decide),
    List.append_assoc]
  rfl

/-- **An `@` stays an `@`**, and nothing else becomes one. -/
theorem at_mem_lower_iff : '@' ∈ lower cs ↔ '@' ∈ cs := by
  refine ⟨fun h => (of_mem_lowerAfter h).2 rfl, fun h => ?_⟩
  obtain ⟨us, ds, rfl⟩ := List.append_of_mem h
  rw [lower_append_at]
  exact List.mem_append_right _ (List.mem_cons_self ..)

end WaveFinder.Text
