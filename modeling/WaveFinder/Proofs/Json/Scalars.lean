import WaveFinder.Json.Reader

/-!
# Proofs/Json/Scalars — strings and whole numbers are read as they are written

A character of a string is written in one of three ways: as itself, by the escape of one letter, or
by its code point.  Each of them is read as that character and nothing more
(`readPieces?_escape`), so a string ends where its closing quotation mark stands.  A numeral ends
where no digit, fraction or exponent follows (`EndsNumber`).
-/

namespace WaveFinder.Json

open Text

variable {c e : Char} {cs rest : List Char}

/-! ## Strings -/

theorem hexValue4?_hexDigit {n : Nat} (h : n < 32) :
    hexValue4? '0' '0' (hexDigit (n / 16)) (hexDigit (n % 16)) = some n := by
  have hall : ∀ n < 32, hexValue4? '0' '0' (hexDigit (n / 16)) (hexDigit (n % 16)) = some n := by
    decide
  exact hall n h

theorem readPieces?_short (he : e ≠ 'u') (hc : shortEscape? e = some c) :
    readPieces? ('\\' :: e :: cs) = (readPieces? cs).map fun r => (.char c :: r.1, r.2) := by
  rw [readPieces?, hc]
  · cases readPieces? cs <;> rfl
  · exact fun _ _ _ _ _ h => absurd h he

theorem readPieces?_unit (hc : c.toNat < 32) :
    readPieces? ('\\' :: 'u' :: '0' :: '0' :: hexDigit (c.toNat / 16) :: hexDigit (c.toNat % 16)
        :: cs)
      = (readPieces? cs).map fun r => (.char c :: r.1, r.2) := by
  have hunit : Piece.ofUnit c.toNat = .char c := by
    rw [Piece.ofUnit, if_neg (by omega), Char.ofNat_toNat]
  rw [readPieces?, hexValue4?_hexDigit hc]
  cases readPieces? cs with
  | none => rfl
  | some r => rw [Option.map_some, ← hunit]

theorem readPieces?_self (hquote : c ≠ '"') (hslash : c ≠ '\\') (hc : ¬ c.toNat < 32) :
    readPieces? (c :: cs) = (readPieces? cs).map fun r => (.char c :: r.1, r.2) := by
  rw [readPieces?, if_neg hc]
  · cases readPieces? cs <;> rfl
  · exact fun h => hquote h
  · exact fun _ _ _ _ _ h => absurd h hslash
  · exact fun _ _ h => absurd h hslash

/-- **A character of a string is read as it is written.** -/
theorem readPieces?_escape (c : Char) (cs : List Char) :
    readPieces? (escape c ++ cs) = (readPieces? cs).map fun r => (.char c :: r.1, r.2) := by
  -- The cases are the lines of `escape`: seven escapes of one letter, a code point, and the rest.
  rw [escape]
  iterate 7
    split
    · next h => exact readPieces?_short (by decide) (by rw [beq_iff_eq.1 h]; rfl)
  split
  · next h => exact readPieces?_unit h
  · next hquote hslash _ _ _ _ _ hc =>
    exact readPieces?_self (mt beq_iff_eq.2 hquote) (mt beq_iff_eq.2 hslash) hc

theorem readPieces?_flatMap_escape (cs rest : List Char) :
    readPieces? (cs.flatMap escape ++ '"' :: rest) = some (cs.map .char, rest) := by
  induction cs with
  | nil => rfl
  | cons c cs ih => rw [List.flatMap_cons, List.append_assoc, readPieces?_escape, ih]; rfl

theorem joinPieces?_map_char (cs : List Char) : joinPieces? (cs.map .char) = some cs := by
  induction cs with
  | nil => rfl
  | cons c cs ih => rw [List.map_cons, joinPieces?, ih]; rfl

/-- **A string is read as it is written**, whatever comes after it. -/
theorem readString?_quoted (s : String) (rest : List Char) :
    readString? (s.toList.flatMap escape ++ '"' :: rest) = some (some s, rest) := by
  rw [readString?, readPieces?_flatMap_escape, Option.map_some]
  dsimp only
  rw [joinPieces?_map_char, Option.map_some, String.ofList_toList]

/-! ## Whole numbers -/

/-- No digit, fraction or exponent comes next. -/
def EndsNumber (rest : List Char) : Prop :=
  ∀ c ∈ rest.head?, c.isDigit = false ∧ c ≠ '.' ∧ c ≠ 'e' ∧ c ≠ 'E'

theorem readDigits?_append (hne : cs ≠ []) (hcs : ∀ c ∈ cs, c.isDigit = true)
    (hrest : EndsNumber rest) : readDigits? (cs ++ rest) = some (cs, rest) := by
  have htake : rest.takeWhile Char.isDigit = [] ∧ rest.dropWhile Char.isDigit = rest := by
    rcases rest with _ | ⟨c, rest⟩
    · exact ⟨rfl, rfl⟩
    · have hc : ¬ c.isDigit = true := by rw [(hrest c rfl).1]; exact Bool.false_ne_true
      exact ⟨List.takeWhile_cons_of_neg hc, List.dropWhile_cons_of_neg hc⟩
  rw [readDigits?, List.takeWhile_append_of_pos hcs, List.dropWhile_append_of_pos hcs, htake.1,
    htake.2, List.append_nil, if_neg (by rwa [List.isEmpty_iff])]

theorem readFraction?_of_endsNumber (h : EndsNumber rest) :
    readFraction? rest = some ([], rest) := by
  rw [readFraction?]
  rintro cs rfl
  exact (h '.' rfl).2.1 rfl

theorem readExponent?_of_endsNumber (h : EndsNumber rest) :
    readExponent? rest = some ([], rest) := by
  rcases rest with _ | ⟨c, rest⟩
  · rfl
  · obtain ⟨-, -, hlower, hupper⟩ := h c rfl
    have hletter : (c == 'e' || c == 'E') = false := by
      rw [beq_eq_false_iff_ne.2 hlower, beq_eq_false_iff_ne.2 hupper, Bool.false_or]
    unfold readExponent?
    dsimp only
    rw [hletter]
    rfl

/-- A number of two digits or more does not start with a zero. -/
theorem head?_ofNat_ne (n : Nat) (h : (Numeral.ofNat n).length ≠ 1) :
    (Numeral.ofNat n).head? ≠ some '0' := by
  intro hhead
  obtain ⟨ds, hds⟩ := List.head?_eq_some_iff.1 hhead
  have hpos : 0 < ds.length := by
    rw [hds, List.length_cons] at h
    omega
  -- Without the zero the digits are too few for the number.
  have hlt : n < 10 ^ ds.length := by
    have hvalue : Nat.ofDigitChars 10 ds 0 = n := by
      rw [← Nat.ofDigitChars_ten_toDigits (n := n), ← Numeral.ofNat, hds, Nat.ofDigitChars_cons]
      rfl
    rw [← hvalue]
    exact Numeral.ofDigitChars_lt fun c hc =>
      Numeral.isDigit_of_mem_ofNat (hds ▸ List.mem_cons_of_mem _ hc)
  have hle := (Nat.length_toDigits_le_iff (b := 10) (by decide) hpos).2 hlt
  rw [← Numeral.ofNat, hds, List.length_cons] at hle
  omega

theorem readUnsigned?_ofNat {sign : List Char} {n : Nat} (hsign : sign = [] ∨ n ≠ 0)
    (hrest : EndsNumber rest) :
    readUnsigned? sign (Numeral.ofNat n ++ rest)
      = some (.int (if sign.isEmpty then (n : Int) else -(n : Int)), rest) := by
  have hzero : ((Numeral.ofNat n).head? == some '0' && (Numeral.ofNat n).length != 1) = false := by
    by_cases h : (Numeral.ofNat n).length = 1
    · rw [h]
      exact Bool.and_false _
    · rw [beq_eq_false_iff_ne.2 (head?_ofNat_ne n h), Bool.false_and]
  have hsign' : (sign.isEmpty || n != 0) = true := by
    rcases hsign with rfl | hn
    · rfl
    · rw [bne_iff_ne.2 hn, Bool.or_true]
  have hvalue : Nat.ofDigitChars 10 (Numeral.ofNat n) 0 = n := Nat.ofDigitChars_ten_toDigits
  simp only [readUnsigned?, readDigits?_append (Numeral.ofNat_ne_nil n)
    (fun _ => Numeral.isDigit_of_mem_ofNat) hrest, readFraction?_of_endsNumber hrest,
    readExponent?_of_endsNumber hrest, hzero, hvalue, hsign', bind, Option.bind]
  rfl

/-- **A whole number is read as it is written**, where no digit, fraction or exponent follows. -/
theorem readNumber?_ofInt (n : Int) (hrest : EndsNumber rest) :
    readNumber? (Numeral.ofInt n ++ rest) = some (.int n, rest) := by
  rw [Numeral.ofInt]
  split
  · next hn =>
    rw [List.cons_append, readNumber?, readUnsigned?_ofNat (.inr (by omega)) hrest]
    have hvalue : -(n.natAbs : Int) = n := by omega
    exact congrArg (fun i => some (Json.int i, rest)) hvalue
  · next hn =>
    rw [readNumber?, readUnsigned?_ofNat (.inl rfl) hrest]
    · have hvalue : (n.natAbs : Int) = n := by omega
      exact congrArg (fun i => some (Json.int i, rest)) hvalue
    · intro cs hcs
      obtain ⟨d, ds, hds⟩ := List.exists_cons_of_ne_nil (Numeral.ofNat_ne_nil n.natAbs)
      have hd : d.isDigit = true :=
        Numeral.isDigit_of_mem_ofNat (n := n.natAbs) (hds ▸ List.mem_cons_self ..)
      rw [hds, List.cons_append] at hcs
      rw [(List.cons.inj hcs).1] at hd
      exact absurd hd (by decide)

end WaveFinder.Json
