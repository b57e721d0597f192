/-!
# Text/Numeral — decimal numbers as text

Reading and writing of decimal integers.  The written form of a number has no sign unless it is
negative and no leading zero; the reader is laxer and takes a sign of either kind and leading zeros.
Reading undoes writing (`toInt?_ofInt`).
-/

namespace WaveFinder.Text.Numeral

-- Powers of natural numbers are core's here, whatever else is in scope.
attribute [local instance (2000)] instPowNat

/-- Whether a number fits a signed 64-bit word, the range of every instant in a record or query. -/
def fitsWord (n : Int) : Bool :=
  decide (-9223372036854775808 ≤ n) && decide (n ≤ 9223372036854775807)

/-- The value of a text that is one or more decimal digits and nothing else. -/
def toNat? (cs : List Char) : Option Nat :=
  if !cs.isEmpty && cs.all Char.isDigit then some (Nat.ofDigitChars 10 cs 0) else none

/-- The value of a text that is digits with at most one sign in front. -/
def toInt? : List Char → Option Int
  | '-' :: cs => (toNat? cs).map fun (n : Nat) => -(n : Int)
  | '+' :: cs => (toNat? cs).map Int.ofNat
  | cs => (toNat? cs).map Int.ofNat

/-- The value of a numeral, provided that it fits a signed 64-bit word. -/
def toWord? (cs : List Char) : Option Int :=
  (toInt? cs).filter fitsWord

/-- The value of a hexadecimal digit of either case. -/
def hexValue? (c : Char) : Option Nat :=
  if c.isDigit then some (c.toNat - 48)
  else if 'a' ≤ c ∧ c ≤ 'f' then some (c.toNat - 87)
  else if 'A' ≤ c ∧ c ≤ 'F' then some (c.toNat - 55)
  else none

/-- The decimal digits of a number, without leading zeros. -/
def ofNat (n : Nat) : List Char :=
  Nat.toDigits 10 n

/-- The decimal text of an integer. -/
def ofInt (n : Int) : List Char :=
  if n < 0 then '-' :: ofNat n.natAbs else ofNat n.natAbs

/-- The digits of a number, filled up with zeros in front to at least the given width. -/
def padded (width n : Nat) : List Char :=
  List.replicate (width - (ofNat n).length) '0' ++ ofNat n

theorem ofNat_ne_nil (n : Nat) : ofNat n ≠ [] :=
  Nat.toDigits_ne_nil

theorem isDigit_of_mem_ofNat {n : Nat} {c : Char} (h : c ∈ ofNat n) : c.isDigit = true :=
  Nat.isDigit_of_mem_toDigits (by decide) (by decide) h

theorem ofInt_ne_nil (n : Int) : ofInt n ≠ [] := by
  unfold ofInt
  split
  · exact List.cons_ne_nil _ _
  · exact ofNat_ne_nil _

theorem of_mem_ofInt {n : Int} {c : Char} (h : c ∈ ofInt n) : c.isDigit = true ∨ c = '-' := by
  unfold ofInt at h
  split at h
  · rcases List.mem_cons.1 h with rfl | h
    · exact .inr rfl
    · exact .inl (isDigit_of_mem_ofNat h)
  · exact .inl (isDigit_of_mem_ofNat h)

@[simp]
theorem toNat?_ofNat (n : Nat) : toNat? (ofNat n) = some n := by
  have h : (ofNat n).all Char.isDigit = true :=
    List.all_eq_true.2 fun _ => isDigit_of_mem_ofNat
  have h' : (ofNat n).isEmpty = false := by simp [ofNat_ne_nil]
  rw [toNat?, h, h']
  simp [ofNat]

private theorem toInt?_of_digits {cs : List Char} (h : ∀ c ∈ cs, c.isDigit = true) :
    toInt? cs = (toNat? cs).map Int.ofNat := by
  unfold toInt?
  split
  · exact absurd (h '-' (List.mem_cons_self ..)) (by decide)
  · exact absurd (h '+' (List.mem_cons_self ..)) (by decide)
  · rfl

/-- **Reading undoes writing.** -/
@[simp]
theorem toInt?_ofInt (n : Int) : toInt? (ofInt n) = some n := by
  unfold ofInt
  split
  · rw [toInt?, toNat?_ofNat, Option.map_some]
    exact congrArg some (by omega)
  · rw [toInt?_of_digits fun _ => isDigit_of_mem_ofNat, toNat?_ofNat, Option.map_some]
    exact congrArg some (Int.natAbs_of_nonneg (by omega))

theorem toWord?_ofInt {n : Int} (h : fitsWord n = true) : toWord? (ofInt n) = some n := by
  simp [toWord?, h]

/-- A number of fewer than `width` digits fills exactly `width` places. -/
theorem length_padded {width n : Nat} (hw : 0 < width) (h : n < 10 ^ width) :
    (padded width n).length = width := by
  have := (Nat.length_toDigits_le_iff (b := 10) (by decide) hw).2 h
  simp only [padded, ofNat, List.length_append, List.length_replicate] at this ⊢
  omega

theorem isDigit_of_mem_padded {width n : Nat} {c : Char} (h : c ∈ padded width n) :
    c.isDigit = true := by
  rcases List.mem_append.1 h with h | h
  · rw [(List.mem_replicate.1 h).2]; decide
  · exact isDigit_of_mem_ofNat h

/-- Leading zeros do not change the value. -/
theorem ofDigitChars_padded (width n : Nat) : Nat.ofDigitChars 10 (padded width n) 0 = n := by
  rw [padded, Nat.ofDigitChars_append, Nat.ofDigitChars_replicate_zero, Nat.mul_zero, ofNat,
    Nat.ofDigitChars_ten_toDigits]

/-- The ten digits are neighbours, from code point 48 on. -/
theorem digit_bounds {c : Char} (h : c.isDigit = true) : 48 ≤ c.toNat ∧ c.toNat ≤ 57 := by
  simp only [Char.isDigit, Bool.and_eq_true, decide_eq_true_eq] at h
  exact ⟨h.1, h.2⟩

/-- A numeral of `n` digits is below `10 ^ n`. -/
theorem ofDigitChars_lt {cs : List Char} (h : ∀ c ∈ cs, c.isDigit = true) :
    Nat.ofDigitChars 10 cs 0 < 10 ^ cs.length := by
  induction cs with
  | nil => simp
  | cons c cs ih =>
    have hc := digit_bounds (h c (List.mem_cons_self ..))
    have hcs := ih fun d hd => h d (List.mem_cons_of_mem _ hd)
    rw [Nat.ofDigitChars_cons, Nat.ofDigitChars_eq_ofDigitChars_zero, List.length_cons,
      Nat.pow_succ, show '0'.toNat = 48 from rfl, Nat.mul_zero, Nat.zero_add]
    have : 10 ^ cs.length * (c.toNat - 48) ≤ 10 ^ cs.length * 9 :=
      Nat.mul_le_mul_left _ (by omega)
    omega

/-- **Numerals of one length are told apart by their values.** -/
theorem ofDigitChars_inj {cs ds : List Char} (hc : ∀ c ∈ cs, c.isDigit = true)
    (hd : ∀ c ∈ ds, c.isDigit = true) (hl : cs.length = ds.length)
    (h : Nat.ofDigitChars 10 cs 0 = Nat.ofDigitChars 10 ds 0) : cs = ds := by
  induction cs generalizing ds with
  | nil => exact (List.eq_nil_of_length_eq_zero hl.symm).symm
  | cons c cs ih =>
    obtain _ | ⟨d, ds⟩ := ds
    · simp at hl
    · have hl' : cs.length = ds.length := by simpa using hl
      have hc' := fun a ha => hc a (List.mem_cons_of_mem c ha)
      have hd' := fun a ha => hd a (List.mem_cons_of_mem d ha)
      have bc := digit_bounds (hc c (List.mem_cons_self ..))
      have bd := digit_bounds (hd d (List.mem_cons_self ..))
      have lc := ofDigitChars_lt hc'
      have ld := ofDigitChars_lt hd'
      rw [Nat.ofDigitChars_cons, Nat.ofDigitChars_cons, Nat.ofDigitChars_eq_ofDigitChars_zero,
        Nat.ofDigitChars_eq_ofDigitChars_zero (l := ds), ← hl', show '0'.toNat = 48 from rfl,
        Nat.mul_zero, Nat.zero_add, Nat.zero_add] at h
      rw [← hl'] at ld
      have hpos : 0 < 10 ^ cs.length := Nat.pow_pos (by decide)
      have hval : Nat.ofDigitChars 10 cs 0 = Nat.ofDigitChars 10 ds 0 := by
        have := congrArg (· % 10 ^ cs.length) h
        simpa only [Nat.mul_add_mod, Nat.mod_eq_of_lt lc, Nat.mod_eq_of_lt ld] using this
      have hhead : c.toNat - 48 = d.toNat - 48 := by
        rw [hval] at h
        exact Nat.eq_of_mul_eq_mul_left hpos (Nat.add_right_cancel h)
      have hcd : c = d := Char.toNat_inj.1 (by omega)
      rw [hcd, ih hc' hd' hl' hval]

/-- The padded form of a numeral's value is the numeral. -/
theorem padded_ofDigitChars {cs : List Char} (h : ∀ c ∈ cs, c.isDigit = true) (hne : cs ≠ []) :
    padded cs.length (Nat.ofDigitChars 10 cs 0) = cs :=
  ofDigitChars_inj (fun _ => isDigit_of_mem_padded) h
    (length_padded (List.length_pos_iff.2 hne) (ofDigitChars_lt h)) (ofDigitChars_padded _ _)

end WaveFinder.Text.Numeral
