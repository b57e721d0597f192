import WaveFinder.Proofs.Json.Scalars

/-!
# Proofs/Json/RoundTrip — what is written is read back

    value ──compact──▸ text ──read?──▸ value

A value that is made of text and whole numbers (`IsPlain`) is followed by a comma, a bracket or the
end of the text, none of which a numeral could go on with.  So the parts of an array or object are
read one by one (`ReadsBack`).  Every level and every item has a character of its own in the text,
so the bound of the reader, which comes from the length of the text, does not run out.
-/

namespace WaveFinder.Json

open Text

/-- A value of text and whole numbers. -/
inductive IsPlain : Json → Prop
  | null : IsPlain null
  | bool (b : Bool) : IsPlain (bool b)
  | int (n : Int) : IsPlain (int n)
  | text (s : String) : IsPlain (text (some s))
  | list {js : List Json} (items : ∀ j ∈ js, IsPlain j) : IsPlain (list js)
  | record {fs : List (Option String × Json)} (keys : ∀ f ∈ fs, f.1.isSome = true)
      (values : ∀ f ∈ fs, IsPlain f.2) : IsPlain (record fs)

variable {j : Json} {js : List Json} {f : Option String × Json}
  {fs : List (Option String × Json)} {c : Char} {cs rest : List Char} {depth n : Nat}

/-! ## The text on one line -/

@[simp] theorem Layout.line_oneLine (depth : Nat) : oneLine.line depth = [] := by
  simp [line, oneLine]

@[simp] theorem Layout.colon_oneLine : oneLine.colon = [':'] := rfl

theorem write_list_append :
    write .oneLine depth (list (j :: js)) ++ rest
      = '[' :: (write .oneLine (depth + 1) j ++ (writeItems .oneLine (depth + 1) js
          ++ ']' :: rest)) := by
  simp [write]

theorem writeItems_cons_append :
    writeItems .oneLine depth (j :: js) ++ rest
      = ',' :: (write .oneLine depth j ++ (writeItems .oneLine depth js ++ rest)) := by
  simp [writeItems]

theorem write_record_append :
    write .oneLine depth (record (f :: fs)) ++ rest
      = '\x7b' :: (quoted f.1 ++ ':' :: (write .oneLine (depth + 1) f.2
          ++ (writeFields .oneLine (depth + 1) fs ++ '\x7d' :: rest))) := by
  simp [write]

theorem writeFields_cons_append :
    writeFields .oneLine depth (f :: fs) ++ rest
      = ',' :: (quoted f.1 ++ ':' :: (write .oneLine depth f.2
          ++ (writeFields .oneLine depth fs ++ rest))) := by
  simp [writeFields]

theorem length_write_list :
    (write .oneLine depth (list (j :: js))).length
      = (write .oneLine (depth + 1) j).length
        + (writeItems .oneLine (depth + 1) js).length + 2 := by
  rw [← List.append_nil (write ..), write_list_append]
  simp
  omega

theorem length_writeItems_cons :
    (writeItems .oneLine depth (j :: js)).length
      = (write .oneLine depth j).length + (writeItems .oneLine depth js).length + 1 := by
  rw [← List.append_nil (writeItems ..), writeItems_cons_append]
  simp

theorem length_write_record :
    (write .oneLine depth (record (f :: fs))).length
      = (quoted f.1).length + (write .oneLine (depth + 1) f.2).length
        + (writeFields .oneLine (depth + 1) fs).length + 3 := by
  rw [← List.append_nil (write ..), write_record_append]
  simp
  omega

theorem length_writeFields_cons :
    (writeFields .oneLine depth (f :: fs)).length
      = (quoted f.1).length + (write .oneLine depth f.2).length
        + (writeFields .oneLine depth fs).length + 2 := by
  rw [← List.append_nil (writeFields ..), writeFields_cons_append]
  simp
  omega

theorem quoted_some (s : String) : quoted (some s) = '"' :: s.toList.flatMap escape ++ ['"'] := rfl

theorem quoted_append (s : String) :
    quoted (some s) ++ rest = '"' :: (s.toList.flatMap escape ++ '"' :: rest) := by
  rw [quoted_some, List.append_assoc]
  rfl

theorem isSpace_of_isDigit (h : c.isDigit = true) : isSpace c = false := by
  rw [← Bool.not_eq_true, isSpace]
  simp only [Bool.or_eq_true, beq_iff_eq]
  rintro (((rfl | rfl) | rfl) | rfl) <;> exact absurd h (by decide)

/-- A value starts with a character that is neither a blank nor a closing bracket. -/
theorem IsPlain.exists_write_eq_cons (h : IsPlain j) (depth : Nat) :
    ∃ c cs, write .oneLine depth j = c :: cs ∧ isSpace c = false ∧ c ≠ ']' := by
  cases h with
  | null => exact ⟨'n', _, rfl, rfl, by decide⟩
  | bool b =>
    rcases b with _ | _
    · exact ⟨'f', _, rfl, rfl, by decide⟩
    · exact ⟨'t', _, rfl, rfl, by decide⟩
  | int n =>
    obtain ⟨c, cs, hcs⟩ := List.exists_cons_of_ne_nil (Numeral.ofInt_ne_nil n)
    refine ⟨c, cs, by rw [write, hcs], ?_⟩
    obtain hc | rfl := Numeral.of_mem_ofInt (n := n) (hcs ▸ List.mem_cons_self ..)
    · exact ⟨isSpace_of_isDigit hc, fun h => absurd (h ▸ hc) (by decide)⟩
    · exact ⟨rfl, by decide⟩
  | text s => exact ⟨'"', _, by rw [write, quoted_some, List.cons_append], rfl, by decide⟩
  | @list js _ =>
    rcases js with _ | ⟨j, js⟩
    · exact ⟨'[', _, by rw [write], rfl, by decide⟩
    · exact ⟨'[', _, by rw [← List.append_nil (write ..), write_list_append], rfl, by decide⟩
  | @record fs _ _ =>
    rcases fs with _ | ⟨f, fs⟩
    · exact ⟨'\x7b', _, by rw [write], rfl, by decide⟩
    · exact ⟨'\x7b', _, by rw [← List.append_nil (write ..), write_record_append], rfl, by decide⟩

/-! ## Reading back -/

/-- A value is read as it is written, at any depth, if no numeral could go on after it and the bound
of the reader covers its text. -/
def ReadsBack (j : Json) : Prop :=
  ∀ ⦃depth n rest⦄, EndsNumber rest → (write .oneLine depth j).length ≤ n →
    readValue? n (write .oneLine depth j ++ rest) = some (j, rest)

theorem endsNumber_cons (h : c = ',' ∨ c = ']' ∨ c = '\x7d') : EndsNumber (c :: rest) := by
  intro d hd
  obtain rfl := Option.some.inj hd
  rcases h with rfl | rfl | rfl <;> decide

theorem skip_cons (h : isSpace c = false) (cs : List Char) : skip (c :: cs) = c :: cs :=
  List.dropWhile_cons_of_neg (by rw [h]; exact Bool.false_ne_true)

theorem isSpace_quote : isSpace '"' = false := rfl
theorem isSpace_colon : isSpace ':' = false := rfl

theorem readItems?_write (hitems : ∀ i ∈ j :: js, ReadsBack i)
    (hn : (write .oneLine depth j).length + (writeItems .oneLine depth js).length ≤ n) :
    readItems? (n + 1) (write .oneLine depth j ++ (writeItems .oneLine depth js ++ ']' :: rest))
      = some (j :: js, rest) := by
  induction js generalizing j n with
  | nil =>
    rw [readItems?, writeItems, List.nil_append,
      hitems j (List.mem_cons_self ..) (endsNumber_cons (.inr (.inl rfl))) (by omega)]
    rfl
  | cons k ks ih =>
    obtain ⟨hj, hks⟩ := List.forall_mem_cons.1 hitems
    rw [length_writeItems_cons] at hn
    obtain ⟨m, rfl⟩ := Nat.exists_eq_succ_of_ne_zero (n := n) (by omega)
    rw [readItems?, writeItems_cons_append, hj (endsNumber_cons (.inl rfl)) (by omega)]
    change (readItems? (m + 1) _).map _ = _
    rw [ih hks (by omega)]
    rfl

theorem readFields?_next {s : String} {more : List Char}
    (h : readValue? n cs = some (j, ',' :: more)) :
    readFields? (n + 1) (quoted (some s) ++ ':' :: cs)
      = (readFields? n more).map fun r => ((some s, j) :: r.1, r.2) := by
  simp only [readFields?, quoted_append, skip_cons isSpace_quote, readString?_quoted,
    skip_cons isSpace_colon, h]
  rfl

theorem readFields?_last {s : String} (h : readValue? n cs = some (j, '\x7d' :: rest)) :
    readFields? (n + 1) (quoted (some s) ++ ':' :: cs) = some ([(some s, j)], rest) := by
  simp only [readFields?, quoted_append, skip_cons isSpace_quote, readString?_quoted,
    skip_cons isSpace_colon, h]
  rfl

theorem readFields?_write (hkeys : ∀ g ∈ f :: fs, g.1.isSome = true)
    (hvalues : ∀ g ∈ f :: fs, ReadsBack g.2)
    (hn : (quoted f.1).length + (write .oneLine depth f.2).length
      + (writeFields .oneLine depth fs).length ≤ n) :
    readFields? (n + 1) (quoted f.1 ++ ':' :: (write .oneLine depth f.2
        ++ (writeFields .oneLine depth fs ++ '\x7d' :: rest)))
      = some (f :: fs, rest) := by
  induction fs generalizing f n with
  | nil =>
    obtain ⟨key, value⟩ := f
    obtain ⟨s, rfl⟩ := Option.isSome_iff_exists.1 (hkeys _ (List.mem_cons_self ..))
    exact readFields?_last
      (hvalues _ (List.mem_cons_self ..) (endsNumber_cons (.inr (.inr rfl))) (by omega))
  | cons g gs ih =>
    obtain ⟨key, value⟩ := f
    obtain ⟨hkey, hgs⟩ := List.forall_mem_cons.1 hkeys
    obtain ⟨hvalue, hgs'⟩ := List.forall_mem_cons.1 hvalues
    obtain ⟨s, rfl⟩ := Option.isSome_iff_exists.1 hkey
    rw [length_writeFields_cons] at hn
    obtain ⟨m, rfl⟩ := Nat.exists_eq_succ_of_ne_zero (n := n) (by omega)
    rw [writeFields_cons_append,
      readFields?_next (hvalue (endsNumber_cons (.inl rfl)) (by omega)),
      ih hgs hgs' (by omega)]
    rfl

/-! ### Values -/

/-- An array that goes on with anything but a closing bracket has items. -/
theorem readValue?_items (hspace : isSpace c = false) (hc : c ≠ ']') (cs : List Char) (n : Nat) :
    readValue? (n + 1) ('[' :: c :: cs)
      = (readItems? n (c :: cs)).map fun r => (Json.list r.1, r.2) := by
  simp only [readValue?, skip_cons (show isSpace '[' = false from rfl), skip_cons hspace]
  split
  · next heq => exact absurd (List.cons.inj heq).1 hc
  · rfl

/-- A value that starts with a digit or a minus sign is a number. -/
theorem readValue?_number (h : c.isDigit = true ∨ c = '-') (cs : List Char) (n : Nat) :
    readValue? (n + 1) (c :: cs) = readNumber? (c :: cs) := by
  have hne : ∀ d ∈ ['n', 't', 'f', '"', '[', '\x7b'], c ≠ d := by
    rintro d hd rfl
    simp only [List.mem_cons, List.not_mem_nil, or_false] at hd
    obtain rfl | rfl | rfl | rfl | rfl | rfl := hd <;> exact absurd h (by decide)
  have hspace : isSpace c = false := by
    obtain hdigit | rfl := h
    · exact isSpace_of_isDigit hdigit
    · rfl
  rw [readValue?, skip_cons hspace]
  split
  iterate 6
    · next heq => exact absurd (List.cons.inj heq).1 (hne _ (by decide))
  · rfl

/-- The bound of a reader that covers a text is no zero. -/
theorem readsBack_of_succ (h : IsPlain j) (hread : ∀ {depth n rest}, EndsNumber rest →
    (write .oneLine depth j).length ≤ n + 1 →
      readValue? (n + 1) (write .oneLine depth j ++ rest) = some (j, rest)) : ReadsBack j := by
  intro depth n rest hrest hn
  obtain ⟨c, cs, hcons, -⟩ := h.exists_write_eq_cons depth
  obtain ⟨m, rfl⟩ : ∃ m, n = m + 1 := by
    rw [hcons, List.length_cons] at hn
    exact ⟨n - 1, by omega⟩
  exact hread hrest hn

/-- **What is made of text and whole numbers is read as it is written.** -/
theorem IsPlain.readsBack (h : IsPlain j) : ReadsBack j := by
  induction h with
  | null => exact readsBack_of_succ .null fun _ _ => rfl
  | bool b =>
    refine readsBack_of_succ (.bool b) fun _ _ => ?_
    cases b <;> rfl
  | int i =>
    refine readsBack_of_succ (.int i) fun {depth n rest} hrest _ => ?_
    obtain ⟨c, cs, hcs⟩ := List.exists_cons_of_ne_nil (Numeral.ofInt_ne_nil i)
    have hc := Numeral.of_mem_ofInt (n := i) (hcs ▸ List.mem_cons_self ..)
    rw [write, hcs, List.cons_append, readValue?_number hc, ← List.cons_append, ← hcs,
      readNumber?_ofInt i hrest]
  | text s =>
    refine readsBack_of_succ (.text s) fun {depth n rest} _ _ => ?_
    rw [write, quoted_append]
    change (readString? _).map _ = _
    rw [readString?_quoted]
    rfl
  | @list js hplain ih =>
    refine readsBack_of_succ (.list hplain) fun {depth n rest} hrest hn => ?_
    rcases js with _ | ⟨j, js⟩
    · rfl
    · rw [length_write_list] at hn
      obtain ⟨c, cs, hcons, hspace, hc⟩ :=
        (hplain j (List.mem_cons_self ..)).exists_write_eq_cons (depth + 1)
      obtain ⟨m, rfl⟩ := Nat.exists_eq_succ_of_ne_zero (n := n) (by omega)
      rw [write_list_append, hcons, List.cons_append, readValue?_items hspace hc,
        ← List.cons_append, ← hcons, readItems?_write ih (by omega)]
      rfl
  | @record fs hkeys hplain ih =>
    refine readsBack_of_succ (.record hkeys hplain) fun {depth n rest} hrest hn => ?_
    rcases fs with _ | ⟨f, fs⟩
    · rfl
    · rw [length_write_record] at hn
      obtain ⟨m, rfl⟩ := Nat.exists_eq_succ_of_ne_zero (n := n) (by omega)
      have hbound : (quoted f.1).length + (write .oneLine (depth + 1) f.2).length
          + (writeFields .oneLine (depth + 1) fs).length ≤ m := by omega
      have hfields : readFields? (m + 1) _ = some (f :: fs, rest) :=
        readFields?_write hkeys ih hbound
      obtain ⟨s, hs⟩ := Option.isSome_iff_exists.1 (hkeys f (List.mem_cons_self ..))
      rw [write_record_append]
      rw [hs, quoted_append] at hfields ⊢
      change (readFields? (m + 1) _).map _ = _
      rw [hfields]
      rfl

/-- **The text of a value is read as the value.** -/
theorem read?_compact (h : IsPlain j) : read? j.compact = some j := by
  have hend : EndsNumber [] := by simp [EndsNumber]
  have hbound : (j.write .oneLine 0).length ≤ 2 * (j.write .oneLine 0).length + 1 := by omega
  have hread := h.readsBack hend hbound
  rw [List.append_nil] at hread
  rw [read?, compact, String.toList_ofList, readChars?, hread]
  rfl

end WaveFinder.Json
