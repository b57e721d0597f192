import WaveFinder.Address
import WaveFinder.Proofs.Text.Lowercase
import WaveFinder.Proofs.Text.Words

/-!
# Proofs/Address/Grammar — what an address is, and what is wrong with a text that is none

    text ──lower──▸ lower case ──fault?──▸ the first fault, or none

An address is a text without blanks and controls, with one `@` in it and a domain after that
(`IsAddress`); a domain is labels with single full stops between them (`Domain.IsDomain`).  What can
be wrong with a text is said fault by fault, each without regard to the others
(`AddressFault.Holds`), so that several may be found in one text.  The one that is reported comes
before all others in the order in which they are looked for, and there is only one such
(`AddressFault.IsFirst.unique`).

A text is read by its lower case, which is lower case already: so what has been read is read again
as the same address (`Address.read_iff_isAddress`).
-/

namespace WaveFinder

open Text

variable {cs l name domain : List Char} {c : Char}

/-! ## Domains -/

namespace Domain

/-- A label is not empty, consists of ASCII letters, digits and hyphens, and neither starts nor ends
with a hyphen. -/
structure IsLabel (cs : List Char) : Prop where
  ne_nil : cs ≠ []
  chars : ∀ c ∈ cs, c.isAlphanum = true ∨ c = '-'
  head : cs.head? ≠ some '-'
  last : cs.getLast? ≠ some '-'

/-- A domain is a label, or a label and a domain with a full stop between them. -/
inductive IsDomain : List Char → Prop
  | label {l : List Char} : IsLabel l → IsDomain l
  | dot {l cs : List Char} : IsLabel l → IsDomain cs → IsDomain (l ++ '.' :: cs)

theorem isLabel_iff : isLabel cs = true ↔ IsLabel cs := by
  simp only [isLabel, Bool.and_eq_true, Bool.not_eq_true', List.isEmpty_eq_false_iff, bne_iff_ne,
    List.all_eq_true, Bool.or_eq_true, beq_iff_eq, isAsciiAlphanum]
  constructor
  · rintro ⟨⟨⟨hne, hhead⟩, hlast⟩, hchars⟩
    exact ⟨hne, hchars, hhead, hlast⟩
  · rintro ⟨hne, hchars, hhead, hlast⟩
    exact ⟨⟨⟨hne, hhead⟩, hlast⟩, hchars⟩

theorem IsLabel.dot_notMem (h : IsLabel l) : '.' ∉ l := by
  intro hdot
  obtain hdot | hdot := h.chars _ hdot
  · exact absurd hdot (by decide)
  · exact absurd hdot (by decide)

/-- A label is the only piece of itself. -/
theorem IsLabel.pieces_eq (h : IsLabel l) : pieces (· == '.') l = [l] :=
  pieces_of_forall fun _ hc => beq_eq_false_iff_ne.2 fun e => h.dot_notMem (e ▸ hc)

theorem isDomain_joinWith {ls : List (List Char)} (hne : ls ≠ []) (h : ∀ l ∈ ls, IsLabel l) :
    IsDomain (joinWith ['.'] ls) := by
  induction ls with
  | nil => exact absurd rfl hne
  | cons l ls ih =>
    obtain ⟨hl, hls⟩ := List.forall_mem_cons.1 h
    rcases ls with _ | ⟨m, ls⟩
    · exact .label hl
    · rw [joinWith, List.append_assoc]
      exact .dot hl (ih (List.cons_ne_nil m ls) hls)

/-- **The labels of a domain are the pieces between its full stops.** -/
theorem isValid_iff : isValid cs = true ↔ IsDomain cs := by
  rw [isValid, List.all_eq_true]
  constructor
  · intro h
    rw [← joinWith_pieces '.' cs]
    exact isDomain_joinWith (pieces_ne_nil _ _) fun l hl => isLabel_iff.1 (h l hl)
  · intro h
    induction h with
    | label hl =>
      rw [hl.pieces_eq]
      exact List.forall_mem_singleton.2 (isLabel_iff.2 hl)
    | dot hl _ ih =>
      rw [pieces_append_cons (by decide), hl.pieces_eq]
      exact List.forall_mem_cons.2 ⟨isLabel_iff.2 hl, ih⟩

theorem IsDomain.of_mem (h : IsDomain cs) (hc : c ∈ cs) :
    c.isAlphanum = true ∨ c = '-' ∨ c = '.' := by
  induction h with
  | label hl => exact (hl.chars c hc).imp_right .inl
  | dot hl _ ih =>
    obtain hc | hc := List.mem_append.1 hc
    · exact (hl.chars c hc).imp_right .inl
    · obtain rfl | hc := List.mem_cons.1 hc
      · exact .inr (.inr rfl)
      · exact ih hc

theorem IsDomain.at_notMem (h : IsDomain cs) : '@' ∉ cs := by
  intro hat
  obtain hat | hat | hat := h.of_mem hat <;> exact absurd hat (by decide)

theorem not_isDomain_nil : ¬ IsDomain [] := by
  rw [← isValid_iff]
  decide

end Domain

/-! ## Addresses -/

namespace Address

/-- A text is an address: there is neither a blank nor a control in it, it has exactly one `@`, and
a domain comes after that. -/
structure IsAddress (cs : List Char) : Prop where
  chars : ∀ c ∈ cs, isForbidden c = false
  count : cs.count '@' = 1
  domain : ∃ name domain, cs = name ++ '@' :: domain ∧ Domain.IsDomain domain

end Address

namespace AddressFault

open Address

/-- What a fault says of a text, whatever else is wrong with it. -/
def Holds (cs : List Char) : AddressFault → Prop
  | invalidCharacter c => ∃ before after, cs = before ++ c :: after ∧ isForbidden c = true
      ∧ ∀ d ∈ before, isForbidden d = false
  | missingAt => '@' ∉ cs
  | repeatedAt => 1 < cs.count '@'
  | emptyDomain => ∃ name, cs = name ++ ['@']
  | invalidDomain domain => ∃ name, cs = name ++ '@' :: domain.toList
      ∧ ¬ Domain.IsDomain domain.toList

/-- The place of a fault in the order in which faults are looked for. -/
def rank : AddressFault → Nat
  | invalidCharacter _ => 0
  | missingAt => 1
  | repeatedAt => 2
  | emptyDomain => 3
  | invalidDomain _ => 4

/-- A fault is the first of those of a text. -/
structure IsFirst (cs : List Char) (f : AddressFault) : Prop where
  holds : f.Holds cs
  le : ∀ g : AddressFault, g.Holds cs → f.rank ≤ g.rank

end AddressFault

namespace Address

open AddressFault

variable {f g : AddressFault}

theorem holds_invalidCharacter_iff :
    (invalidCharacter c).Holds cs ↔ cs.find? isForbidden = some c := by
  rw [List.find?_eq_some_iff_append, Holds]
  simp only [Bool.not_eq_true', ← exists_and_left]
  grind

/-! ## The parts on either side of the `@` -/

/-- There is one piece more than there are separators. -/
theorem length_pieces (c : Char) (cs : List Char) :
    (pieces (· == c) cs).length = cs.count c + 1 := by
  induction cs with
  | nil => rfl
  | cons d cs ih =>
    obtain ⟨w, ws, hw⟩ := List.exists_cons_of_ne_nil (pieces_ne_nil (· == c) cs)
    rw [pieces, List.count_cons, hw]
    rw [hw] at ih
    by_cases hd : (d == c) = true
    · rw [if_pos hd, if_pos hd, List.length_cons, ih]
    · rw [if_neg hd, if_neg hd, List.length_cons]
      exact ih

section Split

variable {name' domain' : List Char} (hcount : cs.count '@' ≤ 1) (h : cs = name ++ '@' :: domain)
include hcount h

theorem at_notMem_of_split : '@' ∉ name ∧ '@' ∉ domain := by
  rw [h, List.count_append, List.count_cons_self] at hcount
  exact ⟨List.count_eq_zero.1 (by omega), List.count_eq_zero.1 (by omega)⟩

/-- The parts on either side of the only `@` of a text. -/
theorem pieces_eq_of_split : pieces (· == '@') cs = [name, domain] :=
  pieces_eq_pair_iff.2 ⟨h, at_notMem_of_split hcount h⟩

theorem split_unique (h' : cs = name' ++ '@' :: domain') : domain = domain' := by
  have hsame := pieces_eq_of_split hcount h
  rw [pieces_eq_of_split hcount h'] at hsame
  exact (List.cons.inj (List.cons.inj hsame).2).1.symm

end Split

/-! ## Looking for faults -/

theorem fault?_of_find? (h : cs.find? isForbidden = some c) :
    fault? cs = some (.invalidCharacter c) := by
  rw [fault?, h]

section Clean

variable (hclean : ∀ c ∈ cs, isForbidden c = false)
include hclean

theorem find?_isForbidden_eq_none : cs.find? isForbidden = none :=
  List.find?_eq_none.2 fun c hc => by rw [hclean c hc]; decide

theorem fault?_of_at_notMem (hat : '@' ∉ cs) : fault? cs = some .missingAt := by
  have hpieces : pieces (· == '@') cs = [cs] :=
    pieces_of_forall fun c hc => beq_eq_false_iff_ne.2 fun e => hat (e ▸ hc)
  rw [fault?, find?_isForbidden_eq_none hclean, hpieces]

theorem fault?_of_one_lt_count (hat : 1 < cs.count '@') : fault? cs = some .repeatedAt := by
  have hlength := length_pieces '@' cs
  rw [fault?, find?_isForbidden_eq_none hclean]
  generalize pieces (· == '@') cs = ws at hlength
  rcases ws with _ | ⟨u, _ | ⟨v, _ | ⟨w, ws⟩⟩⟩
  · rw [List.length_nil] at hlength
    omega
  · rw [List.length_singleton] at hlength
    omega
  · rw [List.length_cons, List.length_singleton] at hlength
    omega
  · cases v <;> rfl

theorem fault?_of_split (hcount : cs.count '@' ≤ 1) (h : cs = name ++ '@' :: domain) :
    fault? cs = if domain = [] then some .emptyDomain
      else if Domain.isValid domain then none
        else some (.invalidDomain (String.ofList domain)) := by
  rw [fault?, find?_isForbidden_eq_none hclean, pieces_eq_of_split hcount h]
  cases domain <;> rfl

end Clean

/-! ## The first fault -/

section Rank

variable (hf : f.Holds cs)
include hf

theorem rank_ne_zero (hclean : ∀ c ∈ cs, isForbidden c = false) : f.rank ≠ 0 := by
  cases f with
  | invalidCharacter c =>
    obtain ⟨before, after, rfl, hc, -⟩ := hf
    rw [hclean c (List.mem_append_right _ (List.mem_cons_self ..))] at hc
    cases hc
  | missingAt | repeatedAt | emptyDomain | invalidDomain => simp [rank]

theorem rank_ne_one (hat : '@' ∈ cs) : f.rank ≠ 1 := by
  cases f with
  | missingAt => exact absurd hat hf
  | invalidCharacter | repeatedAt | emptyDomain | invalidDomain => simp [rank]

theorem rank_ne_two (hcount : cs.count '@' ≤ 1) : f.rank ≠ 2 := by
  cases f with
  | repeatedAt => exact absurd hf (Nat.not_lt.2 hcount)
  | invalidCharacter | missingAt | emptyDomain | invalidDomain => simp [rank]

variable (hcount : cs.count '@' ≤ 1) (h : cs = name ++ '@' :: domain)
include hcount h

theorem rank_ne_three (hne : domain ≠ []) : f.rank ≠ 3 := by
  cases f with
  | emptyDomain =>
    obtain ⟨name', h'⟩ := hf
    exact absurd (split_unique hcount h h') hne
  | invalidCharacter | missingAt | repeatedAt | invalidDomain => simp [rank]

theorem rank_ne_four (hdomain : Domain.IsDomain domain) : f.rank ≠ 4 := by
  cases f with
  | invalidDomain domain' =>
    obtain ⟨name', h', hno⟩ := hf
    rw [split_unique hcount h h'] at hdomain
    exact absurd hdomain hno
  | invalidCharacter | missingAt | repeatedAt | emptyDomain => simp [rank]

end Rank

theorem rank_lt_five (f : AddressFault) : f.rank < 5 := by
  cases f <;> simp [rank]

/-- **Nothing is wrong with an address.** -/
theorem IsAddress.not_holds (h : IsAddress cs) : ¬ f.Holds cs := by
  intro hf
  obtain ⟨name, domain, hsplit, hdomain⟩ := h.domain
  have hcount := Nat.le_of_eq h.count
  have hat : '@' ∈ cs := List.count_pos_iff.1 (h.count ▸ Nat.one_pos)
  have hne : domain ≠ [] := by
    rintro rfl
    exact Domain.not_isDomain_nil hdomain
  have h0 := rank_ne_zero hf h.chars
  have h1 := rank_ne_one hf hat
  have h2 := rank_ne_two hf hcount
  have h3 := rank_ne_three hf hcount hsplit hne
  have h4 := rank_ne_four hf hcount hsplit hdomain
  have h5 := rank_lt_five f
  omega

/-- What comes of a text with one `@` depends on what stands after it. -/
theorem fault?_cases_of_split (hclean : ∀ c ∈ cs, isForbidden c = false)
    (hcount : cs.count '@' = 1) (h : cs = name ++ '@' :: domain) :
    fault? cs = none ∧ IsAddress cs ∨ ∃ f, fault? cs = some f ∧ f.IsFirst cs := by
  have hat : '@' ∈ cs := List.count_pos_iff.1 (hcount ▸ Nat.one_pos)
  have hfault := fault?_of_split hclean (Nat.le_of_eq hcount) h
  by_cases hne : domain = []
  · rw [if_pos hne] at hfault
    subst hne
    refine .inr ⟨_, hfault, ⟨name, h⟩, fun g hg => ?_⟩
    have h0 := rank_ne_zero hg hclean
    have h1 := rank_ne_one hg hat
    have h2 := rank_ne_two hg (Nat.le_of_eq hcount)
    change 3 ≤ g.rank
    omega
  · rw [if_neg hne] at hfault
    by_cases hvalid : Domain.isValid domain = true
    · rw [if_pos hvalid] at hfault
      exact .inl ⟨hfault, hclean, hcount, name, domain, h, Domain.isValid_iff.1 hvalid⟩
    · rw [if_neg hvalid] at hfault
      refine .inr ⟨_, hfault, ⟨name, ?_, ?_⟩, fun g hg => ?_⟩
      · rw [String.toList_ofList, ← h]
      · rwa [String.toList_ofList, ← Domain.isValid_iff]
      · have h0 := rank_ne_zero hg hclean
        have h1 := rank_ne_one hg hat
        have h2 := rank_ne_two hg (Nat.le_of_eq hcount)
        have h3 := rank_ne_three hg (Nat.le_of_eq hcount) h hne
        change 4 ≤ g.rank
        omega

/-- **A text without a fault is an address, and of the others the first fault is reported.** -/
theorem fault?_cases (cs : List Char) :
    fault? cs = none ∧ IsAddress cs ∨ ∃ f, fault? cs = some f ∧ f.IsFirst cs := by
  rcases hfind : cs.find? isForbidden with _ | c
  · have hclean : ∀ c ∈ cs, isForbidden c = false := fun c hc =>
      Bool.eq_false_iff.2 (List.find?_eq_none.1 hfind c hc)
    obtain hnone | hone | hmany : cs.count '@' = 0 ∨ cs.count '@' = 1 ∨ 1 < cs.count '@' := by
      omega
    · have hat := List.count_eq_zero.1 hnone
      refine .inr ⟨_, fault?_of_at_notMem hclean hat, hat, fun g hg => ?_⟩
      exact Nat.one_le_iff_ne_zero.2 (rank_ne_zero hg hclean)
    · obtain ⟨name, domain, h⟩ := List.append_of_mem (List.count_pos_iff.1 (hone ▸ Nat.one_pos))
      exact fault?_cases_of_split hclean hone h
    · refine .inr ⟨_, fault?_of_one_lt_count hclean hmany, hmany, fun g hg => ?_⟩
      have h0 := rank_ne_zero hg hclean
      have h1 := rank_ne_one hg (List.count_pos_iff.1 (Nat.lt_trans Nat.one_pos hmany))
      change 2 ≤ g.rank
      omega
  · exact .inr ⟨_, fault?_of_find? hfind, holds_invalidCharacter_iff.2 hfind,
      fun g _ => Nat.zero_le _⟩

theorem fault?_eq_none_iff : fault? cs = none ↔ IsAddress cs := by
  obtain ⟨hnone, haddress⟩ | ⟨f, hsome, hfirst⟩ := fault?_cases cs
  · exact iff_of_true hnone haddress
  · refine iff_of_false (by rw [hsome]; exact Option.some_ne_none f) fun haddress => ?_
    exact haddress.not_holds hfirst.holds

end Address

namespace AddressFault

open Address

variable {f g : AddressFault}

/-- Two faults at one place of the order are one: a text has one first forbidden character, and one
domain unless it has several `@`. -/
theorem Holds.eq_of_rank_eq (hf : f.Holds cs) (hg : g.Holds cs) (h : f.rank = g.rank)
    (hcount : f.rank = 4 → cs.count '@' ≤ 1) : f = g := by
  cases f with
  | invalidCharacter c =>
    cases g with
    | invalidCharacter d =>
      have hfind := holds_invalidCharacter_iff.1 hf
      rw [holds_invalidCharacter_iff.1 hg] at hfind
      rw [Option.some.inj hfind]
    | missingAt | repeatedAt | emptyDomain | invalidDomain => simp [rank] at h
  | invalidDomain domain =>
    cases g with
    | invalidDomain domain' =>
      obtain ⟨name, hsplit, -⟩ := hf
      obtain ⟨name', hsplit', -⟩ := hg
      rw [String.toList_injective (split_unique (hcount rfl) hsplit hsplit')]
    | invalidCharacter | missingAt | repeatedAt | emptyDomain => simp [rank] at h
  | missingAt | repeatedAt | emptyDomain => cases g <;> simp_all [rank]

/-- **A text has one first fault.** -/
theorem IsFirst.unique (hf : f.IsFirst cs) (hg : g.IsFirst cs) : f = g := by
  refine hf.holds.eq_of_rank_eq hg.holds (Nat.le_antisymm (hf.le g hg.holds) (hg.le f hf.holds))
    fun hfour => Nat.not_lt.1 fun hcount => ?_
  have hle : f.rank ≤ 2 := hf.le .repeatedAt hcount
  omega

end AddressFault

namespace Address

variable {f : AddressFault}

theorem fault?_eq_some_iff : fault? cs = some f ↔ f.IsFirst cs := by
  obtain ⟨hnone, haddress⟩ | ⟨g, hsome, hfirst⟩ := fault?_cases cs
  · refine iff_of_false (by rw [hnone]; exact (Option.some_ne_none f).symm) fun hf => ?_
    exact haddress.not_holds hf.holds
  · rw [hsome, Option.some.injEq]
    constructor
    · rintro rfl
      exact hfirst
    · exact hfirst.unique

theorem exists_read_iff {s : String} : (∃ a, read s = .ok a) ↔ IsAddress (lower s.toList) := by
  rw [← fault?_eq_none_iff]
  constructor
  · rintro ⟨a, h⟩
    exact (read_eq_ok_iff.1 h).1
  · intro h
    exact ⟨⟨String.ofList (lower s.toList)⟩, read_eq_ok_iff.2 ⟨h, rfl⟩⟩

/-- **What has been read is read again as it is.** -/
theorem read_text {s : String} {a : Address} (h : read s = .ok a) : read a.text = .ok a := by
  obtain ⟨hnone, htext⟩ := read_eq_ok_iff.1 h
  rw [read_eq_ok_iff, htext, String.toList_ofList, lower_lower]
  exact ⟨hnone, rfl⟩

/-- **What is read as an address**: a text is, exactly when its lower case is an address, and is
read as that; and as that it is read again.  Of any other text the first fault is reported. -/
theorem read_iff_isAddress (s : String) :
    ((∃ a, read s = .ok a) ↔ IsAddress (lower s.toList))
      ∧ (∀ a, read s = .ok a → a.text = String.ofList (lower s.toList) ∧ read a.text = .ok a)
      ∧ ∀ f, read s = .error f ↔ f.IsFirst (lower s.toList) :=
  ⟨exists_read_iff, fun _ h => ⟨(read_eq_ok_iff.1 h).2, read_text h⟩,
    fun _ => read_eq_error_iff.trans fault?_eq_some_iff⟩

/-- A Kelvin sign is read as the letter k and a capital sigma before the `@` as the final one; of
three faults in a text the blank comes first. -/
theorem read_iff_isAddress_kelvin :
    (∃ a, read "\u212Aim\u03A3@Example.COM" = .ok a ∧ a.text = "kim\u03C2@example.com"
        ∧ read "kim\u03C2@example.com" = .ok a)
      ∧ IsAddress "kim\u03C2@example.com".toList
      ∧ (AddressFault.invalidCharacter ' ').IsFirst (lower "A b@@".toList) := by
  obtain ⟨a, ha⟩ : ∃ a, read "\u212Aim\u03A3@Example.COM" = .ok a :=
    ⟨⟨"kim\u03C2@example.com"⟩, by decide +kernel⟩
  obtain ⟨hvalid, hnormal, -⟩ := read_iff_isAddress "\u212Aim\u03A3@Example.COM"
  obtain ⟨htext, hagain⟩ := hnormal a ha
  have hlower : lower "\u212Aim\u03A3@Example.COM".toList = "kim\u03C2@example.com".toList := by
    decide +kernel
  rw [hlower] at hvalid htext
  rw [htext] at hagain
  refine ⟨⟨a, ha, htext, hagain⟩, hvalid.1 ⟨a, ha⟩, ?_⟩
  exact ((read_iff_isAddress "A b@@").2.2 (.invalidCharacter ' ')).1 (by decide +kernel)

end Address

end WaveFinder
