import WaveFinder.Proofs.Address.Grammar
import WaveFinder.Proofs.Text.Blank

/-!
# Proofs/Address/Completion — names to which the local domain is added

    name ──expand──▸ name@domain ──lower──▸ lower case of the name, `@`, lower case of the domain

An `@` parts a text into two that are put into lower case each on its own.  So of a name that is
completed with a domain, both are looked at as if they stood alone: the address is one exactly when
the lower case of the domain is a domain (`IsBareName.ofTyped_eq_ok_iff`).

A name that is not empty has an `@` in it once it is completed, whatever the domain is, and so that
one fault is never found in it (`ofTyped_ne_missingAt`).
-/

namespace WaveFinder

open Text

variable {us ds : List Char} {c : Char} {raw localDomain : String} {a : Address}

/-! ## Characters of a domain -/

theorem Address.isForbidden_of_isAlphanum (h : c.isAlphanum = true) : isForbidden c = false := by
  rw [isForbidden, isBlank_of_isAlphanum h, isControl_of_isAlphanum h, Bool.or_self]

theorem Domain.IsDomain.isForbidden_eq_false (h : IsDomain ds) (hc : c ∈ ds) :
    Address.isForbidden c = false := by
  obtain hc | rfl | rfl := h.of_mem hc
  · exact Address.isForbidden_of_isAlphanum hc
  · rfl
  · rfl

namespace Address

/-- **Of a text with an `@`, the name and the domain are looked at each on its own.** -/
theorem isAddress_append_at_iff :
    IsAddress (us ++ '@' :: ds)
      ↔ (∀ c ∈ us, isForbidden c = false) ∧ '@' ∉ us ∧ Domain.IsDomain ds := by
  constructor
  · intro h
    obtain ⟨name, domain, hsplit, hdomain⟩ := h.domain
    obtain rfl := split_unique (Nat.le_of_eq h.count) rfl hsplit
    exact ⟨fun c hc => h.chars c (List.mem_append_left _ hc),
      (at_notMem_of_split (Nat.le_of_eq h.count) rfl).1, hdomain⟩
  · rintro ⟨hclean, hat, hdomain⟩
    refine ⟨fun c hc => ?_, ?_, us, ds, rfl, hdomain⟩
    · obtain hc | hc := List.mem_append.1 hc
      · exact hclean c hc
      · obtain rfl | hc := List.mem_cons.1 hc
        · rfl
        · exact hdomain.isForbidden_eq_false hc
    · rw [List.count_append, List.count_cons_self, List.count_eq_zero.2 hat,
        List.count_eq_zero.2 hdomain.at_notMem]

/-! ## Completion -/

/-- A name that gets the local domain, and has no character that no address may have. -/
structure IsBareName (r : String) : Prop where
  ne_empty : r ≠ ""
  at_notMem : '@' ∉ r.toList
  chars : ∀ c ∈ lower r.toList, isForbidden c = false

theorem toList_expand_at (localDomain : String) :
    (expand localDomain "@").toList = '@' :: localDomain.toList := by
  rw [expand, if_pos rfl, String.toList_append]
  rfl

theorem toList_expand_of_at_notMem (hne : raw ≠ "") (hat : '@' ∉ raw.toList) :
    (expand localDomain raw).toList = raw.toList ++ '@' :: localDomain.toList := by
  have hraw : raw ≠ "@" := by
    rintro rfl
    exact hat (by decide)
  rw [expand, if_neg hraw, if_pos ⟨hne, hat⟩, String.toList_append, String.toList_append,
    List.append_assoc]
  rfl

/-- Whatever the local domain is, a name that is not empty has an `@` once it is completed. -/
theorem at_mem_expand (hne : raw ≠ "") : '@' ∈ (expand localDomain raw).toList := by
  by_cases hat : '@' ∈ raw.toList
  · by_cases hraw : raw = "@"
    · rw [hraw, toList_expand_at]
      exact List.mem_cons_self ..
    · rwa [expand, if_neg hraw, if_neg fun h => h.2 hat]
  · rw [toList_expand_of_at_notMem hne hat]
    exact List.mem_append_right _ (List.mem_cons_self ..)

/-- **A completed name never lacks its `@`.** -/
theorem ofTyped_ne_missingAt (hne : raw ≠ "") :
    ofTyped localDomain raw ≠ .error .missingAt := by
  intro h
  have hfirst := fault?_eq_some_iff.1 (read_eq_error_iff.1 h)
  exact hfirst.holds (at_mem_lower_iff.2 (at_mem_expand hne))

/-- A name with the local domain after it is read as the lower case of both, if that of the domain
is a domain. -/
theorem ofTyped_eq_ok_iff_of_expand (hat : '@' ∉ us)
    (hclean : ∀ c ∈ lower us, isForbidden c = false)
    (h : (expand localDomain raw).toList = us ++ '@' :: localDomain.toList) :
    ofTyped localDomain raw = .ok a
      ↔ Domain.IsDomain (lower localDomain.toList)
        ∧ a.text = String.ofList (lower us ++ '@' :: lower localDomain.toList) := by
  rw [ofTyped, read_eq_ok_iff, fault?_eq_none_iff, h, lower_append_at, isAddress_append_at_iff,
    at_mem_lower_iff]
  exact and_congr_left fun _ => ⟨fun h => h.2.2, fun h => ⟨hclean, hat, h⟩⟩

/-- **Whether a bare name has an address depends on the local domain alone.** -/
theorem IsBareName.ofTyped_eq_ok_iff (h : IsBareName raw) :
    ofTyped localDomain raw = .ok a
      ↔ Domain.IsDomain (lower localDomain.toList)
        ∧ a.text = String.ofList (lower raw.toList ++ '@' :: lower localDomain.toList) :=
  ofTyped_eq_ok_iff_of_expand h.at_notMem h.chars
    (toList_expand_of_at_notMem h.ne_empty h.at_notMem)

/-- The same holds of the name that everybody of the domain shares. -/
theorem ofTyped_at_eq_ok_iff :
    ofTyped localDomain "@" = .ok a
      ↔ Domain.IsDomain (lower localDomain.toList)
        ∧ a.text = String.ofList ('@' :: lower localDomain.toList) :=
  ofTyped_eq_ok_iff_of_expand List.not_mem_nil (fun _ hc => absurd hc List.not_mem_nil)
    (toList_expand_at localDomain)

end Address

end WaveFinder
