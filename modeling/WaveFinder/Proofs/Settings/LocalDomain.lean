import WaveFinder.Proofs.Address.Completion
import WaveFinder.Proofs.Search.Results
import WaveFinder.Settings.Basic

/-!
# Proofs/Settings/LocalDomain — validation asks of the local domain what names need of it

    settings ──validate──▸ nothing against the local domain
                              ⇕
    name ──expand──▸ name@domain ──read──▸ an address

Validation puts the local domain into lower case and looks at that; a name typed without a domain is
completed first and put into lower case as a whole.  An `@` stands between the two parts there, and
no letter on the one side of it sees the other.  So validation lets the domain pass if one bare name
has an address with it, and then all have (`domainPasses_iff`).
-/

namespace WaveFinder

open Text Address

namespace Settings

variable {s : Settings}

/-! ## What validation says -/

/-- Validation has nothing to say against the local domain, whatever it says against the rest. -/
def DomainPasses (s : Settings) : Prop :=
  s.validate ≠ .error .missingDomain ∧ ∀ domain, s.validate ≠ .error (.invalidDomain domain)

theorem validate_of_eq_empty (h : s.localDomain = "") : s.validate = .error .missingDomain := by
  rw [validate, if_pos (by rw [h]; rfl)]
  rfl

theorem validate_of_isValid_eq_false (hne : s.localDomain ≠ "")
    (h : Domain.isValid (lower s.localDomain.toList) = false) :
    s.validate = .error (.invalidDomain s.localDomain) := by
  rw [validate, if_neg (by rwa [String.isEmpty_iff]), if_pos (by rw [h]; rfl)]
  rfl

/-- Once the domain has passed, the zone is looked at, and then the format of the log. -/
theorem validate_of_isValid (hne : s.localDomain ≠ "")
    (h : Domain.isValid (lower s.localDomain.toList) = true) :
    s.validate = s.zone >>= fun _ =>
      if s.logging.format ≠ "text" ∧ s.logging.format ≠ "json" then
        .error (.invalidFormat s.logging.format)
      else .ok () := by
  rw [validate, if_neg (by rwa [String.isEmpty_iff]), if_neg (by rw [h]; decide)]
  rfl

/-- Nothing that validation says once the domain has passed is about the domain. -/
theorem domainPasses_of_isValid (hne : s.localDomain ≠ "")
    (h : Domain.isValid (lower s.localDomain.toList) = true) : s.DomainPasses := by
  have hlater : ∀ f, s.validate = .error f →
      (∃ e, f = .invalidZone e) ∨ ∃ format, f = .invalidFormat format := by
    intro f hf
    rw [validate_of_isValid hne h, Except.bind_eq_error_iff] at hf
    obtain hzone | ⟨-, -, hformat⟩ := hf
    · obtain ⟨e, -, he⟩ := Except.mapError_eq_error_iff.1 hzone
      exact .inl ⟨e, he.symm⟩
    · split at hformat
      · exact .inr ⟨_, (Except.error.inj hformat).symm⟩
      · cases hformat
  constructor
  · intro hf
    obtain ⟨e, hno⟩ | ⟨format, hno⟩ := hlater _ hf <;> cases hno
  · intro domain hf
    obtain ⟨e, hno⟩ | ⟨format, hno⟩ := hlater _ hf <;> cases hno

theorem isDomain_lower_iff :
    Domain.IsDomain (lower s.localDomain.toList)
      ↔ s.localDomain ≠ "" ∧ Domain.isValid (lower s.localDomain.toList) = true := by
  rw [Domain.isValid_iff]
  refine ⟨fun h => ⟨?_, h⟩, fun h => h.2⟩
  intro hempty
  rw [hempty] at h
  exact Domain.not_isDomain_nil h

theorem domainPasses_iff_isDomain :
    s.DomainPasses ↔ Domain.IsDomain (lower s.localDomain.toList) := by
  rw [isDomain_lower_iff]
  constructor
  · rintro ⟨hmissing, hinvalid⟩
    have hne : s.localDomain ≠ "" := fun h => hmissing (validate_of_eq_empty h)
    refine ⟨hne, ?_⟩
    by_contra h
    exact hinvalid _ (validate_of_isValid_eq_false hne (Bool.eq_false_iff.2 h))
  · rintro ⟨hne, h⟩
    exact domainPasses_of_isValid hne h

/-- Settings without a fault have a domain that passes and a zone. -/
theorem of_validate_eq_ok (h : s.validate = .ok ()) : s.DomainPasses ∧ ∃ z, s.zone = .ok z := by
  have hpasses : s.DomainPasses := by
    rw [DomainPasses, h]
    exact ⟨nofun, nofun⟩
  obtain ⟨hne, hvalid⟩ := isDomain_lower_iff.1 (domainPasses_iff_isDomain.1 hpasses)
  rw [validate_of_isValid hne hvalid, Except.bind_eq_ok_iff] at h
  obtain ⟨z, hz, -⟩ := h
  exact ⟨hpasses, z, hz⟩

/-! ## What names need -/

/-- Where all participants of a query have addresses, it is not refused on account of one. -/
theorem ofQuery_ne_address {localDomain : String} {q : Query}
    (h : ∀ k, k = .creator ∨ k = .person → ∀ v ∈ q.values k, ∃ a, ofTyped localDomain v = .ok a)
    (clock : Clock) (raw : String) (fault : AddressFault) :
    Criteria.ofQuery clock localDomain q ≠ .error (.address raw fault) := by
  obtain ⟨creators, hcreators⟩ := Query.exists_addresses (h .creator (.inl rfl))
  obtain ⟨people, hpeople⟩ := Query.exists_addresses (h .person (.inr rfl))
  intro hno
  rw [Criteria.ofQuery, hcreators, hpeople] at hno
  cases hw : Window.ofQuery clock q with
  | error e =>
    rw [hw] at hno
    cases hno
  | ok w =>
    rw [hw] at hno
    cases hno

/-- **Validation lets the local domain pass exactly if bare names have addresses with it.**  It does
so if the lower case of the domain is a domain; it does so if some bare name has an address, and
also if the shared participant has one, and each of them then has the lower case of both parts for
its address.  With settings that have no fault there is a zone, and no query whose participants are
bare names or `@` is refused on account of one of them, whatever the clock. -/
theorem domainPasses_iff (s : Settings) :
    (s.DomainPasses
        ↔ s.localDomain ≠ "" ∧ Domain.isValid (lower s.localDomain.toList) = true)
      ∧ (∀ r, IsBareName r →
          (s.DomainPasses ↔ ∃ a, ofTyped s.localDomain r = .ok a)
            ∧ ∀ a, ofTyped s.localDomain r = .ok a →
              a.text = String.ofList (lower r.toList ++ '@' :: lower s.localDomain.toList))
      ∧ ((s.DomainPasses ↔ ∃ a, ofTyped s.localDomain "@" = .ok a)
          ∧ ∀ a, ofTyped s.localDomain "@" = .ok a →
            a.text = String.ofList ('@' :: lower s.localDomain.toList))
      ∧ (s.validate = .ok () → (∃ z, s.zone = .ok z)
          ∧ ∀ q : Query,
            (∀ k, k = .creator ∨ k = .person → ∀ v ∈ q.values k, IsBareName v ∨ v = "@") →
            ∀ clock raw fault,
              Criteria.ofQuery clock s.localDomain q ≠ .error (.address raw fault)) := by
  have hbare : ∀ r, IsBareName r → (s.DomainPasses ↔ ∃ a, ofTyped s.localDomain r = .ok a) := by
    intro r hr
    simp only [hr.ofTyped_eq_ok_iff, domainPasses_iff_isDomain]
    exact ⟨fun h => ⟨⟨_⟩, h, rfl⟩, fun ⟨_, h, _⟩ => h⟩
  have hshared : s.DomainPasses ↔ ∃ a, ofTyped s.localDomain "@" = .ok a := by
    simp only [ofTyped_at_eq_ok_iff, domainPasses_iff_isDomain]
    exact ⟨fun h => ⟨⟨_⟩, h, rfl⟩, fun ⟨_, h, _⟩ => h⟩
  refine ⟨domainPasses_iff_isDomain.trans isDomain_lower_iff,
    fun r hr => ⟨hbare r hr, fun a ha => ?_⟩, ⟨hshared, fun a ha => ?_⟩, fun hs => ?_⟩
  · exact (hr.ofTyped_eq_ok_iff.1 ha).2
  · exact (ofTyped_at_eq_ok_iff.1 ha).2
  · obtain ⟨hpasses, hzone⟩ := of_validate_eq_ok hs
    refine ⟨hzone, fun q hq => ofQuery_ne_address fun k hk v hv => ?_⟩
    obtain hv | rfl := hq k hk v hv
    · exact (hbare v hv).1 hpasses
    · exact hshared.1 hpasses

/-- A Kelvin sign is a letter of a domain and a sigma is none; in a name a sigma is final, whatever
letter follows the `@`. -/
theorem domainPasses_iff_kelvin :
    ∃ s s' : Settings, s.localDomain = "\u212Ait.Example" ∧ s'.localDomain = "\u03A3.Example"
      ∧ s.DomainPasses ∧ s.validate = .ok () ∧ ¬ s'.DomainPasses
      ∧ IsBareName "\u0391\u03A3"
      ∧ (∃ a, ofTyped s.localDomain "\u0391\u03A3" = .ok a
        ∧ a.text = "\u03B1\u03C2@kit.example")
      ∧ (∃ a, ofTyped s.localDomain "@" = .ok a ∧ a.text = "@kit.example")
      ∧ (¬ ∃ a, ofTyped s'.localDomain "\u0391\u03A3" = .ok a)
      ∧ ∃ q, Query.parse .utc "creator:\u0391\u03A3 with:@" = .ok q
        ∧ ∀ raw fault, Criteria.ofQuery .utc s.localDomain q ≠ .error (.address raw fault) := by
  let s : Settings := { standard with localDomain := "\u212Ait.Example" }
  let s' : Settings := { standard with localDomain := "\u03A3.Example" }
  let q : Query := { creators := ["\u0391\u03A3"], people := ["@"] }
  have hclean : (lower "\u0391\u03A3".toList).any isForbidden = false := by decide +kernel
  have hbare : IsBareName "\u0391\u03A3" :=
    ⟨by decide, by decide, fun c hc => Bool.eq_false_iff.2 (List.any_eq_false.1 hclean c hc)⟩
  have hq : Query.parse .utc "creator:\u0391\u03A3 with:@" = .ok q := by decide +kernel
  have hvalid : s.validate = .ok () := by decide +kernel
  obtain ⟨hpasses, hnames, ⟨hshared, hsharedText⟩, haccepted⟩ := domainPasses_iff s
  obtain ⟨hpasses', hnames', -, -⟩ := domainPasses_iff s'
  obtain ⟨hname, hnameText⟩ := hnames _ hbare
  have hs : s.DomainPasses := hpasses.2 (by decide +kernel)
  have hs' : ¬ s'.DomainPasses := fun h => absurd (hpasses'.1 h) (by decide +kernel)
  obtain ⟨a, ha⟩ := hname.1 hs
  obtain ⟨b, hb⟩ := hshared.1 hs
  refine ⟨s, s', rfl, rfl, hs, hvalid, hs', hbare, ⟨a, ha, ?_⟩, ⟨b, hb, ?_⟩, ?_, q, hq, ?_⟩
  · rw [hnameText a ha]
    decide +kernel
  · rw [hsharedText b hb]
    decide +kernel
  · exact fun h => hs' ((hnames' _ hbare).1.2 h)
  · refine (haccepted hvalid).2 q (fun k hk v hv => ?_) .utc
    obtain rfl | rfl := hk
    · exact .inl (List.mem_singleton.1 hv ▸ hbare)
    · exact .inr (List.mem_singleton.1 hv)

end Settings

end WaveFinder
