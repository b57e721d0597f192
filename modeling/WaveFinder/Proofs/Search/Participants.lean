import WaveFinder.Proofs.Address.Completion
import WaveFinder.Proofs.Search.Agreement
import WaveFinder.Proofs.Search.Reach

/-!
# Proofs/Search/Participants — all participants of a query have addresses, or one is to blame

    text ──parse──▸ query ──Criteria.ofQuery──▸ criteria, or the first participant without address

A query that was read, by whatever clock, names days of the years 0 to 9999, and so it has a window
in UTC and at every offset (`Window.exists_ofQuery_of_parse`).  What is left to go wrong are its
participants: the creators are completed and read one after the other, then the people, and the
first that is no address ends it (`Criteria.ofQuery_of_parse`).
-/

namespace WaveFinder

open Text Query

/-! ## Days that another clock has read -/

/-- On any clock a date begins less than a day from its midnight. -/
theorem Clock.startOfDate?_bounds {c : Clock} {d : Date} {t : Int}
    (h : c.startOfDate? d = some t) : -dayMillis < d.midnight - t ∧ d.midnight - t < dayMillis := by
  have hchosen := (resolve_eq_some_iff.1 (startOfDate?_eq_some_iff.1 h)).1
  have hwithin := (of_choose?_candidates hchosen).2
  rw [isWithinDay, Bool.and_eq_true, decide_eq_true_eq, decide_eq_true_eq] at hwithin
  omega

/-- **A query that was read by any clock has a window at any offset.** -/
theorem Window.exists_ofQuery_of_parse {clock : Clock} {o : Int} {text : String} {q : Query}
    (h₀ : -dayMillis < o) (h₁ : o < dayMillis) (hq : parse clock text = .ok q) :
    ∃ w, ofQuery (Clock.fixed o) q = .ok w := by
  obtain ⟨-, hno, -⟩ | ⟨d, hd, hhas, hstart⟩ := instant_cases_of_parse (k := .lastDay) rfl hq
  · exact ⟨_, ofQuery_of_has_eq_false hno⟩
  · -- Where a date begins is its midnight at the offset that it is away from it.
    obtain ⟨hlo, hhi⟩ := Clock.startOfDate?_bounds hstart
    have hend := Clock.endOfDay_midnight_sub hlo hhi h₀ h₁ hd.year_bounds
    rw [Int.sub_sub_self] at hend
    exact ⟨_, ofQuery_of_endOfDay hhas hend⟩

namespace Query

/-! ## Participants as typed -/

/-- The values that tokens say for a key, each as often as it is said. -/
def valuesSaid (k : Key) (ts : List (List Char)) : List String :=
  ts.filterMap fun t => (splitToken? t).bind fun p => if p.1 = k then some p.2 else none

theorem valuesSaid_cons_self {k : Key} {t : List Char} {v : String} (h : Says t k v)
    (ts : List (List Char)) : valuesSaid k (t :: ts) = v :: valuesSaid k ts := by
  rw [valuesSaid, List.filterMap_cons_some]
  · rfl
  · rw [splitToken?_eq_some_iff.2 h, Option.bind_some, if_pos rfl]

theorem valuesSaid_cons_of_ne {j k : Key} {t : List Char} {v : String} (h : Says t j v)
    (hjk : j ≠ k) (ts : List (List Char)) : valuesSaid k (t :: ts) = valuesSaid k ts := by
  rw [valuesSaid, List.filterMap_cons_none]
  · rfl
  · rw [splitToken?_eq_some_iff.2 h, Option.bind_some, if_neg hjk]

variable {clock : Clock} {text : String} {q : Query} {k : Key}

theorem given_of_tells (hk : ∀ v w, Keeps clock k v w → w = v) {ts : List (List Char)}
    {ps : List (Key × String)} (h : List.Forall₂ (Tells clock) ts ps) :
    given k ps = valuesSaid k ts := by
  induction h with
  | nil => rfl
  | @cons t p ts ps htells _ ih =>
    obtain ⟨j, w⟩ := p
    obtain ⟨v, hs, hkeep⟩ := htells
    by_cases hj : j = k
    · subst hj
      rw [given_cons_self, valuesSaid_cons_self hs, ih, hk v w hkeep]
    · rw [given_cons_of_ne hj, valuesSaid_cons_of_ne hs hj, ih]

/-- **The participants of a query are the ones that its text says**, as typed, each once and in the
order in which they are first said. -/
theorem values_of_parse (hk : k = .creator ∨ k = .person) (hq : parse clock text = .ok q) :
    q.values k = (valuesSaid k (tokens text)).eraseDups := by
  obtain ⟨ps, htells, -, rfl⟩ := parse_eq_ok_iff.1 hq
  rw [values_insertAll_empty, given_of_tells (fun v w hkeep => ?_) htells]
  obtain rfl | rfl := hk <;> exact hkeep

/-! ## Participants and their addresses -/

variable {localDomain raw : String} {vs : List String} {r : Refusal}

/-- A participant as typed has an address, once the local domain has been added. -/
def HasAddress (localDomain raw : String) : Prop :=
  Address.IsAddress (lower (Address.expand localDomain raw).toList)

theorem hasAddress_iff :
    HasAddress localDomain raw ↔ ∃ a, Address.ofTyped localDomain raw = .ok a :=
  Address.exists_read_iff.symm

theorem not_hasAddress_of_ofTyped {fault : AddressFault}
    (h : Address.ofTyped localDomain raw = .error fault) : ¬ HasAddress localDomain raw := by
  rw [hasAddress_iff]
  rintro ⟨a, ha⟩
  rw [h] at ha
  cases ha

/-- Of participants as typed, one is the first that has no address. -/
def IsFirstWithout (localDomain : String) (vs : List String) (raw : String) : Prop :=
  ∃ before after, vs = before ++ raw :: after ∧ (∀ v ∈ before, HasAddress localDomain v)
    ∧ ¬ HasAddress localDomain raw

theorem IsFirstWithout.mem (h : IsFirstWithout localDomain vs raw) : raw ∈ vs := by
  obtain ⟨before, after, rfl, -⟩ := h
  exact List.mem_append_right _ (List.mem_cons_self ..)

theorem IsFirstWithout.not_hasAddress (h : IsFirstWithout localDomain vs raw) :
    ¬ HasAddress localDomain raw := by
  obtain ⟨-, -, -, -, hno⟩ := h
  exact hno

/-- No value of a query that was read is empty, and so none lacks an `@` once it is completed. -/
theorem ofTyped_ne_missingAt_of_mem_values (hq : parse clock text = .ok q)
    (hraw : raw ∈ q.values k) : Address.ofTyped localDomain raw ≠ .error .missingAt :=
  Address.ofTyped_ne_missingAt (isWritable_of_mem_values hq hraw).ne_empty

theorem addresses_eq_error_iff :
    q.addresses localDomain k = .error r
      ↔ ∃ raw fault, r = .address raw fault ∧ Address.ofTyped localDomain raw = .error fault
        ∧ IsFirstWithout localDomain (q.values k) raw := by
  simp only [addresses, Except.mapM_eq_error_iff, Except.mapError_eq_error_iff,
    Except.mapError_eq_ok_iff, ← hasAddress_iff]
  constructor
  · rintro ⟨before, raw, after, hvalues, hbefore, fault, hfault, rfl⟩
    exact ⟨raw, fault, rfl, hfault, before, after, hvalues, hbefore,
      not_hasAddress_of_ofTyped hfault⟩
  · rintro ⟨raw, fault, rfl, hfault, before, after, hvalues, hbefore, -⟩
    exact ⟨before, raw, after, hvalues, hbefore, fault, hfault, rfl⟩

theorem exists_addresses_iff :
    (∃ as, q.addresses localDomain k = .ok as)
      ↔ ∀ raw ∈ q.values k, HasAddress localDomain raw := by
  simp only [hasAddress_iff]
  refine ⟨fun ⟨as, has⟩ raw hraw => ?_, exists_addresses⟩
  have hread := List.mem_map_of_mem (f := Address.ofTyped localDomain) hraw
  rw [addresses_eq_ok_iff.1 has] at hread
  obtain ⟨a, -, ha⟩ := List.mem_map.1 hread
  exact ⟨a, ha.symm⟩

end Query

/-! ## Criteria -/

namespace Criteria

variable {clock : Clock} {localDomain : String} {q : Query} {r : Refusal}

/-- **With a window, criteria are only missing for a participant**: for the first creator that has
no address or, once all creators have one, for the first such person. -/
theorem ofQuery_eq_error_iff {w : Window} (hw : Window.ofQuery clock q = .ok w) :
    ofQuery clock localDomain q = .error r
      ↔ ∃ raw fault, r = .address raw fault ∧ Address.ofTyped localDomain raw = .error fault
          ∧ (IsFirstWithout localDomain (q.values .creator) raw
            ∨ (∀ v ∈ q.values .creator, HasAddress localDomain v)
              ∧ IsFirstWithout localDomain (q.values .person) raw) := by
  have hsteps : ofQuery clock localDomain q = .error r
      ↔ q.addresses localDomain .creator = .error r
        ∨ (∃ as, q.addresses localDomain .creator = .ok as)
          ∧ q.addresses localDomain .person = .error r := by
    simp only [ofQuery, hw, Except.bind_eq_error_iff, Except.mapError_eq_error_iff]
    constructor
    · rintro (⟨_, hno, -⟩ | ⟨_, -, hcreators | ⟨as, has, hpeople | ⟨_, -, hno⟩⟩⟩)
      · cases hno
      · exact .inl hcreators
      · exact .inr ⟨⟨as, has⟩, hpeople⟩
      · cases hno
    · rintro (hcreators | ⟨⟨as, has⟩, hpeople⟩)
      · exact .inr ⟨w, rfl, .inl hcreators⟩
      · exact .inr ⟨w, rfl, .inr ⟨as, has, .inl hpeople⟩⟩
  rw [hsteps, exists_addresses_iff, addresses_eq_error_iff, addresses_eq_error_iff]
  constructor
  · rintro (⟨raw, fault, hr, hfault, hcreator⟩ | ⟨hall, raw, fault, hr, hfault, hperson⟩)
    · exact ⟨raw, fault, hr, hfault, .inl hcreator⟩
    · exact ⟨raw, fault, hr, hfault, .inr ⟨hall, hperson⟩⟩
  · rintro ⟨raw, fault, hr, hfault, hcreator | ⟨hall, hperson⟩⟩
    · exact .inl ⟨raw, fault, hr, hfault, hcreator⟩
    · exact .inr ⟨hall, raw, fault, hr, hfault, hperson⟩

/-- **All participants have addresses, or the first without one is to blame.**  Let a query have
been read by any clock, and be searched in UTC or at any offset under any local domain.  There are
no criteria exactly if some creator or person has no address once it has been completed.  What is
reported then is that participant as it was typed, and what is wrong with it after completion, which
never is that it lacks an `@`: the first of the creators that has no address or, if they all have
one, the first of the people.  Otherwise there is one address for each of the distinct creators that
the text says, and one for each of the people, in the order in which they are first said. -/
theorem ofQuery_of_parse {z : Zone} (hz : z ≠ .host) (hostClock : Clock) {text : String}
    (hq : parse clock text = .ok q) (localDomain : String) :
    ((∃ r, ofQuery (z.clock hostClock) localDomain q = .error r)
        ↔ ∃ raw, (raw ∈ q.values .creator ∨ raw ∈ q.values .person)
          ∧ ¬ HasAddress localDomain raw)
      ∧ (∀ r, ofQuery (z.clock hostClock) localDomain q = .error r
        ↔ ∃ raw fault, r = .address raw fault
          ∧ Address.read (Address.expand localDomain raw) = .error fault ∧ fault ≠ .missingAt
          ∧ (IsFirstWithout localDomain (q.values .creator) raw
            ∨ (∀ v ∈ q.values .creator, HasAddress localDomain v)
              ∧ IsFirstWithout localDomain (q.values .person) raw))
      ∧ ∀ c, ofQuery (z.clock hostClock) localDomain q = .ok c →
        (valuesSaid .creator (tokens text)).eraseDups.map (Address.ofTyped localDomain)
            = c.creators.map .ok
          ∧ (valuesSaid .person (tokens text)).eraseDups.map (Address.ofTyped localDomain)
            = c.people.map .ok := by
  obtain ⟨o, h₀, h₁, -, hfixed⟩ := Zone.exists_clock_eq_fixed hz hostClock
  rw [hfixed]
  obtain ⟨w, hw⟩ := Window.exists_ofQuery_of_parse h₀ h₁ hq
  refine ⟨⟨?_, ?_⟩, fun r => ⟨fun hr => ?_, ?_⟩, fun c hc => ?_⟩
  · rintro ⟨r, hr⟩
    obtain ⟨raw, fault, -, -, hcreator | ⟨-, hperson⟩⟩ := (ofQuery_eq_error_iff hw).1 hr
    · exact ⟨raw, .inl hcreator.mem, hcreator.not_hasAddress⟩
    · exact ⟨raw, .inr hperson.mem, hperson.not_hasAddress⟩
  · rintro ⟨raw, hraw, hno⟩
    rcases hread : ofQuery (Clock.fixed o) localDomain q with r | c
    · exact ⟨r, rfl⟩
    · obtain ⟨-, hcreators, hpeople⟩ := ofQuery_eq_ok_iff.1 hread
      obtain hraw | hraw := hraw
      · exact absurd (exists_addresses_iff.1 ⟨_, hcreators⟩ raw hraw) hno
      · exact absurd (exists_addresses_iff.1 ⟨_, hpeople⟩ raw hraw) hno
  · obtain ⟨raw, fault, rfl, hfault, hfirst⟩ := (ofQuery_eq_error_iff hw).1 hr
    refine ⟨raw, fault, rfl, hfault, ?_, hfirst⟩
    rintro rfl
    obtain hcreator | ⟨-, hperson⟩ := hfirst
    · exact ofTyped_ne_missingAt_of_mem_values hq hcreator.mem hfault
    · exact ofTyped_ne_missingAt_of_mem_values hq hperson.mem hfault
  · rintro ⟨raw, fault, hr, hfault, -, hfirst⟩
    exact (ofQuery_eq_error_iff hw).2 ⟨raw, fault, hr, hfault, hfirst⟩
  · obtain ⟨-, hcreators, hpeople⟩ := ofQuery_eq_ok_iff.1 hc
    rw [← values_of_parse (.inl rfl) hq, ← values_of_parse (.inr rfl) hq]
    exact ⟨addresses_eq_ok_iff.1 hcreators, addresses_eq_ok_iff.1 hpeople⟩

/-- Under a domain with a blank the first creator without a domain of its own is to blame; under one
without, the person with two `@`, and where there is no such person all have addresses. -/
theorem ofQuery_of_parse_malformedDomain :
    ∃ z q q' c, Zone.parse "+05:30" = .ok z
      ∧ parse .utc "with:c@@d to:20240229 creator:a@b creator:e creator:f" = .ok q
      ∧ ofQuery (z.clock .utc) "x y" q = .error (.address "e" (.invalidCharacter ' '))
      ∧ ofQuery (z.clock .utc) "x.y" q = .error (.address "c@@d" .repeatedAt)
      ∧ parse .utc "creator:E creator:a@b creator:E" = .ok q'
      ∧ ofQuery (z.clock .utc) "x.y" q' = .ok c ∧ c.creators = [⟨"e@x.y"⟩, ⟨"a@b"⟩] := by
  have hz : Zone.parse "+05:30" = .ok (.offset ⟨330, by decide⟩) := rfl
  have hhost : Zone.offset ⟨330, by decide⟩ ≠ .host := by decide
  obtain ⟨q, hq, hcreators, hpeople⟩ : ∃ q,
      parse .utc "with:c@@d to:20240229 creator:a@b creator:e creator:f" = .ok q
      ∧ q.values .creator = ["a@b", "e", "f"] ∧ q.values .person = ["c@@d"] :=
    ⟨{ people := ["c@@d"], creators := ["a@b", "e", "f"], lastDays := ["1709164800000"] },
      by decide +kernel, rfl, rfl⟩
  obtain ⟨q', hq', hcreators', hpeople'⟩ : ∃ q',
      parse .utc "creator:E creator:a@b creator:E" = .ok q'
      ∧ q'.values .creator = ["E", "a@b"] ∧ q'.values .person = [] :=
    ⟨{ creators := ["E", "a@b"] }, by decide +kernel, rfl, rfl⟩
  have hread : ∀ d raw text, Address.ofTyped d raw = .ok ⟨text⟩ → HasAddress d raw :=
    fun d raw text h => hasAddress_iff.2 ⟨_, h⟩
  have hwhole := hread "x y" "a@b" "a@b" (by decide +kernel)
  have hdomain : ∀ v ∈ ["a@b", "e", "f", "E"], HasAddress "x.y" v := by
    simp only [List.forall_mem_cons, List.not_mem_nil, false_implies, implies_true, and_true]
    exact ⟨hread _ _ "a@b" (by decide +kernel), hread _ _ "e@x.y" (by decide +kernel),
      hread _ _ "f@x.y" (by decide +kernel), hread _ _ "e@x.y" (by decide +kernel)⟩
  have hpart : ["E", "a@b"] ⊆ ["a@b", "e", "f", "E"] := by decide
  have hpart' : ["a@b", "e", "f"] ⊆ ["a@b", "e", "f", "E"] := by decide
  have hblank : Address.ofTyped "x y" "e" = .error (.invalidCharacter ' ') := by decide +kernel
  have htwo : Address.ofTyped "x.y" "c@@d" = .error .repeatedAt := by decide +kernel
  obtain ⟨-, hculprit, -⟩ := ofQuery_of_parse hhost .utc hq "x y"
  obtain ⟨-, hculprit', -⟩ := ofQuery_of_parse hhost .utc hq "x.y"
  obtain ⟨hfails, -, hsucceeds⟩ := ofQuery_of_parse hhost .utc hq' "x.y"
  rw [hcreators] at hculprit hculprit'
  rw [hpeople] at hculprit'
  rw [hcreators', hpeople'] at hfails
  have hc : ∃ c, ofQuery ((Zone.offset ⟨330, by decide⟩).clock .utc) "x.y" q' = .ok c := by
    rcases h : ofQuery ((Zone.offset ⟨330, by decide⟩).clock .utc) "x.y" q' with r | c
    · obtain ⟨raw, hraw | hraw, hno⟩ := hfails.1 ⟨r, h⟩
      · exact absurd (hdomain raw (hpart hraw)) hno
      · exact absurd hraw List.not_mem_nil
    · exact ⟨c, rfl⟩
  obtain ⟨c, hc⟩ := hc
  obtain ⟨hdistinct, -⟩ := hsucceeds c hc
  refine ⟨_, q, q', c, hz, hq, (hculprit _).2 ?_, (hculprit' _).2 ?_, hq', hc, ?_⟩
  · exact ⟨"e", _, rfl, hblank, by decide, .inl ⟨["a@b"], ["f"], rfl,
      List.forall_mem_singleton.2 hwhole, not_hasAddress_of_ofTyped hblank⟩⟩
  · exact ⟨"c@@d", _, rfl, htwo, by decide, .inr
      ⟨fun v hv => hdomain v (hpart' hv),
        [], [], rfl, List.forall_mem_nil _, not_hasAddress_of_ofTyped htwo⟩⟩
  · have hnamed : (valuesSaid .creator
        (tokens "creator:E creator:a@b creator:E")).eraseDups.map (Address.ofTyped "x.y")
        = [⟨"e@x.y"⟩, ⟨"a@b"⟩].map Except.ok := by
      decide +kernel
    rw [hnamed] at hdistinct
    exact (List.map_injective_iff.2 (fun _ _ => Except.ok.inj) hdistinct).symm

end Criteria

end WaveFinder
