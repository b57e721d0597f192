import WaveFinder.Proofs.Address.Grammar
import WaveFinder.Proofs.Json.RoundTrip
import WaveFinder.Proofs.Zone.Names
import WaveFinder.Query.Json

/-!
# Proofs/Wave/RoundTrip — waves are kept in text

    text ──readAs──▸ wave ──toJson, compact──▸ text ──readAs──▸ the same wave

Records come in many forms: fields in any order or by position, escapes in strings, addresses in
capitals.  What is written for a wave has one form, and is read as the wave if its times are 64-bit
words and its addresses are normal (`Wave.IsSound`).  Of what has been read both are true, so it is
written and read again as it is (`Wave.readAs_compact`).
-/

namespace WaveFinder

open Text

/-! ## Arrays and objects -/

namespace Json

variable {α : Type} {item : Json → Option α} {write : α → Json} {j : Json} {as : List α}

/-- Reads a text as a value of a type. -/
def readAs (ofJson? : Json → Option α) (s : String) : Option α :=
  (read? s).bind ofJson?

theorem readAs_of_isPlain (h : IsPlain j) (item : Json → Option α) :
    readAs item j.compact = item j := by
  rw [readAs, read?_compact h, Option.bind_some]

theorem isPlain_object {fields : List (String × Json)} (h : ∀ f ∈ fields, IsPlain f.2) :
    IsPlain (object fields) := by
  refine .record (fun f hf => ?_) fun f hf => ?_ <;> obtain ⟨g, hg, rfl⟩ := List.mem_map.1 hf
  · rfl
  · exact h g hg

theorem isPlain_list_map (h : ∀ a ∈ as, IsPlain (write a)) : IsPlain (.list (as.map write)) := by
  refine .list fun j hj => ?_
  obtain ⟨a, ha, rfl⟩ := List.mem_map.1 hj
  exact h a ha

theorem asList?_list_map (h : ∀ a ∈ as, item (write a) = some a) :
    asList? item (.list (as.map write)) = some as := by
  rw [asList?]
  induction as with
  | nil => rfl
  | cons a as ih =>
    obtain ⟨ha, has⟩ := List.forall_mem_cons.1 h
    rw [List.map_cons, List.mapM_cons, ha, ih has]
    rfl

/-- Every item of an array that was read has been read. -/
theorem exists_of_mem_asList? (h : asList? item j = some as) {a : α} (ha : a ∈ as) :
    ∃ i, item i = some a := by
  cases j with
  | list js =>
    rw [asList?] at h
    induction js generalizing as with
    | nil =>
      cases h
      exact absurd ha List.not_mem_nil
    | cons j js ih =>
      rw [List.mapM_cons] at h
      obtain ⟨b, hb, h⟩ := Option.bind_eq_some_iff.1 h
      obtain ⟨bs, hbs, h⟩ := Option.bind_eq_some_iff.1 h
      obtain rfl := Option.some.inj h
      obtain rfl | ha := List.mem_cons.1 ha
      · exact ⟨j, hb⟩
      · exact ih ha hbs
  | null | bool | int | real | text | record => cases h

theorem fitsWord_of_asWord? {n : Int} (h : j.asWord? = some n) : Numeral.fitsWord n = true := by
  cases j with
  | int m =>
    rw [asWord?] at h
    split at h
    · next hm => rwa [← Option.some.inj h]
    · cases h
  | null | bool | real | text | list | record => cases h

end Json

/-! ## Addresses -/

namespace Address

/-- An address is normal if it is an address, and in lower case. -/
def IsNormal (a : Address) : Prop :=
  IsAddress a.text.toList ∧ lower a.text.toList = a.text.toList

variable {a : Address} {j : Json}

/-- **Normal addresses are those that are read as they are.** -/
theorem isNormal_iff : a.IsNormal ↔ read a.text = .ok a := by
  rw [IsNormal, read_eq_ok_iff, fault?_eq_none_iff]
  constructor
  · rintro ⟨haddress, hlower⟩
    rw [hlower, String.ofList_toList]
    exact ⟨haddress, rfl⟩
  · rintro ⟨haddress, htext⟩
    have hlower := congrArg String.toList htext
    rw [String.toList_ofList] at hlower
    rw [← hlower] at haddress
    exact ⟨haddress, hlower.symm⟩

theorem isPlain_toJson (a : Address) : Json.IsPlain a.toJson :=
  .text a.text

theorem isNormal_of_ofJson? (h : ofJson? j = some a) : a.IsNormal := by
  obtain ⟨s, -, hread⟩ := Option.bind_eq_some_iff.1 h
  refine isNormal_iff.2 (read_text (s := s) ?_)
  rcases hs : read s with _ | b
  · rw [hs] at hread
    cases hread
  · rw [hs] at hread
    rw [Option.some.inj hread]

theorem ofJson?_toJson (h : a.IsNormal) : ofJson? a.toJson = some a := by
  rw [toJson, ofJson?, Json.ofString, Json.asString?, Option.bind_some, isNormal_iff.1 h]
  rfl

end Address

/-! ## Wavelets and waves -/

namespace Wavelet

/-- A wavelet is sound if its times are 64-bit words and its addresses are normal. -/
structure IsSound (w : Wavelet) : Prop where
  created : Numeral.fitsWord w.created = true
  modified : Numeral.fitsWord w.modified = true
  creator : w.creator.IsNormal
  participants : ∀ a ∈ w.participants, a.IsNormal

variable {w : Wavelet} {j : Json}

theorem isPlain_toJson (w : Wavelet) : Json.IsPlain w.toJson := by
  refine Json.isPlain_object ?_
  simp only [List.forall_mem_cons]
  exact ⟨.text _, .text _, .int _, .int _, Json.isPlain_list_map fun a _ => a.isPlain_toJson,
    fun f hf => absurd hf List.not_mem_nil⟩

theorem ofJson?_toJson (h : w.IsSound) : ofJson? w.toJson = some w := by
  have hpeople : Json.asList? Address.ofJson? (.list (w.participants.map Address.toJson))
      = some w.participants :=
    Json.asList?_list_map fun a ha => Address.ofJson?_toJson (h.participants a ha)
  have hcreated : Json.asWord? (.int w.created) = some w.created := by
    rw [Json.asWord?, if_pos h.created]
  have hmodified : Json.asWord? (.int w.modified) = some w.modified := by
    rw [Json.asWord?, if_pos h.modified]
  have hfields : w.toJson.asFields?
      ["id", "creator", "creation_time", "last_modified_time", "participants"] 4
      = some [some (Json.ofString w.id), some w.creator.toJson, some (.int w.created),
        some (.int w.modified), some (.list (w.participants.map Address.toJson))] := rfl
  simp only [ofJson?, hfields, Json.ofString, Json.asString?, Address.ofJson?_toJson h.creator,
    hcreated, hmodified, hpeople, bind, Option.bind]
  rfl

theorem isSound_of_ofJson? (h : ofJson? j = some w) : w.IsSound := by
  simp only [ofJson?, Option.bind_eq_bind, Option.bind_eq_some_iff] at h
  obtain ⟨fields, -, h⟩ := h
  split at h
  · simp only [Option.bind_eq_some_iff, Option.pure_def] at h
    obtain ⟨id, -, creator, hcreator, created, hcreated, modified, hmodified, h⟩ := h
    obtain ⟨people, hpeople, rfl⟩ : ∃ people, (∀ a ∈ people, ∃ i, Address.ofJson? i = some a)
        ∧ w = ⟨id, creator, created, modified, people⟩ := by
      split at h
      · obtain ⟨people, hpeople, h⟩ := Option.bind_eq_some_iff.1 h
        exact ⟨people, fun a ha => Json.exists_of_mem_asList? hpeople ha, (Option.some.inj h).symm⟩
      · exact ⟨[], fun a ha => absurd ha List.not_mem_nil, (Option.some.inj h).symm⟩
    refine ⟨Json.fitsWord_of_asWord? hcreated, Json.fitsWord_of_asWord? hmodified,
      Address.isNormal_of_ofJson? hcreator, fun a ha => ?_⟩
    obtain ⟨i, hi⟩ := hpeople a ha
    exact Address.isNormal_of_ofJson? hi
  · cases h

end Wavelet

namespace Wave

/-- A wave is sound if its wavelets are. -/
def IsSound (w : Wave) : Prop :=
  ∀ d ∈ w.wavelets, d.IsSound

variable {w : Wave} {ws : List Wave} {j : Json}

theorem isPlain_toJson (w : Wave) : Json.IsPlain w.toJson := by
  refine Json.isPlain_object ?_
  simp only [List.forall_mem_cons]
  exact ⟨.text _, Json.isPlain_list_map fun d _ => d.isPlain_toJson,
    fun f hf => absurd hf List.not_mem_nil⟩

theorem ofJson?_toJson (h : w.IsSound) : ofJson? w.toJson = some w := by
  have hwavelets : Json.asList? Wavelet.ofJson? (.list (w.wavelets.map Wavelet.toJson))
      = some w.wavelets :=
    Json.asList?_list_map fun d hd => Wavelet.ofJson?_toJson (h d hd)
  have hfields : w.toJson.asFields? ["id", "wavelets"] 1
      = some [some (Json.ofString w.id), some (.list (w.wavelets.map Wavelet.toJson))] := rfl
  simp only [ofJson?, hfields, Json.ofString, Json.asString?, hwavelets, bind, Option.bind]
  rfl

theorem isPlain_listToJson (ws : List Wave) : Json.IsPlain (listToJson ws) :=
  Json.isPlain_list_map fun w _ => w.isPlain_toJson

theorem listOfJson?_listToJson (h : ∀ w ∈ ws, w.IsSound) :
    listOfJson? (listToJson ws) = some ws :=
  Json.asList?_list_map fun w hw => ofJson?_toJson (h w hw)

theorem isSound_of_ofJson? (h : ofJson? j = some w) : w.IsSound := by
  simp only [ofJson?, Option.bind_eq_bind, Option.bind_eq_some_iff] at h
  obtain ⟨fields, -, h⟩ := h
  split at h
  · simp only [Option.bind_eq_some_iff, Option.pure_def] at h
    obtain ⟨id, -, h⟩ := h
    split at h
    · obtain ⟨wavelets, hwavelets, h⟩ := Option.bind_eq_some_iff.1 h
      obtain rfl := Option.some.inj h
      intro d hd
      obtain ⟨i, hi⟩ := Json.exists_of_mem_asList? hwavelets hd
      exact Wavelet.isSound_of_ofJson? hi
    · obtain rfl := Option.some.inj h
      exact fun d hd => absurd hd List.not_mem_nil
  · cases h

/-- **Waves are kept in text.**  What has been read from a text as a wave, a list of waves, a
wavelet, an address or a zone is read again from the text that is written for it, and is the same;
its addresses are normal, and its times fit.  And whatever its ids and however many wavelets it has,
a wave whose times fit and whose addresses are normal is read from its text, and so is a list of
such waves. -/
theorem readAs_compact :
    (∀ s w, Json.readAs ofJson? s = some w →
        Json.readAs ofJson? w.toJson.compact = some w ∧ w.IsSound)
      ∧ (∀ s ws, Json.readAs listOfJson? s = some ws →
        Json.readAs listOfJson? (listToJson ws).compact = some ws ∧ ∀ w ∈ ws, w.IsSound)
      ∧ (∀ s w, Json.readAs Wavelet.ofJson? s = some w →
        Json.readAs Wavelet.ofJson? w.toJson.compact = some w ∧ w.IsSound)
      ∧ (∀ s a, Json.readAs Address.ofJson? s = some a →
        Json.readAs Address.ofJson? a.toJson.compact = some a ∧ a.IsNormal)
      ∧ (∀ s z, Json.readAs Zone.ofJson? s = some z →
        Json.readAs Zone.ofJson? z.toJson.compact = some z)
      ∧ (∀ w : Wave, w.IsSound → Json.readAs ofJson? w.toJson.compact = some w)
      ∧ ∀ ws : List Wave, (∀ w ∈ ws, w.IsSound) →
          Json.readAs listOfJson? (listToJson ws).compact = some ws := by
  have hwave : ∀ w : Wave, w.IsSound → Json.readAs ofJson? w.toJson.compact = some w := by
    intro w hw
    rw [Json.readAs_of_isPlain w.isPlain_toJson, ofJson?_toJson hw]
  have hlist : ∀ ws : List Wave, (∀ w ∈ ws, w.IsSound) →
      Json.readAs listOfJson? (listToJson ws).compact = some ws := by
    intro ws hws
    rw [Json.readAs_of_isPlain (isPlain_listToJson ws), listOfJson?_listToJson hws]
  refine ⟨fun s w h => ?_, fun s ws h => ?_, fun s w h => ?_, fun s a h => ?_, fun s z h => ?_,
    hwave, hlist⟩ <;> obtain ⟨j, -, hj⟩ := Option.bind_eq_some_iff.1 h
  · have hw := isSound_of_ofJson? hj
    exact ⟨hwave w hw, hw⟩
  · have hws : ∀ w ∈ ws, w.IsSound := by
      intro w hw
      obtain ⟨i, hi⟩ := Json.exists_of_mem_asList? hj hw
      exact isSound_of_ofJson? hi
    exact ⟨hlist ws hws, hws⟩
  · have hw := Wavelet.isSound_of_ofJson? hj
    rw [Json.readAs_of_isPlain w.isPlain_toJson]
    exact ⟨Wavelet.ofJson?_toJson hw, hw⟩
  · have ha := Address.isNormal_of_ofJson? hj
    rw [Json.readAs_of_isPlain a.isPlain_toJson]
    exact ⟨Address.ofJson?_toJson ha, ha⟩
  · rw [Json.readAs_of_isPlain (show Json.IsPlain z.toJson from .text z.text), Zone.ofJson?,
      Zone.toJson, Json.ofString, Json.asString?, Option.bind_some]
    exact Zone.parse_eq_ok_iff.1 z.parse_text

/-- A wave by positions, with an escaped line feed in its id, an author in capitals and the least
time that there is: it is written as an object, and read again, also twice in a list. -/
theorem readAs_compact_byPosition :
    ∃ w, Json.readAs ofJson? "[\"w\\u000a\",[[\"conv+root\",\"AL@B.com\",-9223372036854775808,5]]]"
        = some w
      ∧ w = ⟨"w\n", [⟨"conv+root", ⟨"al@b.com"⟩, -9223372036854775808, 5, []⟩]⟩
      ∧ Json.readAs ofJson? w.toJson.compact = some w ∧ w.IsSound
      ∧ Json.readAs listOfJson? (listToJson [w, w]).compact = some [w, w] := by
  obtain ⟨w, hw, hread⟩ : ∃ w : Wave,
      w = ⟨"w\n", [⟨"conv+root", ⟨"al@b.com"⟩, -9223372036854775808, 5, []⟩]⟩
        ∧ Json.readAs ofJson?
          "[\"w\\u000a\",[[\"conv+root\",\"AL@B.com\",-9223372036854775808,5]]]" = some w :=
    ⟨_, rfl, by decide +kernel⟩
  obtain ⟨hone, -, -, -, -, -, hlist⟩ := readAs_compact
  obtain ⟨hback, hsound⟩ := hone _ w hread
  refine ⟨w, hread, hw, hback, hsound, hlist _ fun v hv => ?_⟩
  obtain rfl : v = w := by simpa using hv
  exact hsound

end Wave

end WaveFinder
