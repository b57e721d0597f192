import WaveFinder.Proofs.Form.Entries
import WaveFinder.Proofs.Form.Parts

/-!
# Proofs/Form/Building — a built query is read as the form

    entries ──▸ form ──▸ text ──parse──▸ query

The days that are written are not all read: the years of the query language have four digits, and a
form takes any date (`Asks.keeps_utc_iff`).  Otherwise the text of a form is read in UTC as what the
form asks for (`parse_written_pairsAs_eq_ok_iff`), and so a form that entries make is read as what
was entered (`asked`).
-/

namespace WaveFinder

open Query Text

namespace Form

variable {f : Form} {k : Key} {part : Part}

/-! ## Reading the text of a form -/

/-- A day is kept in UTC if its year has four digits. -/
theorem keeps_utc_compact_iff (hk : k.isDay = true) {d : Date} {w : String} :
    Keeps Clock.utc k (String.ofList d.compact) w
      ↔ (0 ≤ d.year ∧ d.year ≤ 9999) ∧ w = toString d.midnight := by
  have hday : (∃ e : Date, e.IsNamedBy (String.ofList d.compact).toList
        ∧ w = toString (e.midnight - 0))
      ↔ (0 ≤ d.year ∧ d.year ≤ 9999) ∧ w = toString d.midnight := by
    simp only [String.toList_ofList, Date.isNamedBy_compact_iff, Int.sub_zero]
    constructor
    · rintro ⟨e, ⟨hy, rfl⟩, hw⟩
      exact ⟨hy, hw⟩
    · rintro ⟨hy, hw⟩
      exact ⟨d, ⟨hy, rfl⟩, hw⟩
  rw [← hday]
  rcases k
  case firstDay => exact keeps_day_fixed_iff (by decide) (by decide)
  case lastDay => exact keeps_day_fixed_iff (by decide) (by decide)
  all_goals exact absurd hk (by decide)

/-- **What a form asks for is kept if it is readable**: a word as it is, a day as the instant of its
midnight. -/
theorem Asks.keeps_utc_iff (h : f.Asks k part) {w : String} :
    Keeps Clock.utc k part.text w ↔ part.IsReadable ∧ w = part.kept := by
  have hword : ∀ {v : String}, w = v ↔ Part.IsReadable (.word v) ∧ w = v :=
    iff_of_eq (true_and _).symm
  cases h with
  | folder => exact hword
  | creator => exact hword
  | person => exact hword
  | dateField => exact (and_iff_left ⟨_, rfl⟩).trans hword
  | firstDay => exact keeps_utc_compact_iff rfl
  | lastDay => exact keeps_utc_compact_iff rfl
  | order => exact (and_iff_left ⟨_, rfl⟩).trans hword

/-- A form names one date field at most. -/
theorem dateFieldsAgree_pairsAs (f : Form) (g : Part → String) :
    DateFieldsAgree none (f.pairsAs g) := by
  intro v hv w hw
  rw [Option.toList_none, List.nil_append, given_pairsAs, parts] at hv hw
  rcases hp : f.dating? with _ | p <;> rw [hp] at hv hw
  · exact absurd hv List.not_mem_nil
  · exact (List.mem_singleton.1 hv).trans (List.mem_singleton.1 hw).symm

/-- **What the text of a form is read as** in UTC: it is read if all of its days can be read, and as
what it asks for. -/
theorem parse_written_pairsAs_eq_ok_iff
    (hnames : ∀ name ∈ f.creators ++ f.people, IsWritable name) {q : Query} :
    parse Clock.utc (written (f.pairsAs Part.text)) = .ok q
      ↔ (∀ p ∈ f.pairs, p.2.IsReadable) ∧ q = empty.insertAll (f.pairsAs Part.kept) := by
  have hwritable : ∀ p ∈ f.pairsAs Part.text, IsWritable p.2 := by
    intro p hp
    obtain ⟨⟨k, part⟩, hpart, rfl⟩ := List.mem_map.1 hp
    exact (mem_pairs_iff.1 hpart).isWritable hnames
  have hkept : ∀ kept, List.Forall₂ (fun p w => w.1 = p.1 ∧ Keeps Clock.utc p.1 p.2 w.2)
        (f.pairsAs Part.text) kept
      ↔ (∀ p ∈ f.pairs, p.2.IsReadable) ∧ kept = f.pairsAs Part.kept := by
    intro kept
    rw [pairsAs, pairsAs, List.forall₂_map_left_iff, ← forall₂_and_eq_iff]
    refine forall₂_congr_of_mem fun p hp w => ?_
    rw [(mem_pairs_iff.1 hp).keeps_utc_iff, Prod.ext_iff]
    exact and_left_comm
  rw [parse_written_eq_ok_iff hwritable]
  simp only [hkept]
  constructor
  · rintro ⟨_, ⟨hread, rfl⟩, -, hq⟩
    exact ⟨hread, hq⟩
  · rintro ⟨hread, hq⟩
    exact ⟨_, ⟨hread, rfl⟩, dateFieldsAgree_pairsAs f _, hq⟩

/-- The parts of a form can be read if the days of the period that goes in can. -/
theorem forall_pairs_isReadable_iff :
    (∀ p ∈ f.pairs, p.2.IsReadable)
      ↔ ∀ field period, f.dating? = some (field, period) →
          ∀ d ∈ period.days, 0 ≤ d.year ∧ d.year ≤ 9999 := by
  constructor
  · intro h field period hp d hd
    rcases List.mem_append.1 hd with hd | hd
    · exact h (.firstDay, .day d) (mem_pairs_iff.2 (.firstDay hp (Option.mem_toList.1 hd)))
    · exact h (.lastDay, .day d) (mem_pairs_iff.2 (.lastDay hp (Option.mem_toList.1 hd)))
  · rintro h ⟨k, part⟩ hpart
    cases mem_pairs_iff.1 hpart with
    | firstDay hp hd => exact h _ _ hp _ (List.mem_append_left _ (Option.mem_toList.2 hd))
    | lastDay hp hd => exact h _ _ hp _ (List.mem_append_right _ (Option.mem_toList.2 hd))
    | _ => trivial

/-- Two kinds of blank are about: a word holds neither, and a token may not hold one of them. -/
theorem IsWord.isWritable {name : String} (h : IsWord name) (hcolon : ':' ∉ name.toList) :
    IsWritable name := by
  refine ⟨h.ne_empty, hcolon, fun c hc => Bool.eq_false_iff.2 fun hascii => ?_⟩
  exact Bool.eq_false_iff.1 (h.blank c hc) (isBlank_of_isAsciiBlank hascii)

/-- A form whose names are words is read as what it asks for. -/
theorem parse_query_eq_ok_iff {text : String} {q : Query}
    (hwords : ∀ name ∈ f.creators ++ f.people, IsWord name) (h : f.query = .ok text) :
    parse Clock.utc text = .ok q
      ↔ (∀ field period, f.dating? = some (field, period) →
            ∀ d ∈ period.days, 0 ≤ d.year ∧ d.year ≤ 9999)
          ∧ q = empty.insertAll (f.pairsAs Part.kept) := by
  obtain ⟨hcolon, rfl⟩ := query_eq_ok_iff.1 h
  have hnames : ∀ name ∈ f.creators ++ f.people, IsWritable name :=
    fun name hname => (hwords name hname).isWritable (hcolon name hname)
  rw [parse_written_pairsAs_eq_ok_iff hnames, forall_pairs_isReadable_iff]

/-- **A form whose names are words is a query** if it has a text and the days in the text are of
years 0 to 9999, and is none otherwise. -/
theorem exists_parse_query_iff {text : String}
    (hwords : ∀ name ∈ f.creators ++ f.people, IsWord name) (h : f.query = .ok text) :
    (∃ q, parse Clock.utc text = .ok q)
      ↔ ∀ field period, f.dating? = some (field, period) →
          ∀ d ∈ period.days, 0 ≤ d.year ∧ d.year ≤ 9999 := by
  constructor
  · rintro ⟨q, hq⟩
    exact ((parse_query_eq_ok_iff hwords h).1 hq).1
  · exact fun hyears => ⟨_, (parse_query_eq_ok_iff hwords h).2 ⟨hyears, rfl⟩⟩

/-! ## What entries ask for -/

/-- The period that entries ask for, with its date field. -/
def dating (es : List Entry) : Option (DateField × Period) :=
  choosePeriod (latest Entry.created? {} es) (latest Entry.modified? {} es)

/-- What entries ask for under each key, days by UTC. -/
def asked (es : List Entry) : Key → List String
  | .folder => [(latest Entry.folder? .inbox es).token]
  | .creator => (es.flatMap Entry.creatorNames).eraseDups
  | .person => (es.flatMap Entry.personNames).eraseDups
  | .dateField => ((dating es).map fun p => p.1.token).toList
  | .firstDay => (((dating es).bind fun p => p.2.first).map fun d => toString d.midnight).toList
  | .lastDay => (((dating es).bind fun p => p.2.last).map fun d => toString d.midnight).toList
  | .order => ((es.filterMap Entry.order?).map SortKey.token).eraseDups
  | .id | .tag => []

variable {es : List Entry}

theorem dating?_ofEntries (es : List Entry) : (ofEntries es).dating? = dating es := by
  rw [dating?, created_ofEntries, modified_ofEntries, dating]

theorem eraseDups_map_kept_parts (es : List Entry) (k : Key) :
    (((ofEntries es).parts k).map Part.kept).eraseDups = asked es k := by
  have hone : ∀ {d? : Option Date}, ((d?.map Part.day).toList.map Part.kept).eraseDups
      = (d?.map fun d => toString d.midnight).toList := by
    rintro (_ | d) <;> rfl
  have hwords : ∀ {vs : List String}, (vs.map Part.word).map Part.kept = vs := by
    intro vs
    rw [List.map_map]
    exact List.map_id vs
  rcases k
  case folder => rw [parts, folder_ofEntries]; rfl
  case creator => rw [parts, hwords, creators_ofEntries, asked]
  case person => rw [parts, hwords, people_ofEntries, asked]
  case dateField =>
    rw [parts, dating?_ofEntries, asked]
    rcases dating es <;> rfl
  case firstDay => rw [parts, hone, dating?_ofEntries, asked]
  case lastDay => rw [parts, hone, dating?_ofEntries, asked]
  case order =>
    have hkept : ((ofEntries es).order.map fun o => Part.word o.token).map Part.kept
        = (ofEntries es).order.map SortKey.token := by
      rw [List.map_map]
      rfl
    rw [parts, hkept, order_ofEntries, eraseDups_of_nodup (nodup_eraseDups _), asked]
  case id => rfl
  case tag => rfl

/-- The days of the period that entries ask for are among those entered. -/
theorem exists_days_of_dating {field : DateField} {period : Period}
    (h : dating es = some (field, period)) {d : Date} (hd : d ∈ period.days) :
    ∃ e ∈ es, d ∈ e.days := by
  rw [dating, choosePeriod] at h
  split at h
  · obtain ⟨rfl, rfl⟩ := Prod.mk.inj (Option.some.inj h)
    exact exists_days_of_mem_latest Entry.days_of_created? hd
  · split at h
    · obtain ⟨rfl, rfl⟩ := Prod.mk.inj (Option.some.inj h)
      exact exists_days_of_mem_latest Entry.days_of_modified? hd
    · exact absurd h (by simp)

/-! ## A built query -/

/-- **The names in a field are its maximal runs** of characters other than commas and blanks, in the
order of the field, and nothing else is. -/
theorem names_eq_iff {field : String} {ns : List String} :
    names field = ns
      ↔ MaximalRuns (fun c => c == ',' || isBlank c) field.toList (ns.map String.toList) := by
  rw [maximalRuns_iff, names]
  constructor
  · rintro rfl
    simp [Function.comp_def]
  · intro h
    simp [← h, Function.comp_def]

/-- **A built query is read as what was entered.**  Entries whose days are of years 0 to 9999 fail
to make a query only for a name with a colon, and then for the first of them, creators before other
people; otherwise the query is read in UTC, and holds under each key what the entries ask for. -/
theorem query_ofEntries (hyears : ∀ e ∈ es, ∀ d ∈ e.days, 0 ≤ d.year ∧ d.year ≤ 9999) :
    (∀ fault, (ofEntries es).query = .error fault
        ↔ ∃ name, (es.flatMap Entry.creatorNames ++ es.flatMap Entry.personNames).find? hasColon
            = some name ∧ fault = .malformed name)
      ∧ ((∀ name ∈ es.flatMap Entry.creatorNames ++ es.flatMap Entry.personNames,
            ':' ∉ name.toList) →
          ∃ text q, (ofEntries es).query = .ok text ∧ parse Clock.utc text = .ok q
            ∧ ∀ k, q.values k = asked es k) := by
  have hnames : (ofEntries es).creators ++ (ofEntries es).people
      = es.flatMap Entry.creatorNames ++ es.flatMap Entry.personNames := by
    rw [creators_ofEntries, people_ofEntries]
  rw [← hnames]
  refine ⟨fun fault => query_eq_error_iff, fun hcolon => ?_⟩
  have htext := query_eq_ok_iff.2 ⟨hcolon, rfl⟩
  refine ⟨_, _, htext, (parse_query_eq_ok_iff (fun _ => isWord_of_mem_ofEntries) htext).2 ⟨?_, rfl⟩,
    fun k => ?_⟩
  · intro field period hp d hd
    rw [dating?_ofEntries] at hp
    obtain ⟨e, he, hde⟩ := exists_days_of_dating hp hd
    exact hyears e he d hde
  · rw [values_insertAll_empty, given_pairsAs, eraseDups_map_kept_parts]

/-- A no-break space parts names in a field though not in a query, and of two periods that are given
the first goes in. -/
theorem query_ofEntries_bothPeriods :
    ∃ text q, (ofEntries [.modified ⟨some ⟨2024, 2, 29, by decide⟩, none⟩,
          .creators "bob,al\xa0bob", .created ⟨none, some ⟨1969, 12, 31, by decide⟩⟩,
          .folder .shared]).query = .ok text
      ∧ parse Clock.utc text = .ok q ∧ q.values .folder = ["shared"]
      ∧ q.values .creator = ["bob", "al"] ∧ q.values .dateField = ["createdate"]
      ∧ q.values .firstDay = [] ∧ q.values .lastDay = ["-86400000"] := by
  have hyears : ∀ e ∈ ([.modified ⟨some ⟨2024, 2, 29, by decide⟩, none⟩,
      .creators "bob,al\xa0bob", .created ⟨none, some ⟨1969, 12, 31, by decide⟩⟩,
      .folder .shared] : List Entry), ∀ d ∈ e.days, 0 ≤ d.year ∧ d.year ≤ 9999 := by
    decide
  obtain ⟨text, q, htext, hq, hvalues⟩ := (query_ofEntries hyears).2 (by decide)
  exact ⟨text, q, htext, hq, hvalues _, hvalues _, hvalues _, hvalues _, hvalues _⟩

/-- **When a built query is a query.**  What entries make is read in UTC exactly if the days of the
period that goes in are of years 0 to 9999. -/
theorem parse_query_ofEntries_iff {text : String} (h : (ofEntries es).query = .ok text) :
    (∃ q, parse Clock.utc text = .ok q)
      ↔ ∀ field period, dating es = some (field, period) →
          ∀ d ∈ period.days, 0 ≤ d.year ∧ d.year ≤ 9999 := by
  rw [exists_parse_query_iff (fun _ => isWord_of_mem_ofEntries) h, dating?_ofEntries]

/-- A period that does not go in may hold any day. -/
theorem parse_query_ofEntries_iff_otherPeriod :
    ∃ text, (ofEntries [.created ⟨some ⟨2023, 1, 2, by decide⟩, none⟩,
        .modified ⟨some ⟨10000, 1, 1, by decide⟩, none⟩]).query = .ok text
      ∧ ∃ q, parse Clock.utc text = .ok q := by
  have htext : (ofEntries [.created ⟨some ⟨2023, 1, 2, by decide⟩, none⟩,
      .modified ⟨some ⟨10000, 1, 1, by decide⟩, none⟩]).query
        = .ok "in:inbox usedate:createdate from:20230102" := rfl
  refine ⟨_, htext, (parse_query_ofEntries_iff htext).2 ?_⟩
  rintro field period hp d hd
  obtain ⟨rfl, rfl⟩ := Prod.mk.inj (Option.some.inj hp)
  obtain rfl := List.mem_singleton.1 hd
  decide

/-- A day of the year 10000 is entered and written, but what is written is not read. -/
theorem query_ofEntries_yearTenThousand :
    (⟨10000, 1, 1, by decide⟩ : Date).isCovered = true
      ∧ (ofEntries [.created ⟨some ⟨10000, 1, 1, by decide⟩, none⟩]).query
        = .ok "in:inbox usedate:createdate from:+100000101"
      ∧ parse Clock.utc "in:inbox usedate:createdate from:+100000101"
        = .error (.invalidDay "+100000101") :=
  ⟨rfl, rfl, rfl⟩

end Form

end WaveFinder
