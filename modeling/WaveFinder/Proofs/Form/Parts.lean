import WaveFinder.Proofs.Query.Writing
import WaveFinder.Query.Form

/-!
# Proofs/Form/Parts — what a form asks for, and the text of it

    form ──parts──▸ pairs ──written──▸ text

A form asks for parts under keys: words, and days of the one period that goes into the query
(`Asks`).  The text of the query is the parts written one after the other, key by key, unless a name
holds a colon (`query_eq`); and all but names can be written whatever they are (`Asks.isWritable`).
-/

namespace WaveFinder

open Query Text

namespace Form

/-! ## What a form asks for -/

/-- Something that a form asks for: a word, or a day. -/
inductive Part where
  | word (v : String)
  | day (d : Date)

namespace Part

/-- A part as a form writes it. -/
def text : Part → String
  | word v => v
  | day d => String.ofList d.compact

/-- A part as a query holds it, days by UTC. -/
def kept : Part → String
  | word v => v
  | day d => toString d.midnight

/-- Whether what is written for a part is read. -/
def IsReadable : Part → Prop
  | word _ => True
  | day d => 0 ≤ d.year ∧ d.year ≤ 9999

end Part

/-- Of a period of creation and one of modification the period that goes into a query, with its
date field: the first of them that has an end. -/
def choosePeriod (created modified : Period) : Option (DateField × Period) :=
  if created.isSet then some (.created, created)
  else if modified.isSet then some (.modified, modified)
  else none

/-- The period of a form that goes into its query. -/
def dating? (f : Form) : Option (DateField × Period) :=
  choosePeriod f.created f.modified

/-- What a form asks for under each key. -/
def parts (f : Form) : Key → List Part
  | .folder => [.word f.folder.token]
  | .creator => f.creators.map .word
  | .person => f.people.map .word
  | .dateField => (f.dating?.map fun p => .word p.1.token).toList
  | .firstDay => ((f.dating?.bind fun p => p.2.first).map .day).toList
  | .lastDay => ((f.dating?.bind fun p => p.2.last).map .day).toList
  | .order => f.order.map fun o => .word o.token
  | .id | .tag => []

/-- The keys in the order in which a form writes them. -/
def keyOrder : List Key :=
  [.folder, .creator, .person, .dateField, .firstDay, .lastDay, .order]

/-- What a form asks for, in the order in which it is written. -/
def pairs (f : Form) : List (Key × Part) :=
  keyOrder.flatMap fun k => (f.parts k).map fun part => (k, part)

/-- The pairs of a form with a text for each part. -/
def pairsAs (f : Form) (g : Part → String) : List (Key × String) :=
  f.pairs.map fun p => (p.1, g p.2)

/-- A form asks for a part under a key. -/
inductive Asks (f : Form) : Key → Part → Prop
  | folder : Asks f .folder (.word f.folder.token)
  | creator {name} : name ∈ f.creators → Asks f .creator (.word name)
  | person {name} : name ∈ f.people → Asks f .person (.word name)
  | dateField {p} : f.dating? = some p → Asks f .dateField (.word p.1.token)
  | firstDay {p d} : f.dating? = some p → p.2.first = some d → Asks f .firstDay (.day d)
  | lastDay {p d} : f.dating? = some p → p.2.last = some d → Asks f .lastDay (.day d)
  | order {o} : o ∈ f.order → Asks f .order (.word o.token)

variable {f : Form} {k : Key} {part : Part}

theorem asks_of_mem_parts (h : part ∈ f.parts k) : f.Asks k part := by
  rcases k
  case folder =>
    obtain rfl := List.mem_singleton.1 h
    exact .folder
  case creator =>
    obtain ⟨name, hname, rfl⟩ := List.mem_map.1 h
    exact .creator hname
  case person =>
    obtain ⟨name, hname, rfl⟩ := List.mem_map.1 h
    exact .person hname
  case dateField =>
    obtain ⟨p, hp, rfl⟩ := Option.map_eq_some_iff.1 (Option.mem_toList.1 h)
    exact .dateField hp
  case firstDay =>
    obtain ⟨d, hd, rfl⟩ := Option.map_eq_some_iff.1 (Option.mem_toList.1 h)
    obtain ⟨p, hp, hd⟩ := Option.bind_eq_some_iff.1 hd
    exact .firstDay hp hd
  case lastDay =>
    obtain ⟨d, hd, rfl⟩ := Option.map_eq_some_iff.1 (Option.mem_toList.1 h)
    obtain ⟨p, hp, hd⟩ := Option.bind_eq_some_iff.1 hd
    exact .lastDay hp hd
  case order =>
    obtain ⟨o, ho, rfl⟩ := List.mem_map.1 h
    exact .order ho
  case id => exact absurd h List.not_mem_nil
  case tag => exact absurd h List.not_mem_nil

theorem Asks.mem_parts (h : f.Asks k part) : part ∈ f.parts k := by
  cases h with
  | folder => exact List.mem_singleton_self _
  | creator hname => exact List.mem_map.2 ⟨_, hname, rfl⟩
  | person hname => exact List.mem_map.2 ⟨_, hname, rfl⟩
  | dateField hp =>
    rw [parts, hp]
    exact List.mem_singleton_self _
  | firstDay hp hd =>
    rw [parts, hp, Option.bind_some, hd]
    exact List.mem_singleton_self _
  | lastDay hp hd =>
    rw [parts, hp, Option.bind_some, hd]
    exact List.mem_singleton_self _
  | order ho => exact List.mem_map.2 ⟨_, ho, rfl⟩

theorem mem_keyOrder_of_asks (h : f.Asks k part) : k ∈ keyOrder := by
  cases h <;> decide

/-- **The pairs of a form are what it asks for.** -/
theorem mem_pairs_iff : (k, part) ∈ f.pairs ↔ f.Asks k part := by
  rw [pairs, List.mem_flatMap]
  constructor
  · rintro ⟨j, -, hp⟩
    obtain ⟨u, hu, he⟩ := List.mem_map.1 hp
    obtain ⟨rfl, rfl⟩ := Prod.mk.inj he
    exact asks_of_mem_parts hu
  · intro h
    exact ⟨k, mem_keyOrder_of_asks h, List.mem_map.2 ⟨part, h.mem_parts, rfl⟩⟩

theorem given_pairsAs (f : Form) (g : Part → String) (k : Key) :
    given k (f.pairsAs g) = (f.parts k).map g := by
  have hflat : f.pairsAs g
      = keyOrder.flatMap fun j => ((f.parts j).map g).map fun v => (j, v) := by
    simp only [pairsAs, pairs, List.map_flatMap, List.map_map, Function.comp_def]
  rw [hflat, given_flatMap k (fun j => (f.parts j).map g) (by decide)]
  by_cases hk : k ∈ keyOrder
  · exact if_pos hk
  · have hnil : f.parts k = [] := List.eq_nil_iff_forall_not_mem.2 fun part hpart =>
      hk (mem_keyOrder_of_asks (asks_of_mem_parts hpart))
    rw [if_neg hk, hnil, List.map_nil]

/-! ## The text of a form -/

/-- Whether a name holds a colon, so that it cannot stand in a token. -/
def hasColon (name : String) : Bool :=
  decide (':' ∈ name.toList)

/-- The tokens of some names: the first name with a colon is the fault. -/
theorem mapM_nameToken (k : Key) (names : List String) :
    names.mapM (nameToken k)
      = match names.find? hasColon with
        | some name => .error (.malformed name)
        | none => .ok (names.map (tokenText k)) := by
  induction names with
  | nil => rfl
  | cons name names ih =>
    rw [List.mapM_cons, ih, nameToken]
    by_cases h : ':' ∈ name.toList
    · rw [if_pos h, List.find?_cons_of_pos (by simpa [hasColon] using h)]
      rfl
    · rw [if_neg h, List.find?_cons_of_neg (by simpa [hasColon] using h)]
      rcases names.find? hasColon <;> rfl

theorem dateTokens_eq (f : Form) :
    f.dateTokens = (f.parts .dateField).map (fun part => tokenText .dateField part.text)
      ++ ((f.parts .firstDay).map (fun part => tokenText .firstDay part.text)
        ++ (f.parts .lastDay).map fun part => tokenText .lastDay part.text) := by
  have hperiod : ∀ (field : DateField) (p : Period), periodTokens field p
      = tokenText .dateField field.token
        :: ((p.first.map Part.day).toList.map (fun part => tokenText .firstDay part.text)
          ++ (p.last.map Part.day).toList.map fun part => tokenText .lastDay part.text) := by
    rintro field ⟨_ | d, _ | e⟩ <;> rfl
  rw [dateTokens]
  simp only [parts, dating?, choosePeriod]
  split
  · exact hperiod ..
  · split
    · exact hperiod ..
    · rfl

/-- **The text of a form** is its pairs, one after the other, unless a name holds a colon; of such
names the first is the fault, creators before other people. -/
theorem query_eq (f : Form) :
    f.query
      = match (f.creators ++ f.people).find? hasColon with
        | some name => .error (.malformed name)
        | none => .ok (written (f.pairsAs Part.text)) := by
  have htokens : (f.pairsAs Part.text).map (fun p => tokenText p.1 p.2)
      = tokenText .folder f.folder.token :: f.creators.map (tokenText .creator)
        ++ f.people.map (tokenText .person) ++ f.dateTokens
        ++ f.order.map fun o => tokenText .order o.token := by
    rw [dateTokens_eq]
    simp [pairsAs, pairs, keyOrder, parts, Function.comp_def, Part.text]
  rw [query, tokens, mapM_nameToken, mapM_nameToken, List.find?_append, written, htokens]
  rcases f.creators.find? hasColon with _ | name
  · rcases f.people.find? hasColon with _ | name <;> rfl
  · rfl

theorem query_eq_error_iff {fault : QueryFault} :
    f.query = .error fault
      ↔ ∃ name, (f.creators ++ f.people).find? hasColon = some name ∧ fault = .malformed name := by
  rw [query_eq]
  rcases (f.creators ++ f.people).find? hasColon with _ | name
  · simp
  · simp [eq_comm]

theorem query_eq_ok_iff {text : String} :
    f.query = .ok text
      ↔ (∀ name ∈ f.creators ++ f.people, ':' ∉ name.toList)
        ∧ text = written (f.pairsAs Part.text) := by
  have hnone : (f.creators ++ f.people).find? hasColon = none
      ↔ ∀ name ∈ f.creators ++ f.people, ':' ∉ name.toList := by
    simp only [List.find?_eq_none, hasColon, decide_eq_true_eq]
  rw [query_eq, ← hnone]
  rcases (f.creators ++ f.people).find? hasColon with _ | name
  · simp [eq_comm]
  · simp

/-- What a form asks for is writable if its names are. -/
theorem Asks.isWritable (h : f.Asks k part)
    (hnames : ∀ name ∈ f.creators ++ f.people, IsWritable name) : IsWritable part.text := by
  cases h with
  | folder => exact isWritable_folder _
  | creator hname => exact hnames _ (List.mem_append_left _ hname)
  | person hname => exact hnames _ (List.mem_append_right _ hname)
  | dateField => exact isWritable_dateField _
  | firstDay => exact isWritable_compact _
  | lastDay => exact isWritable_compact _
  | order => exact isWritable_order _

end Form

end WaveFinder
