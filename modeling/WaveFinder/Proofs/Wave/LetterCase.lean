import WaveFinder.Proofs.Text.LetterCase
import WaveFinder.Wave.Json

/-!
# Proofs/Wave/LetterCase — records whose addresses are recased

    records, records recased ──Wave.listOfJson?──▸ the same waves

In the records of waves addresses stand in two places, as the creators and as the participants of
wavelets.  Records are recased (`Wave.RecordsRecased`) if nothing but the case of ASCII letters
changes there; the definition follows the shapes in which records come, arrays of items
(`Json.ItemsRelated`) and fields by name or by position (`Json.FieldsRelated`).  Addresses are put
into lower case as they are read, so recased records are read as the same waves, or neither are read
(`Wave.RecordsRecased.listOfJson?_eq`).
-/

theorem Option.Rel.bind {α β γ δ : Type} {R : α → β → Prop} {S : γ → δ → Prop} {x : Option α}
    {y : Option β} {f : α → Option γ} {g : β → Option δ} (h : Option.Rel R x y)
    (hfg : ∀ a b, R a b → Option.Rel S (f a) (g b)) : Option.Rel S (x >>= f) (y >>= g) := by
  cases h with
  | none => exact .none
  | some hab => exact hfg _ _ hab

namespace WaveFinder

open Text

/-! ## Related values -/

namespace Json

variable {α : Type} {R : Json → Json → Prop} {S : String → Json → Json → Prop} {j k : Json}
  {js ks : List Json} {fs gs : List (Option String × Json)} {name : String} {names : List String}
  {least : Nat}

/-- Two values are the same, or they are arrays whose items are related one by one. -/
inductive ItemsRelated (R : Json → Json → Prop) : Json → Json → Prop
  | same {j : Json} : ItemsRelated R j j
  | list {js ks : List Json} : List.Forall₂ R js ks → ItemsRelated R (.list js) (.list ks)

/-- **A reader of arrays cannot tell them apart if the reader of their items cannot.** -/
theorem ItemsRelated.asList?_eq {item : Json → Option α} (h : ItemsRelated R j k)
    (hitem : ∀ j k, R j k → item j = item k) : j.asList? item = k.asList? item := by
  cases h with
  | same => rfl
  | list hs =>
    rw [asList?, asList?]
    induction hs with
    | nil => rfl
    | cons hjk _ ih => rw [List.mapM_cons, List.mapM_cons, hitem _ _ hjk, ih]

/-- Items are related by the names that belong to their positions, up to some position, and are the
same from there on. -/
inductive PositionsRelated (S : String → Json → Json → Prop) :
    List String → List Json → List Json → Prop
  | rest {names : List String} {js : List Json} : PositionsRelated S names js js
  | item {name : String} {names : List String} {j k : Json} {js ks : List Json} : S name j k →
      PositionsRelated S names js ks → PositionsRelated S (name :: names) (j :: js) (k :: ks)

/-- Two values are the same, or they are objects of the same names, or arrays, and the values are
related that stand under a name or at its position. -/
inductive FieldsRelated (names : List String) (S : String → Json → Json → Prop) :
    Json → Json → Prop
  | same {j : Json} : FieldsRelated names S j j
  | record {fs gs : List (Option String × Json)} :
      List.Forall₂ (fun f g => f.1 = g.1 ∧ ∀ name ∈ f.1, S name f.2 g.2) fs gs →
      FieldsRelated names S (.record fs) (.record gs)
  | list {js ks : List Json} : PositionsRelated S names js ks →
      FieldsRelated names S (.list js) (.list ks)

/-- What was found for some names is related by these names. -/
inductive FindsRelated (S : String → Json → Json → Prop) :
    List String → List (Option Json) → List (Option Json) → Prop
  | nil : FindsRelated S [] [] []
  | cons {name : String} {names : List String} {o p : Option Json} {os ps : List (Option Json)} :
      Option.Rel (S name) o p → FindsRelated S names os ps →
      FindsRelated S (name :: names) (o :: os) (p :: ps)

section Fields

theorem rel_refl (hS : ∀ name j, S name j j) (o : Option Json) : Option.Rel (S name) o o := by
  rcases o with _ | j
  · exact .none
  · exact .some (hS name j)

theorem FindsRelated.refl (hS : ∀ name j, S name j j) {os : List (Option Json)}
    (h : os.length = names.length) : FindsRelated S names os os := by
  induction names generalizing os with
  | nil =>
    rw [List.length_eq_zero_iff.1 h]
    exact .nil
  | cons name names ih =>
    obtain ⟨o, os, rfl⟩ := List.exists_cons_of_length_eq_add_one h
    exact .cons (rel_refl hS o) (ih (Nat.succ.inj h))

theorem PositionsRelated.length_eq (h : PositionsRelated S names js ks) :
    js.length = ks.length := by
  induction h with
  | rest => rfl
  | item _ _ ih => rw [List.length_cons, List.length_cons, ih]

/-- Related arrays give related values for the names. -/
theorem PositionsRelated.findsRelated (hS : ∀ name j, S name j j)
    (h : PositionsRelated S names js ks) (hlength : js.length ≤ names.length) :
    FindsRelated S names (js.map some ++ List.replicate (names.length - js.length) none)
      (ks.map some ++ List.replicate (names.length - ks.length) none) := by
  induction h with
  | rest => exact .refl hS (by simp; omega)
  | item hjk _ ih =>
    simp only [List.length_cons, Nat.add_sub_add_right, List.map_cons, List.cons_append]
    exact .cons (.some hjk) (ih (Nat.le_of_succ_le_succ hlength))

/-- Related objects have related values under a name. -/
theorem forall₂_valuesOf
    (h : List.Forall₂ (fun f g => f.1 = g.1 ∧ ∀ name ∈ f.1, S name f.2 g.2) fs gs)
    (name : String) : List.Forall₂ (S name) (valuesOf name fs) (valuesOf name gs) := by
  induction h with
  | nil => exact .nil
  | @cons f g fs gs hfg _ ih =>
    obtain ⟨hname, hvalue⟩ := hfg
    rw [valuesOf, valuesOf, List.filter_cons, List.filter_cons, ← hname]
    split
    · next hf => exact .cons (hvalue name (beq_iff_eq.1 hf)) ih
    · exact ih

theorem rel_fieldOnce?
    (h : List.Forall₂ (fun f g => f.1 = g.1 ∧ ∀ name ∈ f.1, S name f.2 g.2) fs gs)
    (name : String) :
    Option.Rel (Option.Rel (S name)) (fieldOnce? fs name) (fieldOnce? gs name) := by
  have hvalues := forall₂_valuesOf h name
  rw [fieldOnce?, fieldOnce?]
  generalize valuesOf name fs = js, valuesOf name gs = ks at hvalues
  rcases hvalues with _ | ⟨hjk, _ | _⟩
  · exact .some .none
  · exact .some (.some hjk)
  · exact .none

theorem rel_mapM_fieldOnce?
    (h : List.Forall₂ (fun f g => f.1 = g.1 ∧ ∀ name ∈ f.1, S name f.2 g.2) fs gs)
    (names : List String) :
    Option.Rel (FindsRelated S names) (names.mapM (fieldOnce? fs))
      (names.mapM (fieldOnce? gs)) := by
  induction names with
  | nil => exact .some .nil
  | cons name names ih =>
    rw [List.mapM_cons, List.mapM_cons]
    exact (rel_fieldOnce? h name).bind fun _ _ hop => ih.bind fun _ _ hrest =>
      .some (.cons hop hrest)

theorem rel_asFields?_record
    (h : List.Forall₂ (fun f g => f.1 = g.1 ∧ ∀ name ∈ f.1, S name f.2 g.2) fs gs) (least : Nat) :
    Option.Rel (FindsRelated S names) ((record fs).asFields? names least)
      ((record gs).asFields? names least) := by
  have hnames : (fs.any fun f => f.1.isNone) = gs.any fun g => g.1.isNone := by
    induction h with
    | nil => rfl
    | cons hfg _ ih => rw [List.any_cons, List.any_cons, hfg.1, ih]
  rw [asFields?, asFields?, hnames]
  split
  · exact .none
  · exact rel_mapM_fieldOnce? h names

theorem rel_asFields?_list (hS : ∀ name j, S name j j) (h : PositionsRelated S names js ks)
    (least : Nat) :
    Option.Rel (FindsRelated S names) ((list js).asFields? names least)
      ((list ks).asFields? names least) := by
  rw [asFields?, asFields?, ← h.length_eq]
  split
  · next hlength =>
    have hfinds := h.findsRelated hS hlength.2
    rw [← h.length_eq] at hfinds
    exact .some hfinds
  · exact .none

/-- **Related values give related values for the names**, or neither of them gives any. -/
theorem FieldsRelated.rel_asFields? (hS : ∀ name j, S name j j) (h : FieldsRelated names S j k)
    (least : Nat) :
    Option.Rel (FindsRelated S names) (j.asFields? names least) (k.asFields? names least) := by
  cases h with
  | same =>
    cases j with
    | record fs =>
      refine rel_asFields?_record (List.forall₂_same.2 fun f _ => ?_) least
      exact ⟨rfl, fun name _ => hS name f.2⟩
    | list js => exact rel_asFields?_list hS .rest least
    | null | bool | int | real | text => exact .none
  | record hs => exact rel_asFields?_record hs least
  | list hs => exact rel_asFields?_list hS hs least

/-- **A reader of fields cannot tell related values apart** if it cannot tell their fields apart. -/
theorem FieldsRelated.bind_asFields?_eq (hS : ∀ name j, S name j j)
    (h : FieldsRelated names S j k) {f : List (Option Json) → Option α}
    (hf : ∀ os ps, FindsRelated S names os ps → f os = f ps) :
    (j.asFields? names least >>= f) = k.asFields? names least >>= f := by
  have hrel := h.rel_asFields? hS least
  generalize j.asFields? names least = x, k.asFields? names least = y at hrel
  cases hrel with
  | none => rfl
  | some hfinds => exact hf _ _ hfinds

end Fields

end Json

/-! ## Addresses -/

/-- A record of an address is the same but for the case of ASCII letters. -/
inductive Address.RecordRecased : Json → Json → Prop
  | same {j : Json} : RecordRecased j j
  | text {s t : String} : Recased s.toList t.toList →
      RecordRecased (.text (some s)) (.text (some t))

theorem Address.read_eq_of_recased {s t : String} (h : Recased s.toList t.toList) :
    read s = read t := by
  rw [read, read, h.lower_eq]

theorem Address.RecordRecased.ofJson?_eq {j k : Json} (h : RecordRecased j k) :
    ofJson? j = ofJson? k := by
  cases h with
  | same => rfl
  | text hst =>
    rw [ofJson?, ofJson?, Json.asString?, Json.asString?, Option.bind_some, Option.bind_some,
      read_eq_of_recased hst]

/-! ## Waves -/

namespace Wavelet

/-- Of the fields of a wavelet the creator and the participants are recased. -/
def FieldRecased (name : String) : Json → Json → Prop :=
  if name = "creator" then Address.RecordRecased
  else if name = "participants" then Json.ItemsRelated Address.RecordRecased
  else Eq

/-- A record of a wavelet is the same but for the case of ASCII letters in its addresses. -/
def RecordRecased : Json → Json → Prop :=
  Json.FieldsRelated ["id", "creator", "creation_time", "last_modified_time", "participants"]
    FieldRecased

theorem FieldRecased.refl (name : String) (j : Json) : FieldRecased name j j := by
  rw [FieldRecased]
  split
  · exact .same
  · split
    · exact .same
    · rfl

theorem RecordRecased.ofJson?_eq {j k : Json} (h : RecordRecased j k) : ofJson? j = ofJson? k := by
  refine h.bind_asFields?_eq FieldRecased.refl fun os ps hfinds => ?_
  obtain _ | ⟨hid, _ | ⟨hcreator, _ | ⟨hcreated, _ | ⟨hmodified, _ | ⟨hparticipants, _ | _⟩⟩⟩⟩⟩ :=
    hfinds
  -- A field that has to be there is missing in both, or it is there in both.
  obtain rfl | _ := hid
  swap
  · rfl
  obtain hcreator | _ := hcreator
  swap
  · rfl
  obtain rfl | _ := hcreated
  swap
  · rfl
  obtain rfl | _ := hmodified
  swap
  · rfl
  have hauthor := Address.RecordRecased.ofJson?_eq hcreator
  obtain hparticipants | _ := hparticipants
  · have hpeople := Json.ItemsRelated.asList?_eq hparticipants
      fun _ _ => Address.RecordRecased.ofJson?_eq
    simp only [hauthor, hpeople]
  · simp only [hauthor]

end Wavelet

namespace Wave

/-- Of the fields of a wave the wavelets are recased. -/
def FieldRecased (name : String) : Json → Json → Prop :=
  if name = "wavelets" then Json.ItemsRelated Wavelet.RecordRecased else Eq

/-- A record of a wave is the same but for the case of ASCII letters in its addresses. -/
def RecordRecased : Json → Json → Prop :=
  Json.FieldsRelated ["id", "wavelets"] FieldRecased

/-- Records of waves are the same but for the case of ASCII letters in their addresses. -/
def RecordsRecased : Json → Json → Prop :=
  Json.ItemsRelated RecordRecased

theorem FieldRecased.refl (name : String) (j : Json) : FieldRecased name j j := by
  rw [FieldRecased]
  split
  · exact .same
  · rfl

theorem RecordRecased.ofJson?_eq {j k : Json} (h : RecordRecased j k) : ofJson? j = ofJson? k := by
  refine h.bind_asFields?_eq FieldRecased.refl fun os ps hfinds => ?_
  obtain _ | ⟨hid, _ | ⟨hwavelets, _ | _⟩⟩ := hfinds
  obtain rfl | _ := hid
  swap
  · rfl
  obtain hwavelets | _ := hwavelets
  · have hread := Json.ItemsRelated.asList?_eq hwavelets fun _ _ => Wavelet.RecordRecased.ofJson?_eq
    simp only [hread]
  · rfl

/-- **Recased records are read as the same waves**, or neither are read. -/
theorem RecordsRecased.listOfJson?_eq {j k : Json} (h : RecordsRecased j k) :
    listOfJson? j = listOfJson? k :=
  h.asList?_eq fun _ _ => RecordRecased.ofJson?_eq

end Wave

end WaveFinder
