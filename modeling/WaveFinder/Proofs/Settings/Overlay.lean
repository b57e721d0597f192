import WaveFinder.Settings.Tree

/-!
# Proofs/Settings/Overlay — what an overlay has at a path

    upper ──┐
            ├── overlay ──▸ at a path: upper's value laid over lower's
    lower ──┘

Where the way to a path leads through tables in both trees, whose names are distinct there
(`IsOpenAt`), the overlay has at its end what the two trees have there, one laid over the other
(`at?_overlay`); nothing beside the path has a say.  Whether a value is a text, and which, is then
decided by the uppermost layer that has a value at all (`textAt?_overlay`).  Where the way ends
early in the upper tree, all of the lower one is gone beyond that point: the way has to be open.
-/

namespace WaveFinder.Tree

variable {name : String} {path other : List String} {value t upper lower : Tree}
variable {es us ls : List (String × Tree)}

/-! ## Entries -/

theorem valueOf?_eq_none_iff : valueOf? name es = none ↔ name ∉ es.map Prod.fst := by
  induction es with
  | nil => simp [valueOf?]
  | cons e es ih =>
    rw [valueOf?]
    split
    · next h => simp [h]
    · next h => simp [ih, Ne.symm h]

theorem mem_of_valueOf?_eq_some (h : valueOf? name es = some t) : (name, t) ∈ es := by
  induction es with
  | nil => cases h
  | cons e es ih =>
    rw [valueOf?] at h
    split at h
    · next he =>
      cases h
      exact he ▸ List.mem_cons_self
    · exact List.mem_cons_of_mem _ (ih h)

/-- A name keeps its place; a new one comes last. -/
theorem map_fst_setValue (name : String) (value : Tree) (es : List (String × Tree)) :
    (setValue name value es).map Prod.fst
      = if name ∈ es.map Prod.fst then es.map Prod.fst else es.map Prod.fst ++ [name] := by
  induction es with
  | nil => rfl
  | cons e es ih =>
    rw [setValue]
    split
    · next h => simp [h]
    · next h =>
      rw [List.map_cons, ih]
      split <;> simp_all [Ne.symm h]

theorem nodup_map_fst_setValue (name : String) (value : Tree) (h : (es.map Prod.fst).Nodup) :
    ((setValue name value es).map Prod.fst).Nodup := by
  rw [map_fst_setValue]
  split
  · exact h
  · next hnew => exact List.nodup_append.2 ⟨h, by simp, by grind⟩

theorem nodup_map_fst_overlayEntries (us : List (String × Tree)) (h : (ls.map Prod.fst).Nodup) :
    ((overlayEntries us ls).map Prod.fst).Nodup := by
  induction us generalizing ls with
  | nil => exact h
  | cons u us ih => exact ih (nodup_map_fst_setValue _ _ h)

/-- Under a name an overlay has the values of both sides, one laid over the other. -/
theorem valueOf?_overlayEntries (name : String) (ls : List (String × Tree))
    (h : (us.map Prod.fst).Nodup) :
    valueOf? name (overlayEntries us ls)
      = Option.merge overlay (valueOf? name us) (valueOf? name ls) := by
  induction us generalizing ls with
  | nil => cases h : valueOf? name ls <;> simp [overlayEntries, valueOf?, h]
  | cons u us ih =>
    obtain ⟨hnew, h⟩ := List.nodup_cons.1 h
    rw [overlayEntries, ih _ h, valueOf?_setValue, valueOf?]
    by_cases hname : u.1 = name
    · subst hname
      rw [if_pos rfl, if_pos rfl, valueOf?_eq_none_iff.2 hnew]
      cases valueOf? u.1 ls <;> rfl
    · rw [if_neg (Ne.symm hname), if_neg hname]

/-- Whether a tree is a table. -/
def isTable : Tree → Bool
  | table _ => true
  | _ => false

theorem isTable_iff : t.isTable ↔ ∃ es, t = table es := by
  cases t <;> simp [isTable]

/-- Tables are merged, and nothing else is. -/
theorem overlay_eq_left (h : upper.isTable = false ∨ lower.isTable = false) :
    upper.overlay lower = upper := by
  cases upper with
  | table us =>
    cases lower with
    | table ls => cases h.elim id id
    | _ => rfl
  | _ => rfl

/-! ## Paths -/

@[simp]
theorem at?_singleton (name : String) (es : List (String × Tree)) :
    at? [name] (table es) = valueOf? name es := by
  rw [at?]
  cases valueOf? name es <;> rfl

theorem at?_cons (name : String) (path : List String) (t : Tree) :
    at? (name :: path) t = (at? [name] t).bind (at? path) := by
  cases t with
  | table es => rw [at?_singleton, at?]
  | _ => rfl

theorem at?_pair (h : at? [name] t = some (table es)) (inner : String) :
    at? [name, inner] t = valueOf? inner es := by
  rw [at?_cons, h, Option.bind_some, at?_singleton]

/-- The way to a path leads through tables, as far as it leads, and the names in them are
distinct. -/
def IsOpenAt : List String → Tree → Prop
  | [], _ => True
  | name :: path, table es =>
    (es.map Prod.fst).Nodup ∧ ∀ t, valueOf? name es = some t → IsOpenAt path t
  | _ :: _, _ => False

theorem IsOpenAt.exists_table (h : IsOpenAt (name :: path) t) :
    ∃ es, t = table es ∧ (es.map Prod.fst).Nodup
      ∧ ∀ t, valueOf? name es = some t → IsOpenAt path t := by
  match t, h with
  | table es, h => exact ⟨es, rfl, h⟩

/-- Beyond its first name an open way is open as well. -/
theorem IsOpenAt.of_at?_eq_some (h : IsOpenAt (name :: path) t) {sub : Tree}
    (hsub : at? [name] t = some sub) : IsOpenAt path sub := by
  obtain ⟨es, rfl, -, h⟩ := h.exists_table
  rw [at?_singleton] at hsub
  exact h sub hsub

theorem isOpenAt_table_nil (path : List String) : IsOpenAt path (table []) := by
  cases path with
  | nil => trivial
  | cons name path => exact ⟨List.nodup_nil, nofun⟩

theorem IsOpenAt.overlay (hu : IsOpenAt path upper) (hl : IsOpenAt path lower) :
    IsOpenAt path (upper.overlay lower) := by
  induction path generalizing upper lower with
  | nil => trivial
  | cons name path ih =>
    obtain ⟨us, rfl, hus, hu⟩ := hu.exists_table
    obtain ⟨ls, rfl, hls, hl⟩ := hl.exists_table
    refine ⟨nodup_map_fst_overlayEntries us hls, fun t ht => ?_⟩
    rw [valueOf?_overlayEntries name ls hus] at ht
    cases hu' : valueOf? name us with
    | none =>
      rw [hu', Option.merge_none_left] at ht
      exact hl t ht
    | some u =>
      cases hl' : valueOf? name ls with
      | none =>
        rw [hu', hl', Option.merge_none_right] at ht
        exact hu t (hu'.trans ht)
      | some l =>
        rw [hu', hl', Option.merge_some_some] at ht
        cases ht
        exact ih (hu u hu') (hl l hl')

/-- **At the end of an open way an overlay has what both trees have there**, one laid over the
other. -/
theorem at?_overlay (hu : IsOpenAt path upper) (hl : IsOpenAt path lower) :
    at? path (upper.overlay lower)
      = Option.merge Tree.overlay (at? path upper) (at? path lower) := by
  induction path generalizing upper lower with
  | nil => rfl
  | cons name path ih =>
    obtain ⟨us, rfl, hus, hu⟩ := hu.exists_table
    obtain ⟨ls, rfl, -, hl⟩ := hl.exists_table
    rw [Tree.overlay, at?, at?, at?, valueOf?_overlayEntries name ls hus]
    cases hu' : valueOf? name us with
    | none => simp only [Option.merge_none_left, Option.bind_none]
    | some u =>
      cases hl' : valueOf? name ls with
      | none => simp only [Option.merge_none_right, Option.bind_none, Option.bind_some]
      | some l =>
        simp only [Option.merge_some_some, Option.bind_some]
        exact ih (hu u hu') (hl l hl')

theorem at?_ofPath_self (path : List String) (value : Tree) :
    at? path (ofPath path value) = some value := by
  induction path with
  | nil => rfl
  | cons name path ih =>
    rw [ofPath, List.foldr_cons, at?, valueOf?, if_pos rfl]
    exact ih

/-- A single value leaves every path open that does not lead beyond it. -/
theorem isOpenAt_ofPath (value : Tree) (h : path <+: other → other = path) :
    IsOpenAt other (ofPath path value) := by
  induction other generalizing path with
  | nil => trivial
  | cons name other ih =>
    cases path with
    | nil => cases h List.nil_prefix
    | cons first path =>
      refine ⟨List.pairwise_singleton _ _, fun t ht => ?_⟩
      rw [valueOf?] at ht
      split at ht
      · next hname =>
        cases ht
        subst hname
        exact ih fun hp => (List.cons.inj (h ((List.prefix_cons_inj _).2 hp))).2
      · cases ht

theorem at?_ofPath_of_not_prefix (value : Tree) (h : ¬ path <+: other) (h' : ¬ other <+: path) :
    at? other (ofPath path value) = none := by
  induction path generalizing other with
  | nil => exact absurd List.nil_prefix h
  | cons first path ih =>
    cases other with
    | nil => exact absurd List.nil_prefix h'
    | cons name other =>
      rw [ofPath, List.foldr_cons, at?, valueOf?]
      split
      · next hname =>
        subst hname
        exact ih (fun hp => h ((List.prefix_cons_inj _).2 hp))
          fun hp => h' ((List.prefix_cons_inj _).2 hp)
      · rfl

/-! ## Texts -/

/-- The text that a value is. -/
def text? : Tree → Option String
  | text s => some s
  | _ => none

/-- What the value at a path is as a text, if there is a value. -/
def textAt? (path : List String) (t : Tree) : Option (Option String) :=
  (at? path t).map text?

theorem text?_eq_some_iff {s : String} : t.text? = some s ↔ t = text s := by
  cases t <;> simp [text?]

/-- Texts are told apart by what they are as texts. -/
theorem map_text?_eq_map_some_iff {v : Option String} {t : Option Tree} :
    t.map text? = v.map some ↔ t = v.map text := by
  cases t <;> cases v <;> simp [text?_eq_some_iff]

@[simp]
theorem text?_overlay (upper lower : Tree) : (upper.overlay lower).text? = upper.text? := by
  cases upper <;> cases lower <;> simp [overlay, text?]

/-- **At the end of an open way the upper tree decides, if it has a value there.** -/
theorem textAt?_overlay (hu : IsOpenAt path upper) (hl : IsOpenAt path lower) :
    textAt? path (upper.overlay lower) = (textAt? path upper).or (textAt? path lower) := by
  rw [textAt?, at?_overlay hu hl, textAt?, textAt?]
  cases at? path upper <;> cases at? path lower <;> simp

end WaveFinder.Tree
