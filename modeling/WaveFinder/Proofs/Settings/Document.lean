import WaveFinder.Proofs.Settings.Overlay
import WaveFinder.Settings.Toml.Reader

/-!
# Proofs/Settings/Document — a document that can be read defines nothing twice

    lines ──readStatement?──▸ definitions ──build?──▸ nodes ──toTree──▸ a tree

No two entries of a table have one name, at whatever depth (`Tree.HasDistinctNames`).  Everything
that a definition changes is changed by `Entries.set`, which keeps the name that is there or adds a
new one; so all tables have distinct names after every definition, however they came about, and with
them the tree that is read (`hasDistinctNames_of_read?_eq_some`).
-/

namespace WaveFinder

/-- The names are distinct in every table of a tree. -/
inductive Tree.HasDistinctNames : Tree → Prop
  | text (s : String) : (Tree.text s).HasDistinctNames
  | scalar : Tree.scalar.HasDistinctNames
  | list {items : List Tree} : (∀ t ∈ items, t.HasDistinctNames) →
    (Tree.list items).HasDistinctNames
  | table {es : List (String × Tree)} : (es.map Prod.fst).Nodup →
    (∀ e ∈ es, e.2.HasDistinctNames) → (Tree.table es).HasDistinctNames

namespace Tree

theorem hasDistinctNames_table_nil : (table []).HasDistinctNames :=
  .table List.nodup_nil nofun

variable {t : Tree}

theorem isOpenAt_singleton (h : t.HasDistinctNames) (ht : t.isTable) (name : String) :
    IsOpenAt [name] t := by
  cases h with
  | table hnames _ => exact ⟨hnames, fun _ _ => trivial⟩
  | _ => cases ht

/-- The way into a table is open if it leads to a table, or nowhere. -/
theorem isOpenAt_pair (h : t.HasDistinctNames) (ht : t.isTable) {name : String}
    (hname : ∀ sub, at? [name] t = some sub → sub.isTable) (inner : String) :
    IsOpenAt [name, inner] t := by
  cases h with
  | table hnames hes =>
    refine ⟨hnames, fun sub hsub => ?_⟩
    exact isOpenAt_singleton (hes _ (mem_of_valueOf?_eq_some hsub))
      (hname sub (by rw [at?_singleton]; exact hsub)) inner
  | _ => cases ht

end Tree

namespace Toml

/-! ## Nodes -/

/-- The names are distinct in every table of a node. -/
inductive Node.HasDistinctNames : Node → Prop
  | value {t : Tree} : t.HasDistinctNames → (Node.value t).HasDistinctNames
  | table (origin : Origin) {es : Entries} : (es.map Prod.fst).Nodup →
    (∀ e ∈ es, e.2.HasDistinctNames) → (Node.table origin es).HasDistinctNames
  | tables {items : List Entries} : (∀ es ∈ items, (es.map Prod.fst).Nodup) →
    (∀ es ∈ items, ∀ e ∈ es, e.2.HasDistinctNames) → (Node.tables items).HasDistinctNames

theorem entriesToTree_eq_map (es : Entries) :
    entriesToTree es = es.map fun e => (e.1, e.2.toTree) := by
  induction es with
  | nil => rfl
  | cons e es ih => rw [entriesToTree, ih, List.map_cons]

theorem itemsToTree_eq_map (items : List Entries) :
    itemsToTree items = items.map fun es => .table (entriesToTree es) := by
  induction items with
  | nil => rfl
  | cons es items ih => rw [itemsToTree, ih, List.map_cons]

theorem map_fst_entriesToTree (es : Entries) :
    (entriesToTree es).map Prod.fst = es.map Prod.fst := by
  rw [entriesToTree_eq_map, List.map_map]
  rfl

theorem Node.HasDistinctNames.toTree {node : Node} (h : node.HasDistinctNames) :
    node.toTree.HasDistinctNames := by
  have htable : ∀ es : Entries, (es.map Prod.fst).Nodup →
      (∀ e ∈ es, e.2.toTree.HasDistinctNames) →
      (Tree.table (entriesToTree es)).HasDistinctNames := by
    intro es hnames hes
    refine .table (by rwa [map_fst_entriesToTree]) fun e he => ?_
    rw [entriesToTree_eq_map] at he
    obtain ⟨e', he', rfl⟩ := List.mem_map.1 he
    exact hes e' he'
  induction h with
  | value h =>
    rw [Node.toTree]
    exact h
  | table _ hnames _ ih =>
    rw [Node.toTree]
    exact htable _ hnames ih
  | tables hnames _ ih =>
    rw [Node.toTree]
    refine .list fun t ht => ?_
    rw [itemsToTree_eq_map, List.mem_reverse] at ht
    obtain ⟨es, hes, rfl⟩ := List.mem_map.1 ht
    exact htable es (hnames es hes) (ih es hes)

namespace Entries

variable {name : String} {path : List String} {node : Node} {es es' : Entries}

/-- The entries have distinct names, and so do all tables in them. -/
def AreDistinct (es : Entries) : Prop :=
  (es.map Prod.fst).Nodup ∧ ∀ e ∈ es, e.2.HasDistinctNames

theorem areDistinct_nil : AreDistinct [] :=
  ⟨List.nodup_nil, nofun⟩

theorem AreDistinct.table (h : AreDistinct es) (origin : Origin) :
    (Node.table origin es).HasDistinctNames :=
  .table origin h.1 h.2

theorem areDistinct_of_table {origin : Origin} (h : (Node.table origin es).HasDistinctNames) :
    AreDistinct es := by
  cases h with
  | table _ hnames hes => exact ⟨hnames, hes⟩

theorem hasDistinctNames_tables_iff {items : List Entries} :
    (Node.tables items).HasDistinctNames ↔ ∀ es ∈ items, AreDistinct es := by
  constructor
  · intro h es hes
    cases h with
    | tables hnames hall => exact ⟨hnames es hes, hall es hes⟩
  · exact fun h => .tables (fun es hes => (h es hes).1) fun es hes => (h es hes).2

theorem AreDistinct.of_get? (h : AreDistinct es) (hget : get? name es = some node) :
    node.HasDistinctNames := by
  induction es with
  | nil => cases hget
  | cons e es ih =>
    obtain ⟨hnames, hall⟩ := h
    rw [get?] at hget
    split at hget
    · cases hget
      exact hall e List.mem_cons_self
    · exact ih ⟨hnames.of_cons, fun e he => hall e (List.mem_cons_of_mem _ he)⟩ hget

theorem mem_of_mem_set {e : String × Node} (h : e ∈ set name node es) :
    e = (name, node) ∨ e ∈ es := by
  induction es with
  | nil => exact .inl (List.mem_singleton.1 h)
  | cons first es ih =>
    rw [set] at h
    split at h
    · exact (List.mem_cons.1 h).imp_right (List.mem_cons_of_mem _)
    · obtain rfl | h := List.mem_cons.1 h
      · exact .inr List.mem_cons_self
      · exact (ih h).imp_right (List.mem_cons_of_mem _)

theorem entriesToTree_set (name : String) (node : Node) (es : Entries) :
    entriesToTree (set name node es) = Tree.setValue name node.toTree (entriesToTree es) := by
  induction es with
  | nil => rfl
  | cons e es ih =>
    rw [set, entriesToTree, Tree.setValue]
    split
    · rw [entriesToTree]
    · rw [entriesToTree, ih]

theorem AreDistinct.set (h : AreDistinct es) (hnode : node.HasDistinctNames) :
    AreDistinct (set name node es) := by
  refine ⟨?_, fun e he => ?_⟩
  · rw [← map_fst_entriesToTree, entriesToTree_set]
    exact Tree.nodup_map_fst_setValue _ _ (by rw [map_fst_entriesToTree]; exact h.1)
  · obtain rfl | he := mem_of_mem_set he
    · exact hnode
    · exact h.2 e he

theorem AreDistinct.set_table (h : AreDistinct es) {sub : Entries} (hsub : AreDistinct sub)
    (origin : Origin) : AreDistinct (Entries.set name (.table origin sub) es) :=
  h.set (hsub.table origin)

theorem AreDistinct.set_tables (h : AreDistinct es) {sub : Entries} {items : List Entries}
    (hsub : AreDistinct sub) (hitems : ∀ es ∈ items, AreDistinct es) :
    AreDistinct (Entries.set name (.tables (sub :: items)) es) :=
  h.set (hasDistinctNames_tables_iff.2 (List.forall_mem_cons.2 ⟨hsub, hitems⟩))

theorem AreDistinct.define? (h : AreDistinct es) (hnode : node.HasDistinctNames)
    (hdef : Entries.define? path node es = some es') : AreDistinct es' := by
  fun_induction Entries.define? path node es generalizing es' with
  | case1 => cases hdef
  | case2 => cases hdef
  | case3 node es name hnew =>
    cases hdef
    exact h.set hnode
  | case4 node es name next path hget ih =>
    obtain ⟨sub, hsub, rfl⟩ := Option.map_eq_some_iff.1 hdef
    exact h.set_table (ih areDistinct_nil hnode hsub) .dotted
  | case5 => cases hdef
  | case6 node es name next path origin sub hget hopen ih =>
    obtain ⟨sub', hsub, rfl⟩ := Option.map_eq_some_iff.1 hdef
    exact h.set_table (ih (areDistinct_of_table (h.of_get? hget)) hnode hsub) origin
  | case7 => cases hdef
  | case8 node es name next path sub items hget hopen ih =>
    have hitems := List.forall_mem_cons.1 (hasDistinctNames_tables_iff.1 (h.of_get? hget))
    obtain ⟨sub', hsub, rfl⟩ := Option.map_eq_some_iff.1 hdef
    exact h.set_tables (ih hitems.1 hnode hsub) hitems.2
  | case9 => cases hdef

/-- What a header does to the table that it leads to, it does to the entries. -/
theorem AreDistinct.atHeader? {f : Entries → Option Entries} (h : AreDistinct es)
    (hf : ∀ es es', AreDistinct es → f es = some es' → AreDistinct es')
    (hat : atHeader? f path es = some es') : AreDistinct es' := by
  fun_induction Entries.atHeader? f path es generalizing es' with
  | case1 es => exact hf es es' h hat
  | case2 es name path hget ih =>
    obtain ⟨sub, hsub, rfl⟩ := Option.map_eq_some_iff.1 hat
    exact h.set_table (ih areDistinct_nil hsub) .implied
  | case3 es name path origin sub hget ih =>
    obtain ⟨sub', hsub, rfl⟩ := Option.map_eq_some_iff.1 hat
    exact h.set_table (ih (areDistinct_of_table (h.of_get? hget)) hsub) origin
  | case4 es name path sub items hget ih =>
    have hitems := List.forall_mem_cons.1 (hasDistinctNames_tables_iff.1 (h.of_get? hget))
    obtain ⟨sub', hsub, rfl⟩ := Option.map_eq_some_iff.1 hat
    exact h.set_tables (ih hitems.1 hsub) hitems.2
  | case5 => cases hat

theorem AreDistinct.openTable? (h : AreDistinct es) (hopen : openTable? name es = some es') :
    AreDistinct es' := by
  rw [Entries.openTable?] at hopen
  split at hopen
  · cases hopen
    exact h.set_table areDistinct_nil .header
  · next hget =>
    cases hopen
    exact h.set_table (areDistinct_of_table (h.of_get? hget)) .header
  · cases hopen

theorem AreDistinct.openItem? (h : AreDistinct es) (hopen : openItem? name es = some es') :
    AreDistinct es' := by
  rw [Entries.openItem?] at hopen
  split at hopen
  · cases hopen
    exact h.set_tables areDistinct_nil nofun
  · next hget =>
    cases hopen
    exact h.set_tables areDistinct_nil (hasDistinctNames_tables_iff.1 (h.of_get? hget))
  · cases hopen

end Entries

/-! ## Definitions -/

/-- The value of a definition, if it has one, has distinct names. -/
def Statement.HasDistinctNames : Statement → Prop
  | .pair _ value => value.HasDistinctNames
  | _ => True

/-- No definition makes a name stand twice. -/
theorem areDistinct_of_build?_eq_some {here : List String} {es es' : Entries}
    {statements : List Statement} (h : es.AreDistinct)
    (hstatements : ∀ s ∈ statements, s.HasDistinctNames)
    (hbuild : build? here es statements = some es') : es'.AreDistinct := by
  induction statements generalizing here es with
  | nil =>
    cases hbuild
    exact h
  | cons s statements ih =>
    obtain ⟨hs, hrest⟩ := List.forall_mem_cons.1 hstatements
    cases s with
    | table path name =>
      obtain ⟨sub, hsub, hbuild⟩ := Option.bind_eq_some_iff.1 hbuild
      exact ih (h.atHeader? (fun _ _ h hopen => h.openTable? hopen) hsub) hrest hbuild
    | item path name =>
      obtain ⟨sub, hsub, hbuild⟩ := Option.bind_eq_some_iff.1 hbuild
      exact ih (h.atHeader? (fun _ _ h hopen => h.openItem? hopen) hsub) hrest hbuild
    | pair path value =>
      obtain ⟨sub, hsub, hbuild⟩ := Option.bind_eq_some_iff.1 hbuild
      exact ih (h.atHeader? (fun _ _ h hdef => h.define? (.value hs) hdef) hsub) hrest hbuild

/-! ## Reading -/

theorem hasDistinctNames_of_ofWord?_eq_some {cs : List Char} {t : Tree}
    (h : ofWord? cs = some t) : t.HasDistinctNames := by
  rw [ofWord?] at h
  split at h
  · cases h
    exact .scalar
  · split at h
    · cases h
      exact .scalar
    · split at h
      · cases h
        exact Tree.hasDistinctNames_table_nil
      · cases h

theorem hasDistinctNames_of_readWord?_eq_some {cs rest : List Char} {t : Tree}
    (h : readWord? cs = some (t, rest)) : t.HasDistinctNames := by
  have hword : ∀ {word more : List Char},
      (ofWord? word).map (fun t => (t, more)) = some (t, rest) → t.HasDistinctNames := by
    intro word more h
    obtain ⟨t', ht, h⟩ := Option.map_eq_some_iff.1 h
    cases h
    exact hasDistinctNames_of_ofWord?_eq_some ht
  rw [readWord?] at h
  split at h
  · split at h
    · exact hword h
    · exact hword h
  · exact hword h

/-- Values, items and entries are read with `n` steps of one fuel, so the three claims go together
by induction on it. -/
theorem hasDistinctNames_of_read (n : Nat) :
    (∀ {depth cs t rest}, readValue? n depth cs = some (t, rest) → t.HasDistinctNames)
      ∧ (∀ {depth cs ts rest}, readItems? n depth cs = some (ts, rest) →
        ∀ t ∈ ts, t.HasDistinctNames)
      ∧ ∀ {depth es cs es' rest}, readPairs? n depth es cs = some (es', rest) →
        es.AreDistinct → es'.AreDistinct := by
  induction n with
  | zero => exact ⟨nofun, nofun, nofun⟩
  | succ n ih =>
    obtain ⟨ihValue, ihItems, ihPairs⟩ := ih
    refine ⟨fun {depth cs t rest} h => ?_, fun {depth cs ts rest} h => ?_,
      fun {depth es cs es' rest} h hes => ?_⟩
    · unfold readValue? at h
      split at h
      · obtain ⟨⟨ts, rest⟩, hts, h⟩ := Option.map_eq_some_iff.1 h
        cases h
        exact .list (ihItems hts)
      · split at h
        · cases h
          exact Tree.hasDistinctNames_table_nil
        · obtain ⟨⟨es, rest⟩, hes, h⟩ := Option.map_eq_some_iff.1 h
          cases h
          exact ((ihPairs hes Entries.areDistinct_nil).table .dotted).toTree
      · obtain ⟨_, -, h⟩ := Option.map_eq_some_iff.1 h
        cases h
        exact .text _
      · obtain ⟨_, -, h⟩ := Option.map_eq_some_iff.1 h
        cases h
        exact .text _
      · exact hasDistinctNames_of_readWord?_eq_some h
    · unfold readItems? at h
      split at h
      · cases h
      · cases h
        exact nofun
      · split at h
        · cases h
        · next t rest ht =>
          split at h
          · obtain ⟨⟨ts, rest⟩, hts, h⟩ := Option.map_eq_some_iff.1 h
            cases h
            exact List.forall_mem_cons.2 ⟨ihValue ht, ihItems hts⟩
          · cases h
            exact List.forall_mem_singleton.2 (ihValue ht)
          · cases h
    · unfold readPairs? at h
      split at h
      · split at h
        · cases h
        · next t rest ht =>
          split at h
          · cases h
          · next sub hsub =>
            have hsub := hes.define? (.value (ihValue ht)) hsub
            split at h
            · exact ihPairs h hsub
            · cases h
              exact hsub
            · cases h
      · cases h

theorem hasDistinctNames_of_readStatement?_eq_some {cs rest : List Char} {s : Statement}
    (h : readStatement? cs = some (s, rest)) : s.HasDistinctNames := by
  unfold readStatement? at h
  split at h
  · split at h
    · obtain ⟨_, -, h⟩ := Option.bind_eq_some_iff.1 h
      obtain ⟨_, -, h⟩ := Option.bind_eq_some_iff.1 h
      cases h
      trivial
    · cases h
  · split at h
    · obtain ⟨_, -, h⟩ := Option.bind_eq_some_iff.1 h
      obtain ⟨_, -, h⟩ := Option.bind_eq_some_iff.1 h
      cases h
      trivial
    · cases h
  · split at h
    · obtain ⟨⟨t, _⟩, ht, h⟩ := Option.bind_eq_some_iff.1 h
      obtain ⟨_, -, h⟩ := Option.bind_eq_some_iff.1 h
      cases h
      exact (hasDistinctNames_of_read _).1 ht
    · cases h

theorem hasDistinctNames_of_readStatements?_eq_some {n : Nat} {cs : List Char}
    {statements : List Statement} (h : readStatements? n cs = some statements) :
    ∀ s ∈ statements, s.HasDistinctNames := by
  induction n generalizing cs statements with
  | zero => cases h
  | succ n ih =>
    obtain ⟨cs, -, h⟩ := Option.bind_eq_some_iff.1 h
    split at h
    · cases h
      exact nofun
    · obtain ⟨⟨s, rest⟩, hs, h⟩ := Option.bind_eq_some_iff.1 h
      obtain ⟨more, hmore, h⟩ := Option.bind_eq_some_iff.1 h
      cases h
      exact List.forall_mem_cons.2 ⟨hasDistinctNames_of_readStatement?_eq_some hs, ih hmore⟩

/-- **What is read is a table, and no name stands in a table of it twice.** -/
theorem hasDistinctNames_of_read?_eq_some {s : String} {t : Tree} (h : read? s = some t) :
    t.HasDistinctNames ∧ t.isTable := by
  obtain ⟨statements, hstatements, h⟩ := Option.bind_eq_some_iff.1 h
  obtain ⟨es, hes, h⟩ := Option.bind_eq_some_iff.1 h
  cases h
  have hes : es.AreDistinct := areDistinct_of_build?_eq_some Entries.areDistinct_nil
    (hasDistinctNames_of_readStatements?_eq_some hstatements) hes
  exact ⟨(hes.table .header).toTree, rfl⟩

end Toml

end WaveFinder
