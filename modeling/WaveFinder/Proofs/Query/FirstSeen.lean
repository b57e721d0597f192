import WaveFinder.Query.Basic

/-!
# Proofs/Query/FirstSeen — what a query holds after some pairs of a key and a value

Adding values one at a time, each unless it is there, leaves them in the order in which they first
came (`foldl_addNew`).  So a query into which pairs are put holds under each key the values that the
pairs give for it, later repeats removed (`values_insertAll_empty`); and a query is made again by
putting in what it holds (`insertAll_pairs`).
-/

namespace WaveFinder

/-- The values that stay when new ones come after others: the new ones that are not among the
others, each once. -/
theorem foldl_addNew (vs ws : List String) :
    ws.foldl (fun acc w => addNew w acc) vs
      = vs ++ (ws.filter fun w => !vs.contains w).eraseDups := by
  induction ws generalizing vs with
  | nil => simp
  | cons w ws ih =>
    rw [List.foldl_cons, ih]
    by_cases hw : w ∈ vs
    · rw [addNew, if_pos hw, List.filter_cons_of_neg (by simpa using hw)]
    · have hadd : addNew w vs = vs ++ [w] := if_neg hw
      have hfilter : (ws.filter fun u => !(vs ++ [w]).contains u)
          = (ws.filter fun u => !vs.contains u).filter fun u => !u == w := by
        rw [List.filter_filter]
        refine List.filter_congr fun u _ => ?_
        simp [Bool.and_comm, Bool.beq_eq_decide_eq]
      rw [hadd, hfilter, List.filter_cons_of_pos (by simpa using hw), List.eraseDups_cons,
        List.append_assoc, List.singleton_append]

theorem eraseDups_eq_foldl_addNew (ws : List String) :
    ws.eraseDups = ws.foldl (fun acc w => addNew w acc) [] := by
  rw [foldl_addNew, List.nil_append, List.filter_eq_self.2 (by simp)]

theorem nodup_foldl_addNew {vs : List String} (ws : List String) (h : vs.Nodup) :
    (ws.foldl (fun acc w => addNew w acc) vs).Nodup := by
  induction ws generalizing vs with
  | nil => exact h
  | cons w ws ih => exact ih (nodup_addNew h)

theorem nodup_eraseDups (ws : List String) : ws.eraseDups.Nodup := by
  rw [eraseDups_eq_foldl_addNew]
  exact nodup_foldl_addNew ws List.nodup_nil

theorem eraseDups_of_nodup {ws : List String} (h : ws.Nodup) : ws.eraseDups = ws := by
  induction ws with
  | nil => rfl
  | cons w ws ih =>
    obtain ⟨hw, hws⟩ := List.nodup_cons.1 h
    have hfilter : (ws.filter fun u => !u == w) = ws := by
      refine List.filter_eq_self.2 fun u hu => ?_
      have hne : u ≠ w := fun e => hw (e ▸ hu)
      simpa using hne
    rw [List.eraseDups_cons, hfilter, ih hws]

/-- Names that are told apart come in the order in which what they name comes. -/
theorem eraseDups_map_of_injective {α : Type} [DecidableEq α] {name : α → String}
    (hname : Function.Injective name) (as : List α) :
    (as.map name).eraseDups = as.eraseDups.map name := by
  have hlater : ∀ a (bs : List α), (bs.map name).filter (fun v => !v == name a)
      = (bs.filter fun b => !b == a).map name := by
    intro a bs
    rw [List.filter_map]
    refine congrArg (List.map name) (List.filter_congr fun b _ => congrArg not ?_)
    rw [Bool.eq_iff_iff, beq_iff_eq, beq_iff_eq, hname.eq_iff]
  -- What comes after a member is the list without its repeats, so the induction is on the length.
  induction h : as.length using Nat.strongRecOn generalizing as with
  | _ n ih =>
    rcases as with _ | ⟨a, as⟩
    · rfl
    · have hlt : (as.filter fun b => !b == a).length < n := by
        have := List.length_filter_le (fun b => !b == a) as
        rw [List.length_cons] at h
        omega
      rw [List.map_cons, List.eraseDups_cons, List.eraseDups_cons, List.map_cons, hlater,
        ih _ hlt _ rfl]

namespace Query

/-! ## Pairs of a key and a value -/

/-- The values that pairs give for a key. -/
def given (k : Key) (ps : List (Key × String)) : List String :=
  (ps.filter fun p => p.1 == k).map Prod.snd

/-- Puts pairs into a query, one after the other. -/
def insertAll (q : Query) (ps : List (Key × String)) : Query :=
  ps.foldl (fun q p => q.insert p.1 p.2) q

@[simp] theorem given_nil (k : Key) : given k [] = [] := rfl

@[simp] theorem given_cons_self (k : Key) (v : String) (ps : List (Key × String)) :
    given k ((k, v) :: ps) = v :: given k ps := by
  simp [given]

theorem given_cons_of_ne {j k : Key} (h : j ≠ k) (v : String) (ps : List (Key × String)) :
    given k ((j, v) :: ps) = given k ps := by
  simp [given, h]

theorem given_append (k : Key) (ps qs : List (Key × String)) :
    given k (ps ++ qs) = given k ps ++ given k qs := by
  simp [given]

theorem mem_given {k : Key} {v : String} {ps : List (Key × String)} :
    v ∈ given k ps ↔ (k, v) ∈ ps := by
  simp [given]

/-- Values that are changed key by key are given for the same keys. -/
theorem given_map (k : Key) (f : Key → String → String) (ps : List (Key × String)) :
    given k (ps.map fun p => (p.1, f p.1 p.2)) = (given k ps).map (f k) := by
  induction ps with
  | nil => rfl
  | cons p ps ih =>
    obtain ⟨j, v⟩ := p
    by_cases h : j = k
    · subst h
      rw [List.map_cons, given_cons_self, given_cons_self, List.map_cons, ih]
    · rw [List.map_cons, given_cons_of_ne h, given_cons_of_ne h, ih]

@[simp] theorem insertAll_nil (q : Query) : q.insertAll [] = q := rfl

@[simp] theorem insertAll_cons (q : Query) (p : Key × String) (ps : List (Key × String)) :
    q.insertAll (p :: ps) = (q.insert p.1 p.2).insertAll ps := rfl

theorem values_insertAll (q : Query) (ps : List (Key × String)) (k : Key) :
    (q.insertAll ps).values k = (given k ps).foldl (fun acc w => addNew w acc) (q.values k) := by
  induction ps generalizing q with
  | nil => rfl
  | cons p ps ih =>
    obtain ⟨j, v⟩ := p
    rw [insertAll_cons, ih, values_insert]
    by_cases h : k = j
    · subst h
      rw [if_pos rfl, given_cons_self, List.foldl_cons]
    · rw [if_neg h, given_cons_of_ne (Ne.symm h)]

/-- **A query holds what was put into it**: under each key the values given for it, in the order in
which they first came and without later repeats. -/
theorem values_insertAll_empty (ps : List (Key × String)) (k : Key) :
    (empty.insertAll ps).values k = (given k ps).eraseDups := by
  rw [values_insertAll, values_empty, eraseDups_eq_foldl_addNew]

theorem first?_insertAll_empty (ps : List (Key × String)) (k : Key) :
    (empty.insertAll ps).first? k = (given k ps).head? := by
  rw [first?, values_insertAll_empty]
  rcases given k ps with _ | ⟨v, vs⟩
  · rfl
  · rw [List.eraseDups_cons, List.head?_cons, List.head?_cons]

/-! ## The pairs of a query -/

/-- The pairs of a query, key by key. -/
def pairs (q : Query) : List (Key × String) :=
  q.entries.flatMap fun e => e.2.map fun v => (e.1, v)

theorem given_map_pair (j k : Key) (vs : List String) :
    given k (vs.map fun v => (j, v)) = if j = k then vs else [] := by
  by_cases h : j = k
  · subst h
    simp [given, List.filter_map, Function.comp_def]
  · simp [given, List.filter_map, Function.comp_def, h]

/-- Pairs that come key by key give for a key what comes under it. -/
theorem given_flatMap (k : Key) (vs : Key → List String) {ks : List Key} (h : ks.Nodup) :
    given k (ks.flatMap fun j => (vs j).map fun v => (j, v)) = if k ∈ ks then vs k else [] := by
  induction ks with
  | nil => rfl
  | cons j ks ih =>
    obtain ⟨hj, hks⟩ := List.nodup_cons.1 h
    rw [List.flatMap_cons, given_append, given_map_pair, ih hks]
    by_cases hjk : j = k
    · subst hjk
      simp [hj]
    · simp [hjk, Ne.symm hjk]

theorem pairs_eq_flatMap (q : Query) :
    q.pairs = q.keys.flatMap fun j => (q.values j).map fun v => (j, v) := by
  simp only [pairs, entries, List.flatMap_map]

/-- A key without values adds no pair, so all the keys may be gone through. -/
theorem pairs_eq_flatMap_all (q : Query) :
    q.pairs = Key.all.flatMap fun j => (q.values j).map fun v => (j, v) := by
  rw [pairs_eq_flatMap, keys]
  induction Key.all with
  | nil => rfl
  | cons j ks ih =>
    rcases hj : q.has j with _ | _
    · have hempty : q.values j = [] := by simpa [has] using hj
      rw [List.filter_cons_of_neg (by rw [hj]; decide), List.flatMap_cons, ih, hempty]
      rfl
    · rw [List.filter_cons_of_pos hj, List.flatMap_cons, List.flatMap_cons, ih]

@[simp] theorem given_pairs (q : Query) (k : Key) : given k q.pairs = q.values k := by
  have hnodup : q.keys.Nodup := List.Pairwise.filter _ (by decide : Key.all.Nodup)
  rw [pairs_eq_flatMap, given_flatMap k q.values hnodup]
  by_cases hk : k ∈ q.keys
  · exact if_pos hk
  · have hempty : q.values k = [] := by
      simpa [keys, has, Key.mem_all] using hk
    rw [if_neg hk, hempty]

theorem mem_pairs {q : Query} {k : Key} {v : String} : (k, v) ∈ q.pairs ↔ v ∈ q.values k := by
  rw [← mem_given, given_pairs]

/-- **A query whose values are distinct is made again by putting in its pairs.** -/
theorem insertAll_pairs {q : Query} (h : ∀ k, (q.values k).Nodup) :
    empty.insertAll q.pairs = q := by
  refine ext_values fun k => ?_
  rw [values_insertAll_empty, given_pairs, eraseDups_of_nodup (h k)]

end Query

end WaveFinder
