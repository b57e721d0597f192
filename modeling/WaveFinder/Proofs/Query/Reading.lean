import WaveFinder.Proofs.Pointwise
import WaveFinder.Proofs.Query.FirstSeen
import WaveFinder.Proofs.Query.Token

/-!
# Proofs/Query/Reading — a text is read token by token

    token ──Says──▸ key, value ──Keeps──▸ value to keep

`Keeps` is what checking does to a value on its own; the one thing that depends on the tokens before
is the date field, of which a query has room for one.  Accepting one token is inverted once
(`accept_eq_ok_iff`), and from it follows what a whole text comes to (`parse_eq_ok_iff`): each
token tells a pair, the date fields among them agree, and the query holds the pairs.
-/

namespace WaveFinder.Query

open Text

variable {c : Clock}

/-! ## One value -/

/-- The value that is kept for one that is given under a key; a value that does not fit its key is
not kept in any form. -/
def Keeps (c : Clock) (k : Key) (v w : String) : Prop :=
  match k with
  | .order => w = v ∧ ∃ o : SortKey, o.token = v
  | .dateField => w = v ∧ ∃ f : DateField, f.token = v
  | .firstDay | .lastDay =>
    ∃ t, c.readDay? v.toList = some t ∧ w = String.ofList (Numeral.ofInt t)
  | .folder | .person | .creator | .id | .tag => w = v

/-- Whether a query has room for a value under a key: a second date field is no new one. -/
def HasRoom (q : Query) (k : Key) (v : String) : Prop :=
  k = .dateField → ∀ u ∈ q.first? .dateField, u = v

theorem isSome_ofToken?_order {v : String} :
    (SortKey.ofToken? v).isSome = true ↔ ∃ o : SortKey, o.token = v := by
  rw [Option.isSome_iff_exists]
  constructor
  · rintro ⟨o, h⟩
    exact ⟨o, SortKey.token_of_ofToken? h⟩
  · rintro ⟨o, rfl⟩
    exact ⟨o, SortKey.ofToken?_token o⟩

theorem check_day_eq_ok_iff {q : Query} {k : Key} {v w : String}
    (hk : k = .firstDay ∨ k = .lastDay) :
    q.check c k v = .ok w
      ↔ ∃ t, c.readDay? v.toList = some t ∧ w = String.ofList (Numeral.ofInt t) := by
  have hcheck : q.check c k v = q.check c .firstDay v := by
    rcases hk with rfl | rfl <;> rfl
  rw [hcheck, check]
  rcases c.readDay? v.toList with _ | t
  · simp
  · simp [eq_comm]

theorem check_dateField_eq_ok_iff {q : Query} {v w : String} :
    q.check c .dateField v = .ok w
      ↔ (w = v ∧ ∃ f : DateField, f.token = v) ∧ ∀ u ∈ q.first? .dateField, u = v := by
  have hfit : (∃ f : DateField, f.token = v) ↔ ∃ f, DateField.ofToken? v = some f :=
    ⟨fun ⟨f, hf⟩ => ⟨f, hf ▸ f.ofToken?_token⟩,
      fun ⟨f, hf⟩ => ⟨f, DateField.token_of_ofToken? hf⟩⟩
  rw [hfit, check]
  rcases DateField.ofToken? v with _ | f
  · simp
  · rcases q.first? .dateField with _ | u
    · simp [eq_comm]
    · by_cases hu : u = v
      · simp [hu, eq_comm]
      · simp [hu]

/-- **A value is accepted if it fits its key and there is room for it.** -/
theorem check_eq_ok_iff {q : Query} {k : Key} {v w : String} :
    q.check c k v = .ok w ↔ Keeps c k v w ∧ q.HasRoom k v := by
  rcases k <;> simp only [HasRoom, Keeps, reduceCtorEq, false_implies, and_true, true_implies]
  case dateField => exact check_dateField_eq_ok_iff
  case order =>
    rw [check, ← isSome_ofToken?_order]
    by_cases h : (SortKey.ofToken? v).isSome = true
    · simp [h, eq_comm]
    · simp [h]
  case firstDay => exact check_day_eq_ok_iff (.inl rfl)
  case lastDay => exact check_day_eq_ok_iff (.inr rfl)
  all_goals simp [check, eq_comm]

/-! ## One token -/

/-- A token tells a pair: the key that it says, and what is kept of the value that it says. -/
def Tells (c : Clock) (token : List Char) (p : Key × String) : Prop :=
  ∃ v, Says token p.1 v ∧ Keeps c p.1 v p.2

/-- A date field is kept as it is given, so room for it can be told from what is kept. -/
theorem hasRoom_iff {q : Query} {k : Key} {v w : String} (h : Keeps c k v w) :
    q.HasRoom k v ↔ q.HasRoom k w := by
  by_cases hk : k = .dateField
  · subst hk
    rw [h.1]
  · simp [HasRoom, hk]

/-- **What accepting a token does**: it puts the pair that the token tells into the query, which
must have room for it. -/
theorem accept_eq_ok_iff {q q' : Query} {token : List Char} :
    accept c q token = .ok q'
      ↔ ∃ p, Tells c token p ∧ q.HasRoom p.1 p.2 ∧ q' = q.insert p.1 p.2 := by
  rw [accept]
  constructor
  · intro h
    rcases hs : splitToken? token with _ | ⟨k, v⟩
    · rw [hs] at h
      cases h
    · rw [hs] at h
      obtain ⟨w, hw, rfl⟩ := Except.map_eq_ok_iff.1 h
      obtain ⟨hkeep, hroom⟩ := check_eq_ok_iff.1 hw
      exact ⟨(k, w), ⟨v, splitToken?_eq_some_iff.1 hs, hkeep⟩, (hasRoom_iff hkeep).1 hroom, rfl⟩
  · rintro ⟨⟨k, w⟩, ⟨v, hsays, hkeep⟩, hroom, rfl⟩
    rw [splitToken?_eq_some_iff.2 hsays]
    exact Except.map_eq_ok_iff.2
      ⟨w, check_eq_ok_iff.2 ⟨hkeep, (hasRoom_iff hkeep).2 hroom⟩, rfl⟩

/-! ## All tokens -/

/-- The date fields that pairs give agree with each other, and with one that was named before. -/
def DateFieldsAgree (before : Option String) (ps : List (Key × String)) : Prop :=
  ∀ v ∈ before.toList ++ given .dateField ps, ∀ w ∈ before.toList ++ given .dateField ps, v = w

theorem first?_insert_self (q : Query) (k : Key) (v : String) :
    (q.insert k v).first? k = some ((q.first? k).getD v) := by
  rw [first?, first?, values_insert_self, addNew]
  rcases q.values k with _ | ⟨u, us⟩
  · rfl
  · split <;> rfl

theorem first?_insert_of_ne {q : Query} {j k : Key} (h : j ≠ k) (v : String) :
    (q.insert k v).first? j = q.first? j := by
  rw [first?, first?, values_insert, if_neg h]

/-- The first of some pairs may be put in before it is asked whether the others agree. -/
theorem dateFieldsAgree_cons {q : Query} {k : Key} {v : String} {ps : List (Key × String)} :
    DateFieldsAgree (q.first? .dateField) ((k, v) :: ps)
      ↔ q.HasRoom k v ∧ DateFieldsAgree ((q.insert k v).first? .dateField) ps := by
  by_cases hk : k = .dateField
  · subst hk
    rw [first?_insert_self, DateFieldsAgree, DateFieldsAgree, HasRoom, given_cons_self]
    rcases q.first? .dateField with _ | u
    · simp
    · simp only [Option.toList_some, List.singleton_append, Option.getD_some, Option.mem_def,
        Option.some.injEq, forall_eq', true_implies]
      constructor
      · intro h
        have huv : u = v := h u (by simp) v (by simp)
        subst huv
        exact ⟨rfl, fun a ha b hb => h a (List.mem_cons_of_mem _ ha) b (List.mem_cons_of_mem _ hb)⟩
      · rintro ⟨rfl, h⟩ a ha b hb
        exact h a (by simpa using ha) b (by simpa using hb)
  · rw [first?_insert_of_ne (Ne.symm hk), DateFieldsAgree, DateFieldsAgree, HasRoom,
      given_cons_of_ne hk]
    simp [hk]

/-- **What reading on does**: the tokens to come tell pairs, and these are put into the query. -/
theorem foldlM_accept_eq_ok_iff {q q' : Query} {ts : List (List Char)} :
    ts.foldlM (accept c) q = .ok q'
      ↔ ∃ ps, List.Forall₂ (Tells c) ts ps ∧ DateFieldsAgree (q.first? .dateField) ps
          ∧ q' = q.insertAll ps := by
  induction ts generalizing q with
  | nil =>
    constructor
    · intro h
      obtain rfl : q = q' := Except.ok.inj h
      refine ⟨[], .nil, ?_, rfl⟩
      rw [DateFieldsAgree, given_nil, List.append_nil]
      rcases q.first? .dateField with _ | u <;> simp
    · rintro ⟨ps, hps, -, rfl⟩
      rw [List.forall₂_nil_left_iff.1 hps]
      rfl
  | cons t ts ih =>
    rw [List.foldlM_cons, Except.bind_eq_ok_iff]
    constructor
    · rintro ⟨r, hr, h⟩
      obtain ⟨p, htells, hroom, rfl⟩ := accept_eq_ok_iff.1 hr
      obtain ⟨ps, hps, hagree, rfl⟩ := ih.1 h
      exact ⟨p :: ps, .cons htells hps, dateFieldsAgree_cons.2 ⟨hroom, hagree⟩, rfl⟩
    · rintro ⟨ps, hps, hagree, rfl⟩
      obtain ⟨p, us, htells, hus, rfl⟩ := List.forall₂_cons_left_iff.1 hps
      obtain ⟨hroom, hagree⟩ := dateFieldsAgree_cons.1 hagree
      exact ⟨_, accept_eq_ok_iff.2 ⟨p, htells, hroom, rfl⟩, ih.2 ⟨us, hus, hagree, rfl⟩⟩

/-- **What a text is read as**: each token tells a pair, the date fields among the pairs agree, and
the query is made of the pairs. -/
theorem parse_eq_ok_iff {s : String} {q : Query} :
    parse c s = .ok q
      ↔ ∃ ps, List.Forall₂ (Tells c) (tokens s) ps ∧ DateFieldsAgree none ps
          ∧ q = empty.insertAll ps :=
  foldlM_accept_eq_ok_iff

/-- **One more token is accepted by the query that the tokens before it make.** -/
theorem parse_append_eq_ok_iff {s s' : String} {token : List Char} {q' : Query}
    (happ : tokens s' = tokens s ++ [token]) :
    parse c s' = .ok q' ↔ ∃ q, parse c s = .ok q ∧ accept c q token = .ok q' := by
  rw [parse, happ, foldlM_accept_append]
  refine Except.bind_eq_ok_iff.trans (exists_congr fun q => and_congr_right fun _ => ?_)
  rw [List.foldlM_cons, Except.bind_eq_ok_iff]
  constructor
  · rintro ⟨r, hr, hdone⟩
    exact Except.ok.inj hdone ▸ hr
  · exact fun hq' => ⟨q', hq', rfl⟩

end WaveFinder.Query
