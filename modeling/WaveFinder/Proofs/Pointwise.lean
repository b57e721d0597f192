import Mathlib.Data.List.Forall2

/-!
# Proofs/Pointwise — computations that can fail, and lists related member by member

A sequence of computations succeeds if its parts do, and a pass over a list if it does at each
member: its result is then related to the list member by member (`mapM_eq_ok_iff`).  Every member of
either of two such lists has a partner in the other.  A pass that carries a state along fails at one
place, which the members before it decide (`foldlM_eq_error_iff`).

Two computations are related (`Except.Related`) if both fail, for whatever reasons, or both succeed
with related results; what is made of related computations step by step stays related
(`Related.bind`).
-/

namespace Except

variable {ε α β : Type}

theorem bind_eq_ok_iff {x : Except ε α} {f : α → Except ε β} {b : β} :
    x >>= f = .ok b ↔ ∃ a, x = .ok a ∧ f a = .ok b := by
  rcases x with e | a
  · refine ⟨fun h => ?_, fun ⟨_, h, _⟩ => ?_⟩ <;> cases h
  · exact ⟨fun h => ⟨a, rfl, h⟩, fun ⟨_, h, hf⟩ => by cases h; exact hf⟩

theorem bind_eq_error_iff {x : Except ε α} {f : α → Except ε β} {e : ε} :
    x >>= f = .error e ↔ x = .error e ∨ ∃ a, x = .ok a ∧ f a = .error e := by
  rcases x with d | a
  · refine ⟨fun h => .inl (by cases h; rfl), ?_⟩
    rintro (h | ⟨_, h, _⟩) <;> cases h
    rfl
  · refine ⟨fun h => .inr ⟨a, rfl, h⟩, ?_⟩
    rintro (h | ⟨_, h, hf⟩) <;> cases h
    exact hf

theorem map_eq_ok_iff {x : Except ε α} {f : α → β} {b : β} :
    x.map f = .ok b ↔ ∃ a, x = .ok a ∧ f a = b := by
  rcases x with e | a
  · refine ⟨fun h => ?_, fun ⟨_, h, _⟩ => ?_⟩ <;> cases h
  · simp [Except.map]

theorem map_eq_error_iff {x : Except ε α} {f : α → β} {e : ε} :
    x.map f = .error e ↔ x = .error e := by
  rcases x with d | a
  · simp [Except.map]
  · refine ⟨fun h => ?_, fun h => ?_⟩ <;> cases h

theorem mapError_eq_ok_iff {ε' : Type} {x : Except ε α} {f : ε → ε'} {a : α} :
    x.mapError f = .ok a ↔ x = .ok a := by
  rcases x with e | b
  · refine ⟨fun h => ?_, fun h => ?_⟩ <;> cases h
  · simp [Except.mapError]

/-- **A pass over a list succeeds if it does at each member**, and collects what it finds there. -/
theorem mapM_eq_ok_iff {f : α → Except ε β} {as : List α} {bs : List β} :
    as.mapM f = .ok bs ↔ List.Forall₂ (fun a b => f a = .ok b) as bs := by
  induction as generalizing bs with
  | nil =>
    rw [List.mapM_nil, List.forall₂_nil_left_iff]
    exact ⟨fun h => by cases h; rfl, fun h => by subst h; rfl⟩
  | cons a as ih =>
    rw [List.mapM_cons, bind_eq_ok_iff]
    constructor
    · rintro ⟨b, hb, h⟩
      obtain ⟨bs', hbs, h⟩ := bind_eq_ok_iff.1 h
      obtain rfl : b :: bs' = bs := Except.ok.inj h
      exact .cons hb (ih.1 hbs)
    · rintro (_ | ⟨hb, hbs⟩)
      exact ⟨_, hb, bind_eq_ok_iff.2 ⟨_, ih.2 hbs, rfl⟩⟩

theorem mapError_eq_error_iff {ε' : Type} {x : Except ε α} {f : ε → ε'} {e : ε'} :
    x.mapError f = .error e ↔ ∃ d, x = .error d ∧ f d = e := by
  rcases x with d | a
  · simp [Except.mapError]
  · refine ⟨fun h => ?_, fun ⟨_, h, _⟩ => ?_⟩ <;> cases h

/-- **A pass over a list fails at the first member at which it does.** -/
theorem mapM_eq_error_iff {f : α → Except ε β} {as : List α} {e : ε} :
    as.mapM f = .error e
      ↔ ∃ before a after, as = before ++ a :: after ∧ (∀ d ∈ before, ∃ b, f d = .ok b)
          ∧ f a = .error e := by
  induction as with
  | nil =>
    constructor
    · intro h
      cases h
    · rintro ⟨before, a, after, h, -⟩
      exact absurd h.symm (List.append_ne_nil_of_right_ne_nil _ (List.cons_ne_nil a after))
  | cons a as ih =>
    have hpure : ∀ (b : β) (bs : List β), (pure (b :: bs) : Except ε (List β)) ≠ .error e :=
      fun _ _ h => by cases h
    rw [List.mapM_cons, bind_eq_error_iff]
    constructor
    · rintro (h | ⟨b, hb, h⟩)
      · exact ⟨[], a, as, rfl, fun d hd => absurd hd List.not_mem_nil, h⟩
      · obtain h | ⟨bs, -, h⟩ := bind_eq_error_iff.1 h
        · obtain ⟨before, a', after, rfl, hbefore, h⟩ := ih.1 h
          exact ⟨a :: before, a', after, rfl, List.forall_mem_cons.2 ⟨⟨b, hb⟩, hbefore⟩, h⟩
        · exact absurd h (hpure b bs)
    · rintro ⟨before, a', after, hsplit, hbefore, h⟩
      rcases before with _ | ⟨d, before⟩
      · obtain ⟨rfl, rfl⟩ := List.cons.inj hsplit
        exact .inl h
      · obtain ⟨rfl, rfl⟩ := List.cons.inj hsplit
        obtain ⟨⟨b, hb⟩, hbefore⟩ := List.forall_mem_cons.1 hbefore
        exact .inr ⟨b, hb, bind_eq_error_iff.2 (.inl (ih.2 ⟨before, a', after, rfl, hbefore, h⟩))⟩

/-- **A pass that carries a state fails at the first member that the state does not take**: it took
what stands before that member, and what follows is not looked at. -/
theorem foldlM_eq_error_iff {f : β → α → Except ε β} {as : List α} {b : β} {e : ε} :
    as.foldlM f b = .error e
      ↔ ∃ before a after b', as = before ++ a :: after ∧ before.foldlM f b = .ok b'
          ∧ f b' a = .error e := by
  induction as generalizing b with
  | nil =>
    constructor
    · intro h
      cases h
    · rintro ⟨before, a, after, b', h, -⟩
      exact absurd h.symm (List.append_ne_nil_of_right_ne_nil _ (List.cons_ne_nil a after))
  | cons a as ih =>
    rw [List.foldlM_cons, bind_eq_error_iff]
    constructor
    · rintro (h | ⟨b', hb, h⟩)
      · exact ⟨[], a, as, b, rfl, rfl, h⟩
      · obtain ⟨before, a', after, b'', rfl, hbefore, h⟩ := ih.1 h
        exact ⟨a :: before, a', after, b'', rfl, bind_eq_ok_iff.2 ⟨b', hb, hbefore⟩, h⟩
    · rintro ⟨before, a', after, b'', hsplit, hbefore, h⟩
      rcases before with _ | ⟨d, before⟩
      · obtain ⟨rfl, rfl⟩ := List.cons.inj hsplit
        obtain rfl : b = b'' := Except.ok.inj hbefore
        exact .inl h
      · obtain ⟨rfl, rfl⟩ := List.cons.inj hsplit
        obtain ⟨b', hb, hbefore⟩ := bind_eq_ok_iff.1 hbefore
        exact .inr ⟨b', hb, ih.2 ⟨before, a', after, b'', rfl, hbefore, h⟩⟩

/-! ## Computations side by side -/

/-- Both of two computations fail, or both succeed and their results are related. -/
inductive Related {ε' : Type} (R : α → β → Prop) : Except ε α → Except ε' β → Prop
  | error {e e'} : Related R (.error e) (.error e')
  | ok {a b} : R a b → Related R (.ok a) (.ok b)

namespace Related

variable {ε' γ δ : Type} {R : α → β → Prop} {x : Except ε α} {y : Except ε' β}

theorem of_forall (h : ∀ a, x = .ok a → ∃ b, y = .ok b ∧ R a b)
    (h' : ∀ b, y = .ok b → ∃ a, x = .ok a) : Related R x y := by
  rcases x with e | a
  · rcases y with e' | b
    · exact .error
    · obtain ⟨a, ha⟩ := h' b rfl
      cases ha
  · obtain ⟨b, rfl, hab⟩ := h a rfl
    exact .ok hab

theorem refl {S : α → α → Prop} (hS : ∀ a, S a a) (x : Except ε α) : Related S x x := by
  rcases x with e | a
  · exact .error
  · exact .ok (hS a)

theorem exists_ok_iff (h : Related R x y) : (∃ a, x = .ok a) ↔ ∃ b, y = .ok b := by
  cases h with
  | error => exact iff_of_false (fun ⟨_, h⟩ => nomatch h) fun ⟨_, h⟩ => nomatch h
  | ok _ => exact iff_of_true ⟨_, rfl⟩ ⟨_, rfl⟩

theorem of_ok {a : α} {b : β} (h : Related R x y) (ha : x = .ok a) (hb : y = .ok b) : R a b := by
  subst ha hb
  cases h with
  | ok hab => exact hab

theorem trans {ε'' : Type} {S : β → γ → Prop} {T : α → γ → Prop} {z : Except ε'' γ}
    (h : Related R x y) (h' : Related S y z) (hT : ∀ a b c, R a b → S b c → T a c) :
    Related T x z := by
  cases h with
  | error =>
    cases h' with
    | error => exact .error
  | ok hab =>
    cases h' with
    | ok hbc => exact .ok (hT _ _ _ hab hbc)

theorem map {S : γ → δ → Prop} {f : α → γ} {g : β → δ} (h : Related R x y)
    (hfg : ∀ a b, R a b → S (f a) (g b)) : Related S (x.map f) (y.map g) := by
  cases h with
  | error => exact .error
  | ok hab => exact .ok (hfg _ _ hab)

theorem mapError {η η' : Type} {f : ε → η} {g : ε' → η'} (h : Related R x y) :
    Related R (x.mapError f) (y.mapError g) := by
  cases h with
  | error => exact .error
  | ok hab => exact .ok hab

/-- **What follows on related results is related.** -/
theorem bind {S : γ → δ → Prop} {f : α → Except ε γ} {g : β → Except ε' δ} (h : Related R x y)
    (hfg : ∀ a b, R a b → Related S (f a) (g b)) : Related S (x >>= f) (y >>= g) := by
  cases h with
  | error => exact .error
  | ok hab => exact hfg _ _ hab

end Related

end Except

namespace WaveFinder

section Partners

variable {α β : Type} {R : α → β → Prop} {as : List α} {bs : List β}

theorem exists_forall₂ (h : ∀ a ∈ as, ∃ b, R a b) : ∃ bs, List.Forall₂ R as bs := by
  induction as with
  | nil => exact ⟨[], .nil⟩
  | cons a as ih =>
    obtain ⟨b, hb⟩ := h a (List.mem_cons_self ..)
    obtain ⟨bs, hbs⟩ := ih fun a' ha' => h a' (List.mem_cons_of_mem _ ha')
    exact ⟨b :: bs, .cons hb hbs⟩

theorem exists_right_of_mem (h : List.Forall₂ R as bs) {a : α} (ha : a ∈ as) :
    ∃ b ∈ bs, R a b := by
  induction h with
  | nil => exact absurd ha List.not_mem_nil
  | cons hr _ ih =>
    rcases List.mem_cons.1 ha with rfl | ha
    · exact ⟨_, List.mem_cons_self .., hr⟩
    · obtain ⟨b, hb, hr⟩ := ih ha
      exact ⟨b, List.mem_cons_of_mem _ hb, hr⟩

theorem exists_left_of_mem (h : List.Forall₂ R as bs) {b : β} (hb : b ∈ bs) :
    ∃ a ∈ as, R a b :=
  exists_right_of_mem h.flip hb

/-- Lists that are related to one list are related to each other. -/
theorem forall₂_trans {γ : Type} {S : β → γ → Prop} {T : α → γ → Prop} {cs : List γ}
    (h : List.Forall₂ R as bs) (h' : List.Forall₂ S bs cs)
    (hT : ∀ a b c, R a b → S b c → T a c) : List.Forall₂ T as cs := by
  induction h generalizing cs with
  | nil =>
    rw [List.forall₂_nil_left_iff.1 h']
    exact .nil
  | cons hab _ ih =>
    obtain ⟨c, cs, hbc, hcs, rfl⟩ := List.forall₂_cons_left_iff.1 h'
    exact .cons (hT _ _ _ hab hbc) (ih hcs)

/-- What does not hold of all the members of a list fails first at one of them. -/
theorem exists_first_not {p : α → Prop} [DecidablePred p] (h : ¬ ∀ a ∈ as, p a) :
    ∃ before a after, as = before ++ a :: after ∧ (∀ b ∈ before, p b) ∧ ¬ p a := by
  induction as with
  | nil => exact absurd (fun a ha => absurd ha List.not_mem_nil) h
  | cons a as ih =>
    by_cases ha : p a
    · have has : ¬ ∀ b ∈ as, p b := fun has => h (List.forall_mem_cons.2 ⟨ha, has⟩)
      obtain ⟨before, b, after, rfl, hbefore, hb⟩ := ih has
      exact ⟨a :: before, b, after, rfl, List.forall_mem_cons.2 ⟨ha, hbefore⟩, hb⟩
    · exact ⟨[], a, as, rfl, fun b hb => absurd hb List.not_mem_nil, ha⟩

/-- Relations that agree on the members of a list relate it to the same lists. -/
theorem forall₂_congr_of_mem {S : α → β → Prop} (h : ∀ a ∈ as, ∀ b, R a b ↔ S a b) :
    List.Forall₂ R as bs ↔ List.Forall₂ S as bs := by
  induction as generalizing bs with
  | nil => rw [List.forall₂_nil_left_iff, List.forall₂_nil_left_iff]
  | cons a as ih =>
    obtain ⟨ha, has⟩ := List.forall_mem_cons.1 h
    simp only [List.forall₂_cons_left_iff, ha, ih has]

/-- Sorts of related lists are related if the relation keeps the comparisons. -/
theorem forall₂_mergeSort {le : α → α → Bool} {le' : β → β → Bool} (h : List.Forall₂ R as bs)
    (hle : ∀ a b, R a b → ∀ a' b', R a' b' → le a a' = le' b b') :
    List.Forall₂ R (as.mergeSort le) (bs.mergeSort le') := by
  obtain ⟨hlength, hzip⟩ := List.forall₂_iff_zip.1 h
  -- Both are sorted as the list of the pairs is, by either side of them.
  have has : ((as.zip bs).mergeSort fun p r => le p.1 r.1).map Prod.fst = as.mergeSort le := by
    rw [List.map_mergeSort (s := le) fun p _ r _ => rfl, List.map_fst_zip (Nat.le_of_eq hlength)]
  have hbs : ((as.zip bs).mergeSort fun p r => le p.1 r.1).map Prod.snd = bs.mergeSort le' := by
    rw [List.map_mergeSort fun p hp r hr => hle _ _ (hzip hp) _ _ (hzip hr),
      List.map_snd_zip (Nat.le_of_eq hlength.symm)]
  rw [← has, ← hbs, List.forall₂_map_left_iff, List.forall₂_map_right_iff, List.forall₂_same]
  exact fun p hp => hzip (List.mem_mergeSort.1 hp)

/-- A list related to its images, where there are images, is related to the list of them. -/
theorem forall₂_and_eq_iff {p : α → Prop} {f : α → β} :
    List.Forall₂ (fun a b => p a ∧ b = f a) as bs ↔ (∀ a ∈ as, p a) ∧ bs = as.map f := by
  rw [List.forall₂_and_left, and_congr_right_iff]
  intro _
  rw [eq_comm, ← List.forall₂_eq_eq_eq, List.forall₂_map_left_iff]
  simp only [eq_comm]

end Partners

end WaveFinder
