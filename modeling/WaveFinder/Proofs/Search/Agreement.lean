import WaveFinder.Proofs.Search.Narrowing

/-!
# Proofs/Search/Agreement — queries that ask the same of a search

    text  ──parse──▸ query  ──Criteria.ofQuery──▸ criteria  ──▸ results
    text' ──parse──▸ query' ──Criteria.ofQuery──▸ criteria' ──▸ the same results

Of a query a search uses the first value of a few keys, its sort keys, and the addresses that its
people come to.  How often an address is named and in which order makes no difference: any of the
creators will do, and all of the people have to take part.  So two queries, each with a domain of
its own, ask the same (`Query.AsksLike`) if these readings are the same, and then the searches
succeed or fail together and find the same (`Plan.related_ofText`).
-/

namespace WaveFinder

open Query

/-! ## What is asked -/

/-- Two queries, each under a domain, ask the same of a search: they name the same first days, date
field and sort keys, and their creators and people are read as the same addresses or faults. -/
structure Query.AsksLike (localDomain localDomain' : String) (q q' : Query) : Prop where
  first? : ∀ k, k.isDay = true ∨ k = .dateField → q.first? k = q'.first? k
  orders : q.values .order = q'.values .order
  people : ∀ k, k = .creator ∨ k = .person → ∀ r,
    r ∈ (q.values k).map (Address.ofTyped localDomain)
      ↔ r ∈ (q'.values k).map (Address.ofTyped localDomain')

namespace Query.AsksLike

variable {d d' d'' : String} {q q' q'' : Query}

theorem refl (d : String) (q : Query) : AsksLike d d q q :=
  ⟨fun _ _ => rfl, rfl, fun _ _ _ => Iff.rfl⟩

theorem trans (h : AsksLike d d' q q') (h' : AsksLike d' d'' q' q'') : AsksLike d d'' q q'' where
  first? k hk := (h.first? k hk).trans (h'.first? k hk)
  orders := h.orders.trans h'.orders
  people k hk r := (h.people k hk r).trans (h'.people k hk r)

end Query.AsksLike

/-! ## What it comes to -/

/-- The people of a query come to addresses if each of them is read as one. -/
theorem Query.addresses_eq_ok_iff {localDomain : String} {q : Query} {k : Key} {as : List Address} :
    q.addresses localDomain k = .ok as
      ↔ (q.values k).map (Address.ofTyped localDomain) = as.map Except.ok := by
  rw [addresses, Except.mapM_eq_ok_iff, ← List.forall₂_eq_eq_eq, List.forall₂_map_left_iff,
    List.forall₂_map_right_iff]
  simp only [Except.mapError_eq_ok_iff]

/-- **People who are read as the same addresses come to the same addresses**, as far as who is among
them goes. -/
theorem Query.related_addresses {d d' : String} {q q' : Query} {k : Key}
    (h : ∀ r, r ∈ (q.values k).map (Address.ofTyped d)
      ↔ r ∈ (q'.values k).map (Address.ofTyped d')) :
    Except.Related (fun as as' => ∀ a, a ∈ as ↔ a ∈ as') (q.addresses d k) (q'.addresses d' k) := by
  -- Each way round, the readings of the one are addresses because those of the other are.
  have hexists : ∀ {d d' : String} {q q' : Query} {as : List Address},
      (∀ r, r ∈ (q.values k).map (Address.ofTyped d) ↔ r ∈ (q'.values k).map (Address.ofTyped d')) →
      q.addresses d k = .ok as → ∃ as', q'.addresses d' k = .ok as' := by
    intro d d' q q' as h has
    refine exists_addresses fun raw hraw => ?_
    have hread := (h _).2 (List.mem_map_of_mem (f := Address.ofTyped d') hraw)
    rw [addresses_eq_ok_iff.1 has] at hread
    obtain ⟨a, -, ha⟩ := List.mem_map.1 hread
    exact ⟨a, ha.symm⟩
  refine .of_forall (fun as has => ?_) fun as' has' => hexists (fun r => (h r).symm) has'
  obtain ⟨as', has'⟩ := hexists h has
  refine ⟨as', has', fun a => ?_⟩
  have hmem : ∀ {bs : List Address},
      a ∈ bs ↔ (.ok a : Except AddressFault Address) ∈ bs.map Except.ok := by
    intro bs
    simp
  rw [hmem, hmem, ← addresses_eq_ok_iff.1 has, ← addresses_eq_ok_iff.1 has']
  exact h _

namespace Criteria

variable {ι : Type} {c c' : Criteria}

/-- Criteria with one window meet the same entries if the same people are asked for. -/
theorem meets_eq_of_mem_iff (hwindow : c.window = c'.window)
    (hcreators : ∀ a, a ∈ c.creators ↔ a ∈ c'.creators)
    (hpeople : ∀ a, a ∈ c.people ↔ a ∈ c'.people) (s : Summary ι) : c.meets s = c'.meets s := by
  have hcontains : c.creators.contains = c'.creators.contains := by
    funext a
    rw [Bool.eq_iff_iff, List.contains_iff_mem, List.contains_iff_mem, hcreators]
  have hempty : c.creators.isEmpty = c'.creators.isEmpty := by
    rw [Bool.eq_iff_iff, List.isEmpty_iff, List.isEmpty_iff, List.eq_nil_iff_forall_not_mem,
      List.eq_nil_iff_forall_not_mem]
    exact forall_congr' fun a => not_congr (hcreators a)
  have hall : c.meetsPeople s = c'.meetsPeople s := by
    rw [Bool.eq_iff_iff, meetsPeople, meetsPeople, List.all_eq_true, List.all_eq_true]
    exact forall_congr' fun a => imp_congr_left (hpeople a)
  rw [meets, meets, meetsWindow, meetsWindow, meetsCreators, meetsCreators, hwindow, hcontains,
    hempty, hall]

end Criteria

/-! ## What is found -/

namespace Plan

/-- Two plans find the same: they let the same entries through and rank them by the same keys. -/
structure FindsLike (p p' : Plan) : Prop where
  meets : ∀ {ι : Type} (s : Summary ι), p.criteria.meets s = p'.criteria.meets s
  ranking : p.ranking = p'.ranking

theorem FindsLike.run_eq {ι : Type} [Ord ι] {p p' : Plan} (h : FindsLike p p')
    (es : List (Summary ι)) : p.run es = p'.run es := by
  rw [run, run, h.ranking, funext h.meets]

theorem FindsLike.ids_eq {p p' : Plan} (h : FindsLike p p') (ws : List Wave) :
    p.ids ws = p'.ids ws := by
  rw [ids, ids, h.run_eq]

variable {clock : Clock} {d d' s s' : String}

/-- Queries that ask the same come to plans that find the same. -/
theorem related_ofQuery {q q' : Query} (h : AsksLike d d' q q') :
    Except.Related FindsLike (ofQuery clock d q) (ofQuery clock d' q') := by
  have hwindow : Except.Related Eq (Window.ofQuery clock q) (Window.ofQuery clock q') := by
    rw [Window.ofQuery_congr h.first?]
    exact .refl (fun _ => rfl) _
  have hranking : Ranking.ofQuery q = Ranking.ofQuery q' := by
    rw [Ranking.ofQuery, Ranking.ofQuery, sortKeys, sortKeys, h.orders]
  refine Except.Related.map (R := fun c c' => ∀ {ι : Type} (s : Summary ι), c.meets s = c'.meets s)
    ?_ fun c c' hmeets => ⟨hmeets, hranking⟩
  refine hwindow.mapError.bind fun w w' hw => ?_
  refine (related_addresses (h.people .creator (.inl rfl))).bind fun as as' has => ?_
  refine (related_addresses (h.people .person (.inr rfl))).bind fun bs bs' hbs => ?_
  exact .ok (Criteria.meets_eq_of_mem_iff hw has hbs)

/-- **Texts that are read as queries that ask the same come to plans that find the same.** -/
theorem related_ofText (h : Except.Related (AsksLike d d') (parse clock s) (parse clock s')) :
    Except.Related FindsLike (ofText clock d s) (ofText clock d' s') :=
  h.mapError.bind fun _ _ => related_ofQuery

end Plan

end WaveFinder
