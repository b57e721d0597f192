import WaveFinder.Proofs.Search.Agreement
import WaveFinder.Proofs.Wave.LetterCase

/-!
# Proofs/Search/LetterCase — searches whose addresses are recased

    text, text recased ──parse──▸ queries that ask the same ──▸ the same results

Addresses come into a search at three places: in what is typed for creators and people, in the local
domain, and in the records of waves.  They are put into lower case as they are read, and what is
typed is completed by the domain before that (`Address.ofTyped_eq_of_recased`), so the case of ASCII
letters makes no difference at any of the three.  A query keeps what is typed as it stands, though,
and keeps it twice if it is typed in two ways, so recased texts are read as different queries; but
they ask the same (`Query.related_of_recased`).
-/

namespace WaveFinder

open Text Query

/-- Whether the values of a key are people. -/
def Key.namesPeople (k : Key) : Bool :=
  k == .creator || k == .person

/-! ## What is typed -/

namespace Address

variable {d d' raw raw' : String}

/-- A text without ASCII letters is typed or is not, whatever the case. -/
theorem eq_iff_of_recased {e : String} (he : ∀ c ∈ e.toList, c.isAlpha = false)
    (h : Recased raw.toList raw'.toList) : raw = e ↔ raw' = e := by
  constructor
  · rintro rfl
    exact String.toList_inj.1 (h.eq_of_forall he).symm
  · rintro rfl
    exact String.toList_inj.1 (h.symm.eq_of_forall he).symm

/-- What is typed is completed in the same way. -/
theorem recased_expand (hd : Recased d.toList d'.toList) (hraw : Recased raw.toList raw'.toList) :
    Recased (expand d raw).toList (expand d' raw').toList := by
  have hat : raw = "@" ↔ raw' = "@" :=
    eq_iff_of_recased (List.forall_mem_singleton.2 rfl) hraw
  have hempty : raw = "" ↔ raw' = "" :=
    eq_iff_of_recased (List.forall_mem_nil _) hraw
  have hlocal : raw ≠ "" ∧ '@' ∉ raw.toList ↔ raw' ≠ "" ∧ '@' ∉ raw'.toList := by
    rw [hraw.mem_iff (e := '@') (by decide)]
    exact and_congr_left fun _ => not_congr hempty
  rw [expand, expand]
  simp only [hat, hlocal]
  split
  · rw [String.toList_append, String.toList_append]
    exact (Recased.refl _).append hd
  · split
    · simp only [String.toList_append]
      exact (hraw.append (.refl _)).append hd
    · exact hraw

/-- **What is typed is read as the same address**, or as the same fault. -/
theorem ofTyped_eq_of_recased (hd : Recased d.toList d'.toList)
    (hraw : Recased raw.toList raw'.toList) : ofTyped d raw = ofTyped d' raw' :=
  read_eq_of_recased (recased_expand hd hraw)

end Address

/-! ## Queries -/

namespace Query

variable {c : Clock} {d d' s s' : String} {k : Key} {t u : List Char} {ts us : List (List Char)}
  {p r : Key × String} {ps rs : List (Key × String)} {q : Query}

/-- Two values of a key are the same but for the case of ASCII letters where they name people. -/
structure ValueRecased (k : Key) (v w : String) : Prop where
  recased : Recased v.toList w.toList
  eq : k.namesPeople = false → v = w

/-- Two tokens are the same but for the case of ASCII letters in a value that names people. -/
inductive TokenRecased : List Char → List Char → Prop
  | same {t : List Char} : TokenRecased t t
  | value {k : Key} {v w : String} {t u : List Char} : k.namesPeople = true → Says t k v →
      Says u k w → Recased v.toList w.toList → TokenRecased t u

theorem TokenRecased.symm (h : TokenRecased t u) : TokenRecased u t := by
  cases h with
  | same => exact .same
  | value hk ht hu hvw => exact .value hk hu ht hvw.symm

/-- Whoever is named is kept as typed. -/
theorem keeps_iff_of_namesPeople {v w : String} (hk : k.namesPeople = true) :
    Keeps c k v w ↔ w = v := by
  cases k with
  | creator | person => rfl
  | folder | id | tag | dateField | firstDay | lastDay | order => cases hk

/-- **A token that is recased tells a value that is recased.** -/
theorem TokenRecased.exists_tells (h : TokenRecased t u) (ht : Tells c t p) :
    ∃ r, Tells c u r ∧ p.1 = r.1 ∧ ValueRecased p.1 p.2 r.2 := by
  cases h with
  | same => exact ⟨p, ht, rfl, .refl _, fun _ => rfl⟩
  | @value k v w _ _ hk hv hw hvw =>
    obtain ⟨j, v'⟩ := p
    obtain ⟨v'', hv'', hkeep⟩ := ht
    obtain ⟨rfl, rfl⟩ := hv.unique hv''
    obtain rfl : v' = v := (keeps_iff_of_namesPeople hk).1 hkeep
    refine ⟨(k, w), ⟨w, hw, (keeps_iff_of_namesPeople hk).2 rfl⟩, rfl, hvw, fun hno => ?_⟩
    exact absurd hno (by rw [hk]; decide)

/-- Tokens that are recased tell pairs whose values are recased. -/
theorem exists_forall₂_tells (h : List.Forall₂ TokenRecased ts us)
    (hts : List.Forall₂ (Tells c) ts ps) :
    ∃ rs, List.Forall₂ (Tells c) us rs
      ∧ List.Forall₂ (fun p r => p.1 = r.1 ∧ ValueRecased p.1 p.2 r.2) ps rs := by
  induction h generalizing ps with
  | nil =>
    rw [List.forall₂_nil_left_iff.1 hts]
    exact ⟨[], .nil, .nil⟩
  | cons htu _ ih =>
    obtain ⟨p, ps, ht, hps, rfl⟩ := List.forall₂_cons_left_iff.1 hts
    obtain ⟨r, hr, hpr⟩ := htu.exists_tells ht
    obtain ⟨rs, hrs, hprs⟩ := ih hps
    exact ⟨r :: rs, .cons hr hrs, .cons hpr hprs⟩

/-- Under each key such pairs give values that are recased. -/
theorem forall₂_given
    (h : List.Forall₂ (fun p r => p.1 = r.1 ∧ ValueRecased p.1 p.2 r.2) ps rs) (k : Key) :
    List.Forall₂ (ValueRecased k) (given k ps) (given k rs) := by
  induction h with
  | nil => exact .nil
  | @cons p r ps rs hpr _ ih =>
    obtain ⟨j, v⟩ := p
    obtain ⟨_, w⟩ := r
    obtain ⟨rfl, hvw⟩ := hpr
    by_cases hj : j = k
    · subst hj
      rw [given_cons_self, given_cons_self]
      exact .cons hvw ih
    · rw [given_cons_of_ne hj, given_cons_of_ne hj]
      exact ih

theorem given_eq_of_not_namesPeople
    (h : List.Forall₂ (fun p r => p.1 = r.1 ∧ ValueRecased p.1 p.2 r.2) ps rs)
    (hk : k.namesPeople = false) : given k ps = given k rs := by
  rw [← List.forall₂_eq_eq_eq]
  exact (forall₂_given h k).imp fun _ _ hvw => hvw.eq hk

/-- **Pairs whose values are recased ask the same of a search.** -/
theorem asksLike_of_recased (hd : Recased d.toList d'.toList)
    (h : List.Forall₂ (fun p r => p.1 = r.1 ∧ ValueRecased p.1 p.2 r.2) ps rs) :
    AsksLike d d' (empty.insertAll ps) (empty.insertAll rs) where
  first? k hk := by
    have hno : k.namesPeople = false := by
      cases k with
      | creator | person => simp [Key.isDay] at hk
      | folder | id | tag | dateField | firstDay | lastDay | order => rfl
    rw [first?_insertAll_empty, first?_insertAll_empty, given_eq_of_not_namesPeople h hno]
  orders := by
    rw [values_insertAll_empty, values_insertAll_empty, given_eq_of_not_namesPeople h rfl]
  people k _ a := by
    have hread : (given k ps).map (Address.ofTyped d) = (given k rs).map (Address.ofTyped d') := by
      rw [← List.forall₂_eq_eq_eq, List.forall₂_map_left_iff, List.forall₂_map_right_iff]
      exact (forall₂_given h k).imp fun _ _ hvw => Address.ofTyped_eq_of_recased hd hvw.recased
    have hmem : ∀ {e : String} {vs : List String},
        a ∈ vs.eraseDups.map (Address.ofTyped e) ↔ a ∈ vs.map (Address.ofTyped e) := by
      intro e vs
      simp only [List.mem_map, List.mem_eraseDups]
    rw [values_insertAll_empty, values_insertAll_empty, hmem, hmem, hread]

theorem exists_parse_of_recased (hs : List.Forall₂ TokenRecased (tokens s) (tokens s'))
    (hd : Recased d.toList d'.toList) (hq : parse c s = .ok q) :
    ∃ q', parse c s' = .ok q' ∧ AsksLike d d' q q' := by
  obtain ⟨ps, htells, hagree, rfl⟩ := parse_eq_ok_iff.1 hq
  obtain ⟨rs, htells', hpairs⟩ := exists_forall₂_tells hs htells
  have hagree' : DateFieldsAgree none rs := by
    rw [DateFieldsAgree, ← given_eq_of_not_namesPeople hpairs rfl]
    exact hagree
  exact ⟨_, parse_eq_ok_iff.2 ⟨rs, htells', hagree', rfl⟩, asksLike_of_recased hd hpairs⟩

/-- **Recased texts are read as queries that ask the same**, or neither is read. -/
theorem related_of_recased (hs : List.Forall₂ TokenRecased (tokens s) (tokens s'))
    (hd : Recased d.toList d'.toList) (c : Clock) :
    Except.Related (AsksLike d d') (parse c s) (parse c s') := by
  refine .of_forall (fun q => exists_parse_of_recased hs hd) fun q' hq' => ?_
  have hback : List.Forall₂ TokenRecased (tokens s') (tokens s) :=
    hs.flip.imp fun _ _ => TokenRecased.symm
  obtain ⟨q, hq, -⟩ := exists_parse_of_recased hback hd.symm hq'
  exact ⟨q, hq⟩

end Query

/-! ## Searches -/

namespace Plan

/-- **A search does not see the case of ASCII letters in addresses.**  Let the ASCII letters of the
creators and the people of a text, of the local domain and of the addresses in the records of waves
be put into another case.  Then, on every clock, the one text is read if and only if the other is,
their people come to addresses or not alike, and so the one comes to a plan if and only if the other
does; the records are read as the same waves, or neither are read; and the plans find the same ids
among them, in the same order. -/
theorem ids_eq_of_recased {s s' d d' : String} {j j' : Json}
    (hs : List.Forall₂ TokenRecased (tokens s) (tokens s')) (hd : Recased d.toList d'.toList)
    (hj : Wave.RecordsRecased j j') (clock : Clock) :
    ((∃ q, parse clock s = .ok q) ↔ ∃ q, parse clock s' = .ok q)
      ∧ (∀ q q', parse clock s = .ok q → parse clock s' = .ok q' →
          ∀ k, k = .creator ∨ k = .person →
            ((∃ as, q.addresses d k = .ok as) ↔ ∃ as, q'.addresses d' k = .ok as))
      ∧ ((∃ p, ofText clock d s = .ok p) ↔ ∃ p, ofText clock d' s' = .ok p)
      ∧ Wave.listOfJson? j = Wave.listOfJson? j'
      ∧ ∀ p p' ws ws', ofText clock d s = .ok p → ofText clock d' s' = .ok p' →
          Wave.listOfJson? j = some ws → Wave.listOfJson? j' = some ws' →
            p.ids ws = p'.ids ws' := by
  have hread := related_of_recased hs hd clock
  have hplan := related_ofText hread
  have hwaves := hj.listOfJson?_eq
  refine ⟨hread.exists_ok_iff, fun q q' hq hq' k hk => ?_, hplan.exists_ok_iff, hwaves,
    fun p p' ws ws' hp hp' hws hws' => ?_⟩
  · exact (related_addresses ((hread.of_ok hq hq').people k hk)).exists_ok_iff
  · obtain rfl : ws = ws' := Option.some.inj (hws.symm.trans (hwaves.trans hws'))
    exact (hplan.of_ok hp hp').ids_eq ws

/-- A name ends in a capital sigma, and the letter before it is put into the other case, as are
letters of the domain, of an author and of a participant; the records come as arrays. -/
theorem ids_eq_of_recased_sigma :
    ∃ j j' p p' ws ws',
      j = .list [.list [.text "w", .list [.list [.text "conv+root", .text "BOB@example.com", .int 5,
          .int 7, .list [.text "aΣ@Example.com"]]]]]
      ∧ j' = .list [.list [.text "w", .list [.list [.text "conv+root", .text "bob@EXAMPLE.com",
          .int 5, .int 7, .list [.text "AΣ@example.com"]]]]]
      ∧ ofText (Clock.fixed 3600000) "Example.com" "with:aΣ creator:bob" = .ok p
      ∧ ofText (Clock.fixed 3600000) "example.com" "with:AΣ creator:Bob" = .ok p'
      ∧ Wave.listOfJson? j = some ws ∧ Wave.listOfJson? j' = some ws'
      ∧ p.ids ws = p'.ids ws' := by
  have hs : List.Forall₂ TokenRecased (tokens "with:aΣ creator:bob")
      (tokens "with:AΣ creator:Bob") := by
    refine .cons ?_ (.cons ?_ .nil)
    · exact .value (k := .person) rfl (splitToken?_eq_some_iff.1 rfl)
        (splitToken?_eq_some_iff.1 rfl) (by decide)
    · exact .value (k := .creator) rfl (splitToken?_eq_some_iff.1 rfl)
        (splitToken?_eq_some_iff.1 rfl) (by decide)
  have hd : Recased "Example.com".toList "example.com".toList := by decide
  have hauthor : Address.RecordRecased (.text "BOB@example.com") (.text "bob@EXAMPLE.com") :=
    .text (by decide)
  have hperson : Address.RecordRecased (.text "aΣ@Example.com") (.text "AΣ@example.com") :=
    .text (by decide)
  have hwavelet : ∀ {a b u v : Json}, Address.RecordRecased a b → Address.RecordRecased u v →
      Wavelet.RecordRecased (.list [.text "conv+root", a, .int 5, .int 7, .list [u]])
        (.list [.text "conv+root", b, .int 5, .int 7, .list [v]]) :=
    fun hab huv => .list (.item rfl (.item hab (.item rfl (.item rfl
      (.item (.list (.cons huv .nil)) .rest)))))
  have hwave : ∀ {u v : Json}, Wavelet.RecordRecased u v → Wave.RecordRecased
      (.list [.text "w", .list [u]]) (.list [.text "w", .list [v]]) :=
    fun h => .list (.item rfl (.item (.list (.cons h .nil)) .rest))
  obtain ⟨-, -, hplan, hwaves, hids⟩ := ids_eq_of_recased hs hd
    (.list (.cons (hwave (hwavelet hauthor hperson)) .nil)) (Clock.fixed 3600000)
  have hp : ofText (Clock.fixed 3600000) "Example.com" "with:aΣ creator:bob"
      = .ok ⟨⟨⟨.modified, 0, 0⟩, [⟨"bob@example.com"⟩], [⟨"aς@example.com"⟩]⟩, .standard⟩ := by
    decide +kernel
  have hws : Wave.listOfJson? (.list [.list [.text "w", .list [.list [.text "conv+root",
        .text "BOB@example.com", .int 5, .int 7, .list [.text "aΣ@Example.com"]]]]])
      = some [⟨"w", [⟨"conv+root", ⟨"bob@example.com"⟩, 5, 7, [⟨"aς@example.com"⟩]⟩]⟩] := by
    decide +kernel
  obtain ⟨p', hp'⟩ := hplan.1 ⟨_, hp⟩
  exact ⟨_, _, _, p', _, _, rfl, rfl, hp, hp', hws, hwaves ▸ hws,
    hids _ p' _ _ hp hp' hws (hwaves ▸ hws)⟩

end Plan

end WaveFinder
