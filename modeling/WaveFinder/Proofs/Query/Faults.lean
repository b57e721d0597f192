import WaveFinder.Proofs.Query.Grammar
import WaveFinder.Proofs.Query.RoundTrip

/-!
# Proofs/Query/Faults — where a text that is no query breaks, and what is said about it

    tokens = before ++ token :: after      `before` is read, `before ++ [token]` is not

A text is read token by token, so one that is not read breaks at one token (`BreaksAt.unique`): the
tokens before it make up a query, and with it they no longer do.  What is complained about is told
from that token and the tokens before it (`Complains`), and whatever follows makes no difference.
-/

namespace WaveFinder.Query

open Text

variable {c : Clock} {o : Int} {s v : String} {q : Query} {k : Key} {fault : QueryFault}
  {token : List Char} {ts us before after : List (List Char)}

/-! ## Where a text breaks -/

/-- The text that tokens make up with a space between two of them. -/
def textOf (ts : List (List Char)) : String :=
  " ".intercalate (ts.map String.ofList)

/-- Tokens break at one of them: what stands before it is read, and with it no longer is. -/
structure BreaksAt (c : Clock) (ts before : List (List Char)) (token : List Char)
    (after : List (List Char)) : Prop where
  split : ts = before ++ token :: after
  isRead : ∃ q, parse c (textOf before) = .ok q
  isRefused : ∀ q, parse c (textOf (before ++ [token])) ≠ .ok q

theorem tokens_textOf (h : ∀ t ∈ ts, t ∈ tokens s) : tokens (textOf ts) = ts := by
  rw [textOf, tokens_intercalate h]

/-- Tokens of a text are read as the text that they make up. -/
theorem parse_textOf (h : ∀ t ∈ ts, t ∈ tokens s) :
    parse c (textOf ts) = ts.foldlM (accept c) empty := by
  rw [parse, tokens_textOf h]

/-- **The beginning of what is read is read.** -/
theorem exists_parse_textOf_of_prefix (hus : ∀ t ∈ us, t ∈ tokens s) (h : ts <+: us)
    (hq : parse c (textOf us) = .ok q) : ∃ p, parse c (textOf ts) = .ok p := by
  obtain ⟨vs, rfl⟩ := h
  rw [parse_textOf hus, foldlM_accept_append] at hq
  obtain ⟨p, hp, -⟩ := Except.bind_eq_ok_iff.1 hq
  refine ⟨p, ?_⟩
  rwa [parse_textOf fun t ht => hus t (List.mem_append_left vs ht)]

theorem isPrefix_of_eq_append_cons (h : ts = before ++ token :: after) : before ++ [token] <+: ts :=
  ⟨after, by rw [h, List.append_assoc, List.singleton_append]⟩

/-- Of two places at which a text breaks neither comes before the other. -/
theorem BreaksAt.length_le {before' after' : List (List Char)} {token' : List Char}
    (h : BreaksAt c (tokens s) before token after)
    (h' : BreaksAt c (tokens s) before' token' after') : before'.length ≤ before.length := by
  by_contra hlt
  have hlength : (before ++ [token]).length ≤ before'.length := by
    rw [List.length_append, List.length_singleton]
    omega
  have hprefix : before ++ [token] <+: before' := List.prefix_of_prefix_length_le
    (isPrefix_of_eq_append_cons h.split) ⟨token' :: after', h'.split.symm⟩ hlength
  have hmem : ∀ t ∈ before', t ∈ tokens s := by
    intro t ht
    rw [h'.split]
    exact List.mem_append_left _ ht
  obtain ⟨q, hq⟩ := h'.isRead
  obtain ⟨p, hp⟩ := exists_parse_textOf_of_prefix hmem hprefix hq
  exact h.isRefused p hp

/-- **A text breaks at one token.** -/
theorem BreaksAt.unique {before' after' : List (List Char)} {token' : List Char}
    (h : BreaksAt c (tokens s) before token after)
    (h' : BreaksAt c (tokens s) before' token' after') :
    before' = before ∧ token' = token ∧ after' = after := by
  have hlength : before'.length = before.length := Nat.le_antisymm (h.length_le h') (h'.length_le h)
  obtain ⟨hbefore, hrest⟩ := List.append_inj (h'.split.symm.trans h.split) hlength
  obtain ⟨htoken, hafter⟩ := List.cons.inj hrest
  exact ⟨hbefore, htoken, hafter⟩

/-! ## What is complained about -/

/-- What is complained about in a token that comes after others, with the part of it that is to
blame: the whole of it if it does not say that a key has a value, and otherwise the value, as the
key has it. -/
inductive Complains (before : List (List Char)) (token : List Char) : String → String → Prop
  | shape : (∀ k v, ¬ Says token k v) →
      Complains before token "Invalid query param: " (String.ofList token)
  | order {v : String} : Says token .order v → (∀ k : SortKey, k.token ≠ v) →
      Complains before token "Invalid orderby query value: " v
  | dateField {v : String} : Says token .dateField v → (∀ f : DateField, f.token ≠ v) →
      Complains before token "Invalid usedate query value: " v
  | otherDateField {f : DateField} {t : List Char} {w : String} :
      Says token .dateField f.token → t ∈ before → Says t .dateField w → w ≠ f.token →
      Complains before token "Conflicting usedate query value: " f.token
  | day {k : Key} {v : String} : k.isDay = true → Says token k v →
      (∀ d : Date, ¬ d.IsNamedBy v.toList) →
      Complains before token "Invalid date query value: " v

theorem check_order_eq_error_iff :
    q.check c .order v = .error fault
      ↔ (∀ k : SortKey, k.token ≠ v) ∧ fault = .unknownOrder v := by
  have hnone : (∀ k : SortKey, k.token ≠ v) ↔ ¬ (SortKey.ofToken? v).isSome = true := by
    rw [isSome_ofToken?_order, not_exists]
  rw [check, hnone]
  by_cases h : (SortKey.ofToken? v).isSome = true
  · simp [h]
  · simp [h, eq_comm]

theorem check_dateField_eq_error_iff :
    q.check c .dateField v = .error fault
      ↔ (∀ f : DateField, f.token ≠ v) ∧ fault = .unknownDateField v
        ∨ (∃ f : DateField, f.token = v) ∧ (∃ u ∈ q.first? .dateField, u ≠ v)
          ∧ fault = .conflictingDateField v := by
  rw [check]
  rcases hread : DateField.ofToken? v with _ | f
  · have hno : ∀ f : DateField, f.token ≠ v := by
      rintro f rfl
      rw [DateField.ofToken?_token] at hread
      cases hread
    simp [hno, eq_comm]
  · obtain rfl := DateField.token_of_ofToken? hread
    have hsome : ¬ ∀ g : DateField, g.token ≠ f.token := fun hno => hno f rfl
    rw [or_iff_right fun h => hsome h.1, and_iff_right ⟨f, rfl⟩]
    rcases q.first? .dateField with _ | u
    · simp
    · by_cases hu : u = f.token
      · simp [hu]
      · simp [hu, eq_comm]

theorem check_day_eq_error_iff (hk : k.isDay = true) :
    q.check c k v = .error fault ↔ c.readDay? v.toList = none ∧ fault = .invalidDay v := by
  have hcheck : q.check c k v = q.check c .firstDay v := by
    rcases k
    case firstDay => rfl
    case lastDay => rfl
    all_goals exact absurd hk (by decide)
  rw [hcheck, check]
  rcases c.readDay? v.toList with _ | t
  · simp [eq_comm]
  · simp

/-- **The keys that take anything never fail.** -/
theorem check_of_mem_free (hk : k ∈ [Key.folder, .person, .creator, .id, .tag]) :
    q.check c k v = .ok v := by
  rcases k
  case order => exact absurd hk (by decide)
  case dateField => exact absurd hk (by decide)
  case firstDay => exact absurd hk (by decide)
  case lastDay => exact absurd hk (by decide)
  all_goals rfl

/-- On a fixed clock a value is no day exactly if it names no date. -/
theorem readDay?_fixed_eq_none_iff (h₀ : -dayMillis < o) (h₁ : o < dayMillis) {cs : List Char} :
    (Clock.fixed o).readDay? cs = none ↔ ∀ d : Date, ¬ d.IsNamedBy cs := by
  rw [Option.eq_none_iff_forall_ne_some]
  constructor
  · intro h d hd
    exact h _ ((Clock.readDay?_fixed_eq_some_iff h₀ h₁).2 ⟨d, hd, rfl⟩)
  · intro h t ht
    obtain ⟨d, hd, -⟩ := (Clock.readDay?_fixed_eq_some_iff h₀ h₁).1 ht
    exact h d hd

/-- **The date field of a query is what the tokens that it was read from say**, each of them that
says one. -/
theorem first?_dateField_eq_some_iff (hq : before.foldlM (accept c) empty = .ok q) :
    q.first? .dateField = some v ↔ ∃ t ∈ before, Says t .dateField v := by
  obtain ⟨ps, htells, hagree, rfl⟩ := foldlM_accept_eq_ok_iff.1 hq
  rw [first?_insertAll_empty]
  constructor
  · intro hv
    have hmem := mem_given.1 (List.mem_of_mem_head? hv)
    obtain ⟨t, ht, w, hs, hkeep⟩ := exists_left_of_mem htells hmem
    obtain rfl : v = w := hkeep.1
    exact ⟨t, ht, hs⟩
  · rintro ⟨t, ht, hs⟩
    obtain ⟨⟨j, u⟩, hp, w, hs', hkeep⟩ := exists_right_of_mem htells ht
    obtain ⟨rfl, rfl⟩ := hs.unique hs'
    obtain rfl : u = v := hkeep.1
    rw [DateFieldsAgree, show (empty.first? .dateField) = none from rfl, Option.toList_none,
      List.nil_append] at hagree
    have hu := mem_given.2 hp
    rcases hgiven : given .dateField ps with _ | ⟨x, xs⟩
    · rw [hgiven] at hu
      exact absurd hu List.not_mem_nil
    · rw [hagree u hu x (hgiven ▸ List.mem_cons_self ..), List.head?_cons]

/-- **What is complained about is told from the token and the tokens before it.** -/
theorem complains_of_accept (h₀ : -dayMillis < o) (h₁ : o < dayMillis)
    (hq : before.foldlM (accept (Clock.fixed o)) empty = .ok q)
    (h : accept (Clock.fixed o) q token = .error fault) :
    Complains before token fault.complaint fault.offending := by
  rw [accept] at h
  rcases hsplit : splitToken? token with _ | ⟨k, v⟩
  · rw [hsplit] at h
    obtain rfl : QueryFault.malformed (String.ofList token) = fault := Except.error.inj h
    refine .shape fun k v hs => ?_
    rw [splitToken?_eq_some_iff.2 hs] at hsplit
    cases hsplit
  · have hs := splitToken?_eq_some_iff.1 hsplit
    rw [hsplit] at h
    have hcheck : q.check (Clock.fixed o) k v = .error fault := Except.map_eq_error_iff.1 h
    have hday : k.isDay = true → Complains before token fault.complaint fault.offending := by
      intro hk
      obtain ⟨hnone, rfl⟩ := (check_day_eq_error_iff hk).1 hcheck
      exact .day hk hs ((readDay?_fixed_eq_none_iff h₀ h₁).1 hnone)
    have hfree : k ∉ [Key.folder, .person, .creator, .id, .tag] := by
      intro hk
      rw [check_of_mem_free hk] at hcheck
      cases hcheck
    rcases k
    case firstDay => exact hday rfl
    case lastDay => exact hday rfl
    case order =>
      obtain ⟨hno, rfl⟩ := check_order_eq_error_iff.1 hcheck
      exact .order hs hno
    case dateField =>
      rcases check_dateField_eq_error_iff.1 hcheck with ⟨hno, rfl⟩ | ⟨⟨f, rfl⟩, ⟨u, hu, hne⟩, rfl⟩
      · exact .dateField hs hno
      · obtain ⟨t, ht, hsaid⟩ := (first?_dateField_eq_some_iff hq).1 hu
        exact .otherDateField hs ht hsaid hne
    all_goals exact absurd (by decide) hfree

/-- **What there is to complain about is complained about.** -/
theorem exists_error_of_complains (h₀ : -dayMillis < o) (h₁ : o < dayMillis)
    (hq : before.foldlM (accept (Clock.fixed o)) empty = .ok q) {complaint part : String}
    (h : Complains before token complaint part) :
    ∃ fault, accept (Clock.fixed o) q token = .error fault ∧ fault.complaint = complaint
      ∧ fault.offending = part := by
  have hvalue : ∀ {k v fault}, Says token k v → q.check (Clock.fixed o) k v = .error fault →
      accept (Clock.fixed o) q token = .error fault := by
    intro k v fault hs hcheck
    rw [accept, splitToken?_eq_some_iff.2 hs]
    exact Except.map_eq_error_iff.2 hcheck
  cases h with
  | shape hno =>
    have hsplit : splitToken? token = none := by
      refine Option.eq_none_iff_forall_ne_some.2 fun p hp => ?_
      exact hno p.1 p.2 (splitToken?_eq_some_iff.1 hp)
    refine ⟨.malformed (String.ofList token), ?_, rfl, rfl⟩
    rw [accept, hsplit]
  | order hs hno =>
    exact ⟨_, hvalue hs (check_order_eq_error_iff.2 ⟨hno, rfl⟩), rfl, rfl⟩
  | dateField hs hno =>
    exact ⟨_, hvalue hs (check_dateField_eq_error_iff.2 (.inl ⟨hno, rfl⟩)), rfl, rfl⟩
  | @otherDateField f t w hs ht hs' hne =>
    have hfirst := (first?_dateField_eq_some_iff hq).2 ⟨t, ht, hs'⟩
    refine ⟨.conflictingDateField f.token, hvalue hs ?_, rfl, rfl⟩
    exact check_dateField_eq_error_iff.2 (.inr ⟨⟨f, rfl⟩, ⟨w, hfirst, hne⟩, rfl⟩)
  | day hk hs hno =>
    have hnone := (readDay?_fixed_eq_none_iff h₀ h₁).2 hno
    exact ⟨_, hvalue hs ((check_day_eq_error_iff hk).2 ⟨hnone, rfl⟩), rfl, rfl⟩

/-! ## The first token that is not accepted -/

/-- **What comes after the token that is not accepted makes no difference.** -/
theorem parse_eq_error_of_accept (hq : before.foldlM (accept c) empty = .ok q)
    (h : accept c q token = .error fault) (hs : before ++ [token] <+: tokens s) :
    parse c s = .error fault := by
  obtain ⟨us, hus⟩ := hs
  rw [parse, ← hus, List.append_assoc]
  exact Except.foldlM_eq_error_iff.2 ⟨before, token, us, q, rfl, hq, h⟩

theorem breaksAt_of_accept (hq : before.foldlM (accept c) empty = .ok q)
    (h : accept c q token = .error fault) (hs : tokens s = before ++ token :: after) :
    BreaksAt c (tokens s) before token after := by
  have hmem : ∀ t ∈ before ++ [token], t ∈ tokens s :=
    fun t ht => (isPrefix_of_eq_append_cons hs).subset ht
  refine ⟨hs, ⟨q, ?_⟩, fun p hp => ?_⟩
  · rwa [parse_textOf fun t ht => hmem t (List.mem_append_left _ ht)]
  · have hprefix : before ++ [token] <+: tokens (textOf (before ++ [token])) :=
      ⟨[], by rw [List.append_nil, tokens_textOf hmem]⟩
    rw [parse_eq_error_of_accept hq h hprefix] at hp
    cases hp

/-- **A text that is no query breaks at one token, and that token decides what is said about it.**
The tokens before it are read; the complaint is that of the token after these, and it carries the
whole token if the token does not say that a key has a value, and otherwise the value alone; and
every text that goes on after the token in another way fails in the same way.  Wherever there is
something to complain about in a token after others that are read, the text fails with that
complaint.  A token that says something for a folder, a person, a creator, an id or a tag never
breaks a text. -/
theorem exists_breaksAt_of_parse_eq_error (h₀ : -dayMillis < o) (h₁ : o < dayMillis) :
    (∀ s fault, parse (Clock.fixed o) s = .error fault →
      ∃ before token after, BreaksAt (Clock.fixed o) (tokens s) before token after
        ∧ (∀ b t a, BreaksAt (Clock.fixed o) (tokens s) b t a →
            b = before ∧ t = token ∧ a = after)
        ∧ (∃ complaint part, Complains before token complaint part
            ∧ fault.message = complaint ++ part ∧ fault.offending = part)
        ∧ ∀ text, before ++ [token] <+: tokens text →
            parse (Clock.fixed o) text = .error fault)
      ∧ (∀ s before token after complaint part, tokens s = before ++ token :: after →
          (∃ q, parse (Clock.fixed o) (textOf before) = .ok q) →
          Complains before token complaint part →
          ∃ fault, parse (Clock.fixed o) s = .error fault ∧ fault.message = complaint ++ part
            ∧ fault.offending = part)
      ∧ ∀ s s' token k v, k ∈ [Key.folder, .person, .creator, .id, .tag] → Says token k v →
          tokens s' = tokens s ++ [token] → (∃ q, parse (Clock.fixed o) s = .ok q) →
          ∃ q, parse (Clock.fixed o) s' = .ok q := by
  refine ⟨fun s fault h => ?_, ?_, ?_⟩
  · obtain ⟨before, token, after, q, hs, hq, hfault⟩ := Except.foldlM_eq_error_iff.1 h
    refine ⟨before, token, after, breaksAt_of_accept hq hfault hs,
      fun b t a => (breaksAt_of_accept hq hfault hs).unique, ?_,
      fun text => parse_eq_error_of_accept hq hfault⟩
    exact ⟨_, _, complains_of_accept h₀ h₁ hq hfault, rfl, rfl⟩
  · rintro s before token after complaint part hs ⟨q, hq⟩ hcomplains
    have hmem : ∀ t ∈ before, t ∈ tokens s := by
      intro t ht
      rw [hs]
      exact List.mem_append_left _ ht
    rw [parse_textOf hmem] at hq
    obtain ⟨fault, hfault, rfl, rfl⟩ := exists_error_of_complains h₀ h₁ hq hcomplains
    have hfails := parse_eq_error_of_accept hq hfault (isPrefix_of_eq_append_cons hs)
    exact ⟨fault, hfails, rfl, rfl⟩
  · rintro s s' token k v hk hs happ ⟨q, hq⟩
    refine ⟨q.insert k v, (parse_append_eq_ok_iff happ).2 ⟨q, hq, ?_⟩⟩
    rw [accept, splitToken?_eq_some_iff.2 hs]
    exact Except.map_eq_ok_iff.2 ⟨v, check_of_mem_free hk, rfl⟩

/-- Half past five ahead of UTC, a second date field breaks a text before a word that is no token at
all, and a thirteenth month breaks one before an order that there is none of; what comes after a
creator is no address, and yet it breaks nothing. -/
theorem exists_breaksAt_of_parse_eq_error_secondField :
    (∃ before token after,
      BreaksAt (Clock.fixed 19800000) (tokens "tag:a usedate:createdate usedate:lastmoddate nokey")
          before token after
        ∧ ∃ complaint part, Complains before token complaint part
            ∧ "Conflicting usedate query value: lastmoddate" = complaint ++ part
            ∧ "lastmoddate" = part)
      ∧ (∃ fault, parse (Clock.fixed 19800000) "in:inbox to:20231301 orderby:none" = .error fault
          ∧ fault.message = "Invalid date query value: " ++ "20231301"
          ∧ fault.offending = "20231301")
      ∧ ∃ q, parse (Clock.fixed 19800000) "from:00000229 creator:@@" = .ok q := by
  obtain ⟨hbreak, hfail, hfree⟩ :=
    exists_breaksAt_of_parse_eq_error (o := 19800000) (by decide) (by decide)
  refine ⟨?_, ?_, ?_⟩
  · obtain ⟨before, token, after, hbreaks, -, hsaid, -⟩ :=
      hbreak "tag:a usedate:createdate usedate:lastmoddate nokey"
        (.conflictingDateField "lastmoddate") rfl
    exact ⟨before, token, after, hbreaks, hsaid⟩
  · have hto : Says "to:20231301".toList .lastDay "20231301" := splitToken?_eq_some_iff.1 rfl
    have hnone : (Clock.fixed 19800000).readDay? "20231301".toList = none := rfl
    exact hfail "in:inbox to:20231301 orderby:none" ["in:inbox".toList] "to:20231301".toList
      ["orderby:none".toList] _ _ rfl ⟨_, rfl⟩
      (.day rfl hto ((readDay?_fixed_eq_none_iff (by decide) (by decide)).1 hnone))
  · exact hfree "from:00000229" "from:00000229 creator:@@" "creator:@@".toList .creator "@@"
      (by decide) (splitToken?_eq_some_iff.1 rfl) rfl ⟨_, rfl⟩

end WaveFinder.Query
