import WaveFinder.Zone.Posix

/-!
# Proofs/Zone/Resolution — which instant stands for a wall-clock time

    wall-clock time ──candidates──▸ at most two instants ──resolve──▸ one of them, or none

A clock may look times up as it likes.  Resolving takes the candidate that is listed first, or the
one that is listed second, and keeps it if the clock shows the time at it.  So no time is invented
on any clock, what was read as a day is written as that day, and no two days begin at one instant
(`Clock.resolve_iff_shows`).

The candidates are not compared with each other.  The one that is taken is the earliest of them, or
the latest, exactly if the clock lists the earlier one first (`isOutermost_iff_isOrdered`).  A clock
that is put back at the end of summer lists the standard time first, which is the later one.
-/

namespace WaveFinder

/-! ## The order of the candidates -/

namespace Occurrences

variable {o : Occurrences} {choice : Choice} {t : Int}

/-- The instants, as they are listed. -/
def instants : Occurrences → List Int
  | skipped => []
  | once t => [t]
  | twice t u => [t, u]

/-- No instant is listed before an earlier one. -/
def IsOrdered (o : Occurrences) : Prop :=
  o.instants.Pairwise (· ≤ ·)

/-- An instant is the earliest of some, or the latest, as the choice between them asks. -/
def IsOutermost (o : Occurrences) (t : Int) : Choice → Prop
  | .first => t ∈ o.instants ∧ ∀ u ∈ o.instants, t ≤ u
  | .second => t ∈ o.instants ∧ ∀ u ∈ o.instants, u ≤ t

theorem mem_instants_of_choose? (h : o.choose? choice = some t) : t ∈ o.instants := by
  cases o with
  | skipped => cases h
  | once u => exact Option.some.inj h ▸ List.mem_singleton_self u
  | twice u v =>
    cases choice with
    | first => exact Option.some.inj h ▸ List.mem_cons_self ..
    | second => exact Option.some.inj h ▸ List.mem_cons_of_mem _ (List.mem_singleton_self v)

/-- **The chosen instant is the outermost one** if the instants are listed in order, and only
then. -/
theorem isOutermost_iff_isOrdered (h : o.choose? choice = some t) :
    o.IsOutermost t choice ↔ o.IsOrdered := by
  have hmem := mem_instants_of_choose? h
  cases o with
  | skipped => cases h
  | once u =>
    obtain rfl : u = t := Option.some.inj h
    have heq : ∀ v ∈ (once u).instants, v = u := fun v hv => List.mem_singleton.1 hv
    refine iff_of_true ?_ (List.pairwise_singleton _ u)
    cases choice with
    | first => exact ⟨hmem, fun v hv => Int.le_of_eq (heq v hv).symm⟩
    | second => exact ⟨hmem, fun v hv => Int.le_of_eq (heq v hv)⟩
  | twice u v =>
    cases choice with
    | first =>
      obtain rfl : u = t := Option.some.inj h
      simp [IsOutermost, IsOrdered, instants]
    | second =>
      obtain rfl : v = t := Option.some.inj h
      simp [IsOutermost, IsOrdered, instants]

end Occurrences

/-! ## What resolving comes to -/

namespace Clock

variable {c : Clock} {choice : Choice} {w : Int}

/-- There is no answer where there is no candidate, or where the clock shows another time at the
one that is chosen. -/
theorem resolve_eq_none_iff :
    c.resolve choice w = .ok none
      ↔ (c.candidates w).choose? choice = none
        ∨ ∃ t v, (c.candidates w).choose? choice = some t ∧ c.readAt t = .ok v ∧ v ≠ w := by
  rw [resolve]
  rcases (c.candidates w).choose? choice with _ | t
  · exact iff_of_true rfl (.inl rfl)
  · rcases hread : c.readAt t with e | v
    · simp [hread, Except.map]
    · simp [hread, Except.map]

/-- **Resolving never invents a time**, on any clock, however it looks times up.  An instant is
given if it is the chosen candidate and the clock shows the time at it; none is given if there is no
candidate or the chosen one shows another time.  What is given is the earliest candidate, or the
latest if that is chosen, exactly if the clock lists its candidates in order.  So a text that is
read as a day is what is written for its instant, and no two texts are read as one instant. -/
theorem resolve_iff_shows (c : Clock) :
    (∀ choice w t, c.resolve choice w = .ok (some t)
        ↔ (c.candidates w).choose? choice = some t ∧ c.readAt t = .ok w)
      ∧ (∀ choice w, c.resolve choice w = .ok none
        ↔ (c.candidates w).choose? choice = none
          ∨ ∃ t v, (c.candidates w).choose? choice = some t ∧ c.readAt t = .ok v ∧ v ≠ w)
      ∧ (∀ choice w t, c.resolve choice w = .ok (some t) →
          t ∈ (c.candidates w).instants ∧ c.wallAt t = w
            ∧ ((c.candidates w).IsOutermost t choice ↔ (c.candidates w).IsOrdered))
      ∧ (∀ cs t, c.readDay? cs = some t → c.dayText t = .ok (some cs))
      ∧ ∀ cs ds t, c.readDay? cs = some t → c.readDay? ds = some t → cs = ds := by
  refine ⟨fun _ _ _ => resolve_eq_some_iff, fun _ _ => resolve_eq_none_iff, ?_,
    fun _ _ => dayText_of_readDay?, fun _ _ _ => readDay?_inj⟩
  intro choice w t ht
  obtain ⟨hchosen, hread⟩ := resolve_eq_some_iff.1 ht
  exact ⟨Occurrences.mem_instants_of_choose? hchosen, (readAt_eq_ok_iff.1 hread).1,
    Occurrences.isOutermost_iff_isOrdered hchosen⟩

/-- Three hours behind UTC and put forward by one at the midnight of 4 November 2018, on a clock
that looks all times up as if it were not: the midnight has a candidate and no instant, and the day
before is read and written. -/
theorem resolve_iff_shows_skipped :
    ∃ c : Clock, c.candidates 1541289600000 = .once 1541300400000
      ∧ c.resolve .first 1541289600000 = .ok none ∧ c.resolve .second 1541289600000 = .ok none
      ∧ c.readDay? "20181103".toList = some 1541214000000
      ∧ c.dayText 1541214000000 = .ok (some "20181103".toList) := by
  let c : Clock :=
    { offsetAt := fun t => if 1541300400000 ≤ t then -7200000 else -10800000
      occurrences := fun w => .once (w + 10800000) }
  obtain ⟨-, hnone, -, hwritten, -⟩ := resolve_iff_shows c
  have hskipped (choice : Choice) : c.resolve choice 1541289600000 = .ok none :=
    (hnone choice _).2 (.inr ⟨1541300400000, 1541293200000, rfl, rfl, by decide⟩)
  have hread : c.readDay? "20181103".toList = some 1541214000000 := rfl
  exact ⟨c, rfl, hskipped .first, hskipped .second, hread, hwritten _ _ hread⟩

/-- Five hours behind UTC, four in summer, which ends an hour after the midnight of 3 November 2024:
that midnight comes twice, and the day is taken to begin with the second one. -/
theorem not_isOutermost_putBack :
    ∃ rule, PosixRule.ofText? "CST5CDT,M3.2.0/0,M11.1.0/1".toList = some rule
      ∧ rule.clock.candidates 1730592000000 = .twice 1730610000000 1730606400000
      ∧ rule.clock.wallAt 1730606400000 = 1730592000000
      ∧ rule.clock.resolve .first 1730592000000 = .ok (some 1730610000000)
      ∧ rule.clock.readDay? "20241103".toList = some 1730610000000
      ∧ ¬ (rule.clock.candidates 1730592000000).IsOutermost 1730610000000 .first := by
  refine ⟨_, rfl, rfl, rfl, rfl, rfl, ?_⟩
  rintro ⟨-, hle⟩
  exact absurd (hle 1730606400000 (List.mem_cons_of_mem _ (List.mem_singleton_self _))) (by decide)

end Clock

end WaveFinder
