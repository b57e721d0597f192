import WaveFinder.Proofs.Search.Dating
import WaveFinder.Proofs.Zone.History

/-!
# Proofs/Search/LastDay — how much of its last day a search covers

    text ──parse──▸ query ──Window.ofQuery──▸ last instant

On a clock near UTC every query has a window (`Window.exists_ofQuery`), and a text that names a last
day closes it with the widened bound of that day.  On a regular clock the bound covers the whole of
the day if the day ends, for the last time, with its last millisecond
(`Window.last_covers_iff`).  A clock that is put forward over the end of the day leaves no more than
the first instant.
-/

namespace WaveFinder

open Query

namespace Window

variable {clock : Clock} {text : String} {q : Query} {d : Date}

/-- **On a clock near UTC every query that was read has a window.** -/
theorem exists_ofQuery (hnear : clock.IsNear) (hq : parse clock text = .ok q) :
    ∃ w, ofQuery clock q = .ok w := by
  rcases instant_cases_of_parse (k := .lastDay) rfl hq with ⟨-, hno, -⟩ | ⟨d, hd, hhas, hstart⟩
  · exact ⟨_, ofQuery_of_has_eq_false hno⟩
  · obtain ⟨e, he⟩ := hnear.exists_endOfDay hd.year_bounds hstart
    exact ⟨_, ofQuery_of_endOfDay hhas he⟩

/-- **How much of its last day a search covers.**  On a regular clock a text that names a last day
has a window, which is that of its criteria under every domain.  No instant of the day lies beyond
the window if the latest instant of the day shows its last millisecond, and only then; and whatever
comes after the whole of the day lies beyond the window. -/
theorem last_covers_iff (hreg : clock.IsRegular) (hq : parse clock text = .ok q)
    (hd : FirstDate .lastDay d (tokens text)) :
    ∃ w, ofQuery clock q = .ok w
      ∧ (∀ localDomain c, Criteria.ofQuery clock localDomain q = .ok c → c.window = w)
      ∧ ((∀ t, clock.dateAt t = .ok (some d) → t ≤ w.last)
        ↔ ∃ l, clock.wallAt l = d.lastMilli ∧ ∀ t, clock.dateAt t = .ok (some d) → t ≤ l)
      ∧ ∀ t later, clock.dateAt t = .ok (some later) → d.dayNumber < later.dayNumber →
          (∀ u, clock.dateAt u = .ok (some d) → u < t) → w.last < t := by
  obtain ⟨hhas, hstart⟩ : q.has .lastDay = true
      ∧ clock.startOfDate? d = some (q.instant .lastDay) := by
    rcases instant_cases_of_parse (k := .lastDay) rfl hq with ⟨homits, -⟩ | ⟨e, he, hhas, hstart⟩
    · exact absurd homits hd.not_omits
    · exact ⟨hhas, hd.unique he ▸ hstart⟩
  obtain ⟨e, he, hdate, hcovers⟩ := hreg.endOfDay_covers_iff hd.year_bounds hstart
  have hw := ofQuery_of_endOfDay hhas he
  refine ⟨_, hw, fun localDomain c hc => ?_, hcovers, fun t _ _ _ hafter => hafter e hdate⟩
  exact Except.ok.inj ((Criteria.ofQuery_eq_ok_iff.1 hc).1.symm.trans hw)

/-- An hour ahead of UTC and put back by that hour when 1 January 1970 ends, so that its last hour
comes twice: a search up to that day reaches to the end of the second. -/
theorem last_covers_iff_putBack :
    ∃ h : History, h.first = 3600 ∧ h.changes = [(82800, 0)]
      ∧ ∃ q w, parse h.clock "to:19700101" = .ok q ∧ ofQuery h.clock q = .ok w
        ∧ w.last = 86399999
        ∧ ∀ t, h.clock.dateAt t = .ok (some ⟨1970, 1, 1, by decide⟩) → t ≤ w.last := by
  obtain ⟨h, hfirst, hchanges, q, w, hq, hw, hlast⟩ :
      ∃ h : History, h.first = 3600 ∧ h.changes = [(82800, 0)]
        ∧ ∃ q w, parse h.clock "to:19700101" = .ok q ∧ ofQuery h.clock q = .ok w
          ∧ w.last = 86399999 :=
    ⟨⟨3600, [(82800, 0)], by decide⟩, rfl, rfl, _, _, rfl, rfl, by decide⟩
  have hday : FirstDate .lastDay ⟨1970, 1, 1, by decide⟩ (tokens "to:19700101") :=
    .here (splitToken?_eq_some_iff.1 rfl) (Date.ofCompact?_eq_some_iff_isNamedBy.1 rfl)
  obtain ⟨w', hw', -, hcovers, -⟩ := last_covers_iff h.isRegular_clock hq hday
  obtain rfl : w = w' := Except.ok.inj (hw.symm.trans hw')
  have hwall : ∀ t, h.clock.wallAt t = t + 1000 * if 82800 ≤ t / 1000 then 0 else 3600 := by
    intro t
    change t + 1000 * h.offsetAt (t / 1000) = _
    rw [History.offsetAt, hfirst, hchanges]
    rfl
  refine ⟨h, hfirst, hchanges, q, w, hq, hw, hlast, hcovers.2 ⟨86399999, hwall _, fun t ht => ?_⟩⟩
  -- The clock is never behind UTC, so it shows no time of the day after that has ended in UTC.
  have hend := (Date.ofWall_eq_iff.1 ((h.isRegular_clock.near.dateAt_eq_iff (by decide)).1 ht)).2
  have hmilli : (⟨1970, 1, 1, by decide⟩ : Date).lastMilli = 86399999 := rfl
  rw [hwall, hmilli] at hend
  split at hend <;> omega

/-- Two hours behind UTC and put forward by one in the last hour of 1 January 1970, over its end: a
search up to that day ends with the first instant of it. -/
theorem last_lt_putForward :
    ∃ h : History, ∃ q w, parse h.clock "to:19700101" = .ok q ∧ ofQuery h.clock q = .ok w
      ∧ h.clock.dateAt 7200001 = .ok (some ⟨1970, 1, 1, by decide⟩)
      ∧ w.last < 7200001 :=
  ⟨⟨-7200, [(90000, -3600)], by decide⟩, _, _, rfl, rfl, rfl, by decide⟩

end Window

end WaveFinder
