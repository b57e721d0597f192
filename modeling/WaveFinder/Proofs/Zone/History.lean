import WaveFinder.Proofs.Zone.DayEnds

/-!
# Proofs/Zone/History — clocks that are told by the history of their offset

The rules of a zone come to an offset and a sequence of changes, each at a whole second and to
another whole number of seconds.  Nothing else is asked of the sequence: changes may follow each
other at any distance and go either way, so a wall-clock time may be skipped or come any number of
times.  Looked up by trying every offset of the history, it is found as the clock shows it, which
makes every history a regular clock (`History.isRegular_clock`).
-/

namespace WaveFinder

/-! ## Occurrences among some instants -/

/-- The occurrences that some instants make up: the earliest and the latest of them. -/
def Occurrences.ofInstants (ts : List Int) : Occurrences :=
  match ts.min?, ts.max? with
  | some t, some u => if t = u then once t else twice t u
  | _, _ => skipped

/-- The instants at which a clock shows a time make up its occurrences. -/
theorem Occurrences.areOf_ofInstants {c : Clock} {w : Int} {ts : List Int}
    (h : ∀ t, t ∈ ts ↔ c.wallAt t = w) : (ofInstants ts).AreOf c w := by
  rcases hmin : ts.min? with _ | t
  · have hnil : ts = [] := List.min?_eq_none_iff.1 hmin
    subst hnil
    exact fun t ht => List.not_mem_nil ((h t).2 ht)
  · obtain ⟨htmem, hleast⟩ := List.min?_eq_some_iff.1 hmin
    obtain ⟨u, hmax⟩ : ∃ u, ts.max? = some u :=
      Option.ne_none_iff_exists'.1 fun hnone =>
        List.ne_nil_of_mem htmem (List.max?_eq_none_iff.1 hnone)
    obtain ⟨humem, hgreatest⟩ := List.max?_eq_some_iff.1 hmax
    simp only [ofInstants, hmin, hmax]
    by_cases htu : t = u
    · subst htu
      rw [if_pos rfl]
      refine fun v => ⟨fun hv => ?_, ?_⟩
      · have hmem := (h v).2 hv
        exact Int.le_antisymm (hgreatest v hmem) (hleast v hmem)
      · rintro rfl
        exact (h v).1 htmem
    · rw [if_neg htu]
      have hle := hleast u humem
      refine ⟨by omega, (h t).1 htmem, (h u).1 humem, fun v hv => ?_⟩
      exact ⟨hleast v ((h v).2 hv), hgreatest v ((h v).2 hv)⟩

/-! ## Histories -/

/-- The history of an offset: what it was at first, and what each change made of it.  Offsets are
seconds ahead of UTC, less than a day either way, and changes are named by the second from which on
they hold, the oldest first. -/
structure History where
  first : Int
  changes : List (Int × Int)
  isNear : ∀ o ∈ first :: changes.map Prod.snd, -86400 < o ∧ o < 86400

namespace History

/-- The offset at a second: what the latest of the changes until then made of it. -/
def offsetAt (h : History) (s : Int) : Int :=
  h.changes.foldl (fun o change => if change.1 ≤ s then change.2 else o) h.first

/-- The instants at which the clock of a history shows a time. -/
def instantsOf (h : History) (w : Int) : List Int :=
  ((h.first :: h.changes.map Prod.snd).map fun o => w - 1000 * o).filter
    fun t => t + 1000 * h.offsetAt (t / 1000) == w

/-- The clock of a history. -/
def clock (h : History) : Clock where
  offsetAt t := 1000 * h.offsetAt (t / 1000)
  occurrences w := .ofInstants (h.instantsOf w)

theorem foldl_change_mem (s : Int) (first : Int) (changes : List (Int × Int)) :
    changes.foldl (fun o change => if change.1 ≤ s then change.2 else o) first
      ∈ first :: changes.map Prod.snd := by
  induction changes generalizing first with
  | nil => exact List.mem_singleton_self _
  | cons change changes ih =>
    rw [List.foldl_cons, List.map_cons]
    rcases List.mem_cons.1 (ih (if change.1 ≤ s then change.2 else first)) with heq | hmem
    · rw [heq]
      split
      · exact List.mem_cons_of_mem _ (List.mem_cons_self ..)
      · exact List.mem_cons_self ..
    · exact List.mem_cons_of_mem _ (List.mem_cons_of_mem _ hmem)

theorem mem_instantsOf_iff {h : History} {w t : Int} :
    t ∈ h.instantsOf w ↔ h.clock.wallAt t = w := by
  rw [instantsOf, List.mem_filter, beq_iff_eq]
  refine and_iff_right_of_imp fun ht => List.mem_map.2 ⟨h.offsetAt (t / 1000), ?_, ?_⟩
  · exact foldl_change_mem ..
  · omega

/-- **Every history makes a regular clock.** -/
theorem isRegular_clock (h : History) : h.clock.IsRegular where
  near t := by
    have hnear := h.isNear _ (foldl_change_mem (t / 1000) h.first h.changes)
    rw [dayMillis]
    change -86400000 < 1000 * h.offsetAt (t / 1000) ∧ 1000 * h.offsetAt (t / 1000) < 86400000
    rw [offsetAt]
    omega
  whole t := Int.dvd_mul_right 1000 _
  steady t := by
    change 1000 * h.offsetAt (t / 1000) = 1000 * h.offsetAt (t / 1000 * 1000 / 1000)
    rw [Int.mul_ediv_cancel _ (by decide)]
  lookup w := Occurrences.areOf_ofInstants fun _ => mem_instantsOf_iff

end History

end WaveFinder
