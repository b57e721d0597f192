import WaveFinder.Search.Criteria
import WaveFinder.Search.Ranking

/-!
# Proofs/Search/Latest — the latest time of an entry against the maximum over its conversation

The latest time is folded up from -1, the time of an entry without conversation, so it is the
maximum over the conversation cut off at -1 (`Summary.latest_of_max?`).  From -1 on the two agree.
Of times further back nothing is left: they all come to -1, which an entry without conversation has,
too, and entries that differ in them only compare as equal (`Summary.latest_eq_maximum_iff`).
-/

namespace WaveFinder

variable {ι : Type} {s t : Summary ι}

namespace DateField

/-- The time of a document that a date field stands for. -/
def time : DateField → Document → Int
  | created => Document.created
  | modified => Document.modified

/-- The dimension that compares entries by the latest time of a date field. -/
def dimension : DateField → Dimension
  | created => .created
  | modified => .modified

end DateField

theorem Criteria.timeOf_eq_latest (f : DateField) (s : Summary ι) :
    timeOf f s = s.latest f.time := by
  cases f <;> rfl

theorem SortKey.compare_ascending (f : DateField) (s t : Summary ι) :
    (⟨f.dimension, .ascending⟩ : SortKey).compare s t
      = Ord.compare (s.latest f.time) (t.latest f.time) := by
  cases f <;> rfl

/-- Cutting two numbers off at a bound keeps their comparison if they are the same or one of them
lies above the bound. -/
theorem compare_max_max_iff {b m n : Int} :
    compare (max b m) (max b n) = compare m n ↔ m = n ∨ b < m ∨ b < n := by
  constructor
  · intro h
    by_cases hmn : m = n
    · exact .inl hmn
    · have hcut : max b m ≠ max b n := fun hcut =>
        hmn (Int.compare_eq_eq.1 (h.symm.trans (Int.compare_eq_eq.2 hcut)))
      omega
  · intro h
    rcases Int.lt_trichotomy m n with hlt | rfl | hgt
    · rw [Int.compare_eq_lt.2 hlt, Int.compare_eq_lt]
      omega
    · rw [Std.compare_self, Std.compare_self]
    · rw [Int.compare_eq_gt.2 hgt, Int.compare_eq_gt]
      omega

namespace Summary

/-- The latest time is the maximum over the conversation, but never below -1. -/
theorem latest_of_max? {time : Document → Int} {m : Int}
    (h : (s.conversation.map time).max? = some m) : s.latest time = max (-1) m := by
  rw [latest, List.foldl_max, h, Option.getD_some]

theorem latest_of_conversation_eq_nil (h : s.conversation = []) (time : Document → Int) :
    s.latest time = -1 := by
  rw [latest, h, List.map_nil, List.foldl_nil]

theorem max?_map_conversation_eq_none_iff {time : Document → Int} :
    (s.conversation.map time).max? = none ↔ s.conversation = [] := by
  rw [List.max?_eq_none_iff, List.map_eq_nil_iff]

/-- **The latest time is the maximum over the conversation down to -1.**  Without conversation it
is -1.  With one it is the maximum if that is not below -1, and -1 if that is not above -1, and only
then; and two entries with conversations compare as their maxima do if these are the same or one of
them lies above -1, and only then. -/
theorem latest_eq_maximum_iff (f : DateField) (s t : Summary ι) :
    (s.conversation = [] ∧ s.latest f.time = -1
        ∨ ∃ m, (s.conversation.map f.time).max? = some m
          ∧ (s.latest f.time = m ↔ -1 ≤ m) ∧ (s.latest f.time = -1 ↔ m ≤ -1))
      ∧ ∀ m n, (s.conversation.map f.time).max? = some m →
          (t.conversation.map f.time).max? = some n →
          ((⟨f.dimension, .ascending⟩ : SortKey).compare s t = Ord.compare m n
            ↔ m = n ∨ -1 < m ∨ -1 < n) := by
  constructor
  · rcases hmax : (s.conversation.map f.time).max? with _ | m
    · have hnil := max?_map_conversation_eq_none_iff.1 hmax
      exact .inl ⟨hnil, latest_of_conversation_eq_nil hnil _⟩
    · refine .inr ⟨m, rfl, ?_⟩
      rw [latest_of_max? hmax]
      omega
  · intro m n hm hn
    rw [SortKey.compare_ascending, latest_of_max? hm, latest_of_max? hn, compare_max_max_iff]

/-- A document from the far past comes before one from the start of 1970, although its entry is
dated only a millisecond before. -/
theorem latest_eq_maximum_iff_farPast :
    (⟨.created, .ascending⟩ : SortKey).compare
        (⟨"a", [⟨-9223372036854775807, 0, Address.unknown, true, true, []⟩]⟩ : Summary String)
        ⟨"b", [⟨-4, 0, Address.unknown, true, false, []⟩, ⟨0, 0, Address.unknown, true, true, []⟩]⟩
      = Ord.compare (-9223372036854775807 : Int) 0 := by
  refine ((latest_eq_maximum_iff .created _ _).2 (-9223372036854775807) 0 ?_ ?_).2
    (.inr (.inr ?_))
  · rfl
  · rfl
  · decide

/-- Two waves that were last changed seven and nine milliseconds before 1970 are both dated a
millisecond before it, and tie. -/
theorem latest_ne_maximum_beforeCount :
    ∃ v w : Wave, (v.summary.conversation.map Document.modified).max? = some (-7)
      ∧ (w.summary.conversation.map Document.modified).max? = some (-9)
      ∧ v.summary.latest Document.modified = -1
      ∧ (⟨.modified, .ascending⟩ : SortKey).compare v.summary w.summary = .eq :=
  ⟨⟨"v", [⟨"conv+root", ⟨"a@example.com"⟩, -5, -7, []⟩]⟩,
    ⟨"w", [⟨"conv+root", ⟨"a@example.com"⟩, -9, -9, []⟩,
      ⟨"user+a@example.com", ⟨"a@example.com"⟩, 1, 1, []⟩]⟩,
    rfl, rfl, rfl, rfl⟩

end Summary

end WaveFinder
