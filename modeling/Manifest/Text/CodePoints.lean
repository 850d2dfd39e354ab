/-!
# Sets of code points

Character classes are given as ascending lists of closed ranges of code points.
-/

namespace Manifest

/-- A set of code points, as its closed ranges in ascending order. -/
abbrev CodePoints :=
  List (Nat × Nat)

namespace CodePoints

def contains : CodePoints → Nat → Bool
  | [], _ => false
  | (low, high) :: rest, n =>
      if n < low then false else n ≤ high || contains rest n

def Ascending (ranges : CodePoints) : Prop :=
  (∀ range ∈ ranges, range.1 ≤ range.2) ∧
    ranges.Pairwise fun left right => left.2 < right.1

theorem contains_iff {ranges : CodePoints} (h : ranges.Ascending) (n : Nat) :
    contains ranges n = true ↔ ∃ range ∈ ranges, range.1 ≤ n ∧ n ≤ range.2 := by
  induction ranges with
  | nil => simp [contains]
  | cons range rest ih =>
      obtain ⟨hproper, hapart⟩ := h
      have hrest : CodePoints.Ascending rest :=
        ⟨fun r hr => hproper r (by simp [hr]), (List.pairwise_cons.1 hapart).2⟩
      have hfirst := (List.pairwise_cons.1 hapart).1
      have hrange := hproper range (by simp)
      by_cases hlow : n < range.1
      · have hno : ¬ ∃ r ∈ range :: rest, r.1 ≤ n ∧ n ≤ r.2 := by
          rintro ⟨r, hr, hle, -⟩
          rcases List.mem_cons.1 hr with rfl | hr
          · omega
          · have := hfirst r hr
            omega
        exact iff_of_false (by simp [contains, hlow]) hno
      · simp only [contains, hlow, if_false, Bool.or_eq_true, decide_eq_true_eq, ih hrest,
          List.mem_cons, exists_eq_or_imp]
        constructor
        · rintro (hhigh | hlater)
          · exact Or.inl ⟨by omega, hhigh⟩
          · exact Or.inr hlater
        · rintro (⟨-, hhigh⟩ | hlater)
          · exact Or.inl hhigh
          · exact Or.inr hlater

end CodePoints

end Manifest
