import Mathlib.Data.List.Basic
import Manifest.Tree.Forest

/-!
# Insertion into a row of children

The place of a new child is found by a search that halves the row.  In a row that is sorted by
offset the search finds the place before the first child of a greater offset, so the row stays
sorted, and a child comes behind all those of its own offset.
-/

namespace Manifest

namespace Forest

/-- The first index between two bounds from which on `beyond` holds.  Each step leaves out half of
the indices. -/
def bisect (beyond : Nat → Bool) (low high : Nat) : Nat :=
  if low < high then
    let middle := (low + high) / 2
    if beyond middle then bisect beyond low middle else bisect beyond (middle + 1) high
  else
    low
termination_by high - low
decreasing_by all_goals omega

def isBeyond (offsetOf : Nat → Int) (id : Nat) (row : List Nat) (index : Nat) : Bool :=
  row[index]?.any fun other => decide (offsetOf id < offsetOf other)

def insertSorted (offsetOf : Nat → Int) (id : Nat) (row : List Nat) : List Nat :=
  row.insertIdx (bisect (isBeyond offsetOf id row) 0 row.length) id

variable {offsetOf : Nat → Int} {beyond : Nat → Bool} {id other index low high : Nat}
  {row : List Nat} {before : Nat → Nat → Prop}

/-! ## Search -/

/-- What holds from some index on is found where it begins to hold. -/
theorem bisect_spec (hmono : ∀ first second, first ≤ second → second < high →
      beyond first = true → beyond second = true) (hle : low ≤ high) :
    low ≤ bisect beyond low high ∧ bisect beyond low high ≤ high ∧
      (∀ index, low ≤ index → index < bisect beyond low high → beyond index = false) ∧
      ∀ index, bisect beyond low high ≤ index → index < high → beyond index = true := by
  -- The bounds close in on the index, and `beyond` is known outside of them.
  fun_induction bisect beyond low high with
  | case1 low high hless middle hbeyond ih =>
      have hmiddle : low ≤ middle ∧ middle < high := by omega
      obtain ⟨hlow, hhigh, hfalse, htrue⟩ :=
        ih (fun first second hfirst hsecond => hmono first second hfirst (by omega)) hmiddle.1
      refine ⟨hlow, by omega, hfalse, fun index hindex hend => ?_⟩
      by_cases hbelow : index < middle
      · exact htrue index hindex hbelow
      · exact hmono middle index (by omega) hend hbeyond
  | case2 low high hless middle hbeyond ih =>
      have hmiddle : low ≤ middle ∧ middle < high := by omega
      obtain ⟨hlow, hhigh, hfalse, htrue⟩ := ih hmono (by omega)
      refine ⟨by omega, hhigh, fun index hindex hend => ?_, htrue⟩
      by_cases habove : middle < index
      · exact hfalse index habove hend
      · by_contra hholds
        exact hbeyond (hmono index middle (by omega) hmiddle.2 (by simpa using hholds))
  | case3 low high hless =>
      exact ⟨Nat.le_refl _, hle, fun index _ _ => by omega, fun index _ _ => by omega⟩

/-- Between those that are not beyond and one that is there is one place to insert at. -/
theorem insertByOffset_eq_insertIdx (hindex : index ≤ row.length)
    (hbelow : ∀ earlier < index, isBeyond offsetOf id row earlier = false)
    (hat : index < row.length → isBeyond offsetOf id row index = true) :
    insertByOffset offsetOf id row = row.insertIdx index id := by
  induction row generalizing index with
  | nil =>
      obtain rfl : index = 0 := Nat.le_zero.1 hindex
      rfl
  | cons first row ih =>
      unfold insertByOffset
      cases index with
      | zero =>
          have hless : offsetOf id < offsetOf first := by
            simpa [isBeyond] using hat (Nat.zero_lt_succ _)
          rw [if_pos hless]
          rfl
      | succ index =>
          have hless : ¬ offsetOf id < offsetOf first := by
            simpa [isBeyond] using hbelow 0 (Nat.zero_lt_succ _)
          rw [if_neg hless, List.insertIdx_succ_cons]
          refine congrArg _ (ih (Nat.le_of_succ_le_succ hindex) (fun earlier hearlier => ?_)
            fun hend => ?_)
          · exact hbelow (earlier + 1) (Nat.succ_lt_succ hearlier)
          · exact hat (Nat.succ_lt_succ hend)

/-- In a sorted row the search finds the place before the first child of a greater offset. -/
theorem insertSorted_eq (h : row.Pairwise fun left right => offsetOf left ≤ offsetOf right) :
    insertSorted offsetOf id row = insertByOffset offsetOf id row := by
  have hmono : ∀ first second, first ≤ second → second < row.length →
      isBeyond offsetOf id row first = true → isBeyond offsetOf id row second = true := by
    intro first second hle hsecond hbeyond
    have hfirst : first < row.length := Nat.lt_of_le_of_lt hle hsecond
    unfold isBeyond at hbeyond ⊢
    rw [List.getElem?_eq_getElem hfirst] at hbeyond
    rw [List.getElem?_eq_getElem hsecond]
    have hless : offsetOf id < offsetOf row[first] := of_decide_eq_true hbeyond
    refine decide_eq_true ?_
    rcases Nat.lt_or_eq_of_le hle with hless' | rfl
    · have hsorted := List.pairwise_iff_getElem.1 h first second hfirst hsecond hless'
      omega
    · exact hless
  obtain ⟨-, hend, hbelow, hat⟩ := bisect_spec hmono (Nat.zero_le _)
  exact (insertByOffset_eq_insertIdx hend (fun earlier => hbelow earlier (Nat.zero_le _))
    (hat _ (Nat.le_refl _))).symm

/-! ## Rows with a new child -/

theorem perm_insertByOffset (offsetOf : Nat → Int) (id : Nat) (row : List Nat) :
    (insertByOffset offsetOf id row).Perm (id :: row) := by
  induction row with
  | nil => exact .refl _
  | cons first row ih =>
      unfold insertByOffset
      split
      · exact .refl _
      · exact (ih.cons first).trans (.swap id first row)

/-- A row in which each child comes before the next stays so, if the new child comes behind those
of no greater offset and before those of a greater one. -/
theorem pairwise_insertByOffset (h : row.Pairwise before)
    (hsorted : row.Pairwise fun left right => offsetOf left ≤ offsetOf right)
    (hbehind : ∀ other ∈ row, offsetOf other ≤ offsetOf id → before other id)
    (hahead : ∀ other ∈ row, offsetOf id < offsetOf other → before id other) :
    (insertByOffset offsetOf id row).Pairwise before := by
  induction row with
  | nil => exact List.pairwise_singleton _ _
  | cons first row ih =>
      rw [List.pairwise_cons] at h hsorted
      rw [List.forall_mem_cons] at hbehind hahead
      unfold insertByOffset
      split
      · rename_i hless
        refine List.pairwise_cons.2 ⟨fun other hother => ?_, List.pairwise_cons.2 h⟩
        rcases List.mem_cons.1 hother with rfl | hother
        · exact hahead.1 hless
        · have hle := hsorted.1 other hother
          exact hahead.2 other hother (by omega)
      · rename_i hless
        refine List.pairwise_cons.2 ⟨fun other hother => ?_,
          ih h.2 hsorted.2 hbehind.2 hahead.2⟩
        rcases List.mem_cons.1 ((perm_insertByOffset offsetOf id row).mem_iff.1 hother) with
          rfl | hother
        · exact hbehind.1 (by omega)
        · exact h.1 other hother

end Forest

end Manifest
