import Manifest.Proofs.Tree.Spans

/-!
# References are laid out in their string

The references that a string mentions stand one after the other between its quotes, so
a string literal with its variables is spanned.
-/

namespace Manifest

namespace Reference

theorem length_bareName?_le {rest name : List Char} (h : bareName? rest = some name) :
    name.length ≤ rest.length := by
  unfold bareName? at h
  split at h
  · rename_i c rest
    split at h
    · obtain rfl := Option.some.inj h
      rw [List.length_cons, List.length_cons, List.length_take]
      omega
    · cases h
  · cases h

theorem length_bracedName?_le {rest name : List Char} (h : bracedName? rest = some name) :
    name.length + 2 ≤ rest.length := by
  unfold bracedName? at h
  split at h
  · rename_i c rest
    dsimp only at h
    split at h
    · rename_i behind hclosing
      split at h
      · obtain rfl := Option.some.inj h
        have hsplit := congrArg List.length
          (List.takeWhile_append_dropWhile (p := fun c => isNamePart c || c == ':') (l := rest))
        rw [List.length_append, hclosing, List.length_cons] at hsplit
        simp only [List.length_cons]
        omega
      · cases h
    · cases h
  · cases h

theorem at?_bounds {position : Nat} {rest : List Char} {reference : Reference}
    (h : at? position rest = some reference) :
    reference.position = position ∧ 1 ≤ reference.length ∧
      reference.length ≤ rest.length + 1 := by
  unfold at? at h
  cases hbraced : bracedName? rest with
  | some name =>
      have hname := length_bracedName?_le hbraced
      rw [hbraced] at h
      obtain rfl := Option.some.inj h
      exact ⟨rfl, by dsimp only; omega, by dsimp only; omega⟩
  | none =>
      rw [hbraced] at h
      obtain ⟨name, hbare, rfl⟩ := Option.map_eq_some_iff.1 h
      have hname := length_bareName?_le hbare
      exact ⟨rfl, by dsimp only; omega, by dsimp only; omega⟩

theorem here?_bounds {before : Option Char} {position : Nat} {text : List Char}
    {reference : Reference} (h : here? before position text = some reference) :
    position ≤ reference.position ∧ 1 ≤ reference.length ∧
      reference.position + reference.length ≤ position + text.length := by
  unfold here? at h
  split at h
  · cases h
  · dsimp only at h
    split at h
    · rename_i rest hdrop
      obtain ⟨hposition, hpos, hlength⟩ := at?_bounds h
      have hrest := congrArg List.length hdrop
      rw [List.length_drop, List.length_cons] at hrest
      omega
    · cases h

/-- The references that are found follow one another in what is left of the text. -/
theorem laid_findAfter (start : Int) (skip : Nat) (before : Option Char) (position : Nat)
    (text : List Char) (hskip : skip ≤ text.length) :
    Node.Laid (start + position + skip)
      ((findAfter skip before position text).map (Node.ofReference start))
      (start + position + text.length) := by
  induction text generalizing skip before position with
  | nil =>
      rw [List.length_nil] at hskip
      obtain rfl : skip = 0 := by omega
      have hnone : findAfter 0 before position [] = [] := by
        unfold findAfter
        rfl
      rw [hnone]
      exact Node.laid_nil (Int.le_refl _)
  | cons c rest ih =>
      rw [List.length_cons] at hskip ⊢
      cases skip with
      | succ skip =>
          rw [findAfter]
          have hrest := ih skip (some c) (position + 1) (by omega)
          refine (hrest.from ?_).upTo ?_
          · omega
          · omega
      | zero =>
          rw [findAfter]
          cases hhere : here? before position (c :: rest) with
          | none =>
              have hrest := ih 0 (some c) (position + 1) (Nat.zero_le _)
              refine (hrest.from ?_).upTo ?_
              · omega
              · omega
          | some reference =>
              obtain ⟨hposition, hpos, hend⟩ := here?_bounds hhere
              rw [List.length_cons] at hend
              have hrest := ih (reference.position + reference.length - position - 1) (some c)
                (position + 1) (by omega)
              have hfits : Node.Fits (start + reference.position) (Node.ofReference start reference)
                  (start + reference.position + reference.length) :=
                Node.fits_leaf (Int.natCast_nonneg _) (Int.le_refl _)
              have hhead := (hfits.from (show start + position + (0 : Nat) ≤ _ by omega)).laid
              refine hhead.append ((hrest.from ?_).upTo ?_)
              · omega
              · omega

end Reference

namespace Node

theorem laid_interpolated (offset : Int) (raw : List Char) :
    Laid offset (interpolated offset raw) (offset + raw.length) := by
  unfold interpolated
  split
  · rename_i hquoted
    have hlength : 2 ≤ raw.length := by
      unfold Quotation.isQuotedBy at hquoted
      simp only [Bool.and_eq_true, decide_eq_true_eq] at hquoted
      exact hquoted.1.1
    have hinner : (Quotation.inner raw).length = raw.length - 2 := by
      unfold Quotation.inner
      rw [List.length_dropLast, List.length_drop]
      omega
    have hlaid := Reference.laid_findAfter (offset + 1) 0 none 0 (Quotation.inner raw)
      (Nat.zero_le _)
    refine (hlaid.from ?_).upTo ?_
    · omega
    · omega
  · exact laid_nil (by omega)

theorem fits_string (offset : Int) (raw : List Char) :
    Fits offset (string offset raw) (offset + raw.length) :=
  fits_unended (Int.le_refl _) (Int.natCast_nonneg _) (Int.le_refl _)
    (laid_interpolated offset raw)

end Node

end Manifest
