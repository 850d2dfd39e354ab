import Manifest.Proofs.Reports.Timely

/-!
# Class references and requirements report in time

A malformed reference is reported behind its opening bracket, and its index is then read
again from the bracket on.  All that stands between the bracket and the report is quiet.
-/

namespace Manifest

variable {source : List Char} {warnings : List Diagnostic} {bound : Nat} {scan : Scan}
  {state failed : ParseState} {token : Token}

/-! ## Class references -/

namespace ParseState

theorem timely_malformedReference (h : state.Timely source warnings) (report : Bool) :
    (state.malformedReference source report).2.Timely source warnings := by
  unfold malformedReference
  split
  · exact h.reportHere rfl
  · exact h

theorem timely_classReference (h : state.Timely source warnings) (report : Bool) :
    (state.classReference source report).2.Timely source warnings := by
  unfold classReference
  dsimp only
  split
  · split
    · split
      · split
        · exact h.next.next.next
        · exact timely_malformedReference h.next.next.next report
      · exact timely_malformedReference h.next.next report
    · exact timely_malformedReference h.next.next report
  · exact timely_malformedReference h.next report

theorem cursor_of_malformed {report : Bool}
    (h : state.malformedReference source report = (none, failed)) :
    failed.cursor = state.cursor := by
  rw [← cursor_malformedReference source report state, h]

/-- Without an index, a malformed reference ends on the token behind its word. -/
theorem timely_unindexed (h : state.Timely source warnings)
    (hbracket : ¬ state.next.isAt .leftBracket = true)
    (heq : state.classReference source true = (none, failed)) :
    (ParseState.next { failed with cursor := state.cursor }).Timely source warnings := by
  have hfailed := timely_classReference h true
  rw [heq] at hfailed
  unfold classReference at heq
  dsimp only at heq
  rw [if_neg hbracket] at heq
  exact hfailed.congr (cursor_of_malformed heq).symm rfl

/-- The index of a malformed reference may be read again: the fault is with the token behind the
bracket, or with the one behind a string. -/
theorem clear_index (h : state.Timely source warnings)
    (hbracket : state.next.isAt .leftBracket = true)
    (heq : state.classReference source true = (none, failed)) :
    (ParseState.next { failed with cursor := state.cursor }).moveNext.Clear source warnings := by
  have hfailed := timely_classReference h true
  rw [heq] at hfailed
  have hplaced := placed_next h.placed
  have hname : failed.cursor = state.next.next.cursor →
      (ParseState.next { failed with cursor := state.cursor }).moveNext.Clear source warnings := by
    intro hcursor
    have hnext : (ParseState.next { failed with cursor := state.cursor }).next.Timely source
        warnings := hfailed.congr hcursor.symm rfl
    exact hnext.clear.moveNext_of_next hplaced
  unfold classReference at heq
  dsimp only at heq
  rw [if_pos hbracket] at heq
  split at heq
  · rename_i token htoken
    split at heq
    · rename_i hstring
      split at heq
      · cases heq
      · have hclosing : (ParseState.next { failed with cursor := state.cursor }).next.next.Timely
            source warnings := hfailed.congr (cursor_of_malformed heq).symm rfl
        have hquiet : token.kind.isQuiet = true := by
          rw [hstring]
          rfl
        have hagain := hclosing.clear.of_next (placed_next hplaced) htoken hquiet
        exact hagain.moveNext_of_next hplaced
    · exact hname (cursor_of_malformed heq)
  · exact hname (cursor_of_malformed heq)

end ParseState

/-! ## Names of requirements -/

namespace RequirementNames

variable {read : RequirementNames}

theorem timely_afterName (h : state.Timely source warnings) (names : List Node) :
    (afterName names state).state.state.Timely source warnings := by
  unfold afterName
  dsimp only
  split
  · exact h.next.next
  · exact h.next

theorem timely_ofClassType (hscan : scan.Tells source warnings bound)
    (hbound : read.state.next.remaining < bound) (h : read.state.Timely source warnings) :
    (ofClassType source scan read).state.state.Timely source warnings := by
  have hreference := ParseState.timely_classReference h true
  unfold ofClassType
  split
  · rename_i reference state heq
    rw [heq] at hreference
    exact timely_afterName hreference _
  · rename_i failed heq
    dsimp only
    split
    · rename_i hbracket
      have hmove : (ParseState.next { failed with cursor := read.state.cursor }).moveNext.remaining
          < bound :=
        Nat.lt_of_le_of_lt read.state.next.remaining_moveNext_le hbound
      have hindex := ParseState.clear_index h hbracket heq
      exact timely_afterName (hscan.inside hindex hmove (by decide)) _
    · rename_i hbracket
      exact ParseState.timely_unindexed h hbracket heq

theorem timely_step (hscan : scan.Tells source warnings bound)
    (hbound : read.state.remaining ≤ bound) (h : read.state.Timely source warnings) :
    (step source scan read).state.state.Timely source warnings := by
  unfold step
  split
  · exact h
  · rename_i token htoken
    have hless := ParseState.remaining_next_lt htoken
    split
    · exact timely_afterName h _
    · split
      · split
        · exact timely_ofClassType hscan (by omega) h
        · exact timely_afterName h _
      · exact h

theorem timely_readAll (hscan : scan.Tells source warnings bound)
    (hbound : state.remaining ≤ bound) (h : state.Timely source warnings) :
    (readAll source scan state).state.Timely source warnings := by
  have hread := iterate_invariant
    (fun read : RequirementNames =>
      state.Reads source (state.offset source) read.names read.state ∧
        read.state.Timely source warnings)
    (fun _ hread => ⟨reads_step hscan.lays hbound hread.1,
      timely_step hscan (Nat.le_trans hread.1.remaining_le hbound) hread.2⟩)
    (state.remaining + 1) ⟨[], state⟩
    ⟨ParseState.reads_nothing h.placed (.refl _) (Int.le_refl _), h⟩
  exact hread.2

end RequirementNames

/-! ## Requirements -/

namespace ParseState

theorem timely_bracketedNames (hscan : scan.Tells source warnings bound) {closing : TokenKind}
    (hclosing : closing.isQuiet = false) (hbound : state.next.remaining < bound)
    (h : state.Timely source warnings) :
    (state.bracketedNames source scan closing).2.Timely source warnings := by
  have hread := RequirementNames.reads_readAll hscan.lays (Nat.le_of_lt hbound) h.next.placed
  have htimely := RequirementNames.timely_readAll hscan (Nat.le_of_lt hbound) h.next
  unfold bracketedNames
  dsimp only
  split
  · have hloud : TokenKind.Loud [closing] := by
      intro kind hkind
      rwa [List.mem_singleton.1 hkind]
    exact hscan.here htimely (Nat.lt_of_le_of_lt hread.remaining_le hbound) hloud
  · exact htimely

theorem isQuiet_listClosing? {kind closing : TokenKind} (h : listClosing? kind = some closing) :
    closing.isQuiet = false := by
  unfold listClosing? at h
  split at h
  · obtain rfl := Option.some.inj h
    rfl
  · obtain rfl := Option.some.inj h
    rfl
  · cases h

theorem timely_requirementNames (hscan : scan.Tells source warnings bound)
    (hbound : state.next.remaining < bound) (h : state.Timely source warnings) :
    (state.requirementNames source scan).2.2.Timely source warnings := by
  unfold requirementNames
  dsimp only
  split
  · exact h.next
  · split
    · exact RequirementNames.timely_readAll hscan (Nat.le_of_lt hbound) h.next
    · split
      · exact h.next
      · rename_i closing hclosing
        exact timely_bracketedNames hscan (isQuiet_listClosing? hclosing)
          (Nat.lt_of_le_of_lt state.next.remaining_next_le hbound) h.next

theorem timely_requirementAt (hscan : scan.Tells source warnings bound)
    (hbound : state.next.remaining < bound) (h : state.Timely source warnings) (token : Token) :
    (state.requirementAt source scan token).2.2.Timely source warnings :=
  timely_requirementNames hscan hbound h

end ParseState

end Manifest
