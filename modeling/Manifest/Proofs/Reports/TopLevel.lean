import Manifest.Proofs.Parallel.TopLevel
import Manifest.Proofs.Reports.Scans

/-!
# Manifests report in time

Declarations report errors only.  A statement that is none is warned about where it begins,
which is where the parse stands.
-/

namespace Manifest

namespace Token

def declares (token : Token) : Bool :=
  [TokenKind.kwClass, .kwNode, .kwDefine].contains token.kind

theorem kind_of_declares {token : Token} (h : token.declares = true) :
    token.kind = .kwClass ∨ token.kind = .kwNode ∨ token.kind = .kwDefine := by
  simpa [declares] using h

end Token

namespace TopLevel

def warnings (read : TopLevel) : List Diagnostic :=
  read.state.reported.filter Diagnostic.isWarning

variable {source : List Char} {known : List Diagnostic} {read : TopLevel} {token : Token}
  {reportGap : Bool} {interruption : Interruption}

theorem warnings_eq (h : read.state.Timely source known) : read.warnings = known :=
  h.inOrder.warned

/-! ## Steps -/

theorem timely_declares (read : TopLevel) (h : read.state.Timely source known)
    (hdeclares : token.declares = true) (reportGap : Bool) :
    (read.declaration source reportGap token).state.next.Timely source known ∧
      (read.declaration source reportGap token).reportedGap = read.reportedGap := by
  have hscan := Scan.tells_scan source known (read.state.next.remaining + 1)
  have hbound : read.state.next.remaining < read.state.next.remaining + 1 := Nat.lt_succ_self _
  unfold declaration
  split
  · exact ⟨ParseState.timely_classDecl hscan hbound h, rfl⟩
  · exact ⟨ParseState.timely_nodeDecl hscan hbound h, rfl⟩
  · exact ⟨ParseState.timely_defineDecl hscan hbound h, rfl⟩
  · rename_i hclass hnode hdefine
    rcases Token.kind_of_declares hdeclares with hkind | hkind | hkind
    · exact (hclass hkind).elim
    · exact (hnode hkind).elim
    · exact (hdefine hkind).elim

theorem declaration_of_not_declares (hdeclares : token.declares = false) (source : List Char)
    (reportGap : Bool) (read : TopLevel) :
    read.declaration source reportGap token = read.gap reportGap token := by
  unfold Token.declares at hdeclares
  unfold declaration
  split
  · rename_i hkind
    rw [hkind] at hdeclares
    cases hdeclares
  · rename_i hkind
    rw [hkind] at hdeclares
    cases hdeclares
  · rename_i hkind
    rw [hkind] at hdeclares
    cases hdeclares
  · rfl

theorem timely_gap (read : TopLevel) (h : read.state.Timely source known)
    (htoken : read.state.token? = some token) (reportGap : Bool) :
    (read.gap reportGap token).state.Timely source (read.gap reportGap token).warnings := by
  unfold gap
  split
  · exact h.recorded (ParseState.offset_of_token? htoken).symm
  · rw [warnings_eq h]
    exact h

/-- A parse is in time before each token of the top level. -/
theorem timely_onward (h : read.state.Timely source read.warnings)
    (htoken : read.state.token? = some token) (reportGap : Bool) :
    (read.onward source reportGap token).state.Timely source
      (read.onward source reportGap token).warnings := by
  cases hdeclares : token.declares with
  | true =>
      have hread := (timely_declares read.asked h hdeclares reportGap).1
      have hwarnings : (read.onward source reportGap token).warnings = read.warnings :=
        hread.inOrder.warned
      rw [hwarnings]
      exact hread
  | false =>
      have hgap : (read.asked.gap reportGap token).state.Timely source
          (read.asked.gap reportGap token).warnings :=
        timely_gap read.asked h htoken reportGap
      rw [← declaration_of_not_declares hdeclares source reportGap read.asked] at hgap
      exact hgap.next

theorem timely_step (h : read.state.Timely source read.warnings) :
    (step source reportGap interruption read).state.state.Timely source
      (step source reportGap interruption read).state.warnings := by
  cases htoken : read.state.token? with
  | none =>
      rw [step_of_none htoken]
      exact h
  | some token =>
      rw [step_of_token htoken]
      split
      · exact h
      · split
        · exact h
        · exact timely_onward h htoken reportGap

/-! ## Runs -/

theorem timely_iterate (read : TopLevel) (h : read.state.Timely source read.warnings)
    (fuel : Nat) :
    (iterate (step source reportGap interruption) fuel read).state.Timely source
      (iterate (step source reportGap interruption) fuel read).warnings :=
  iterate_invariant (fun read : TopLevel => read.state.Timely source read.warnings)
    (fun _ hread => timely_step hread) fuel read h

theorem timely_ofTokens (multiline : Bool) (source : List Char) :
    (ParseState.ofTokens (TokenStream.lex multiline source).tokens).next.Timely source [] :=
  ⟨placed_ofTokens multiline source, ⟨List.Pairwise.nil, rfl⟩, nofun⟩

/-- The reports of a parse start one behind the other. -/
theorem ascending_readAll (multiline reportGap : Bool) (interruption : Interruption)
    (source : List Char) :
    (readAll source reportGap interruption
      (.ofTokens (TokenStream.lex multiline source).tokens)).state.reported.Pairwise
        fun later earlier => earlier.start < later.start :=
  (timely_iterate ⟨[], false, _, 0, 0⟩ (timely_ofTokens multiline source)
    _).inOrder.ascending

end TopLevel

end Manifest
