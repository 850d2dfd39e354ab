import Manifest.Parse.Declaration
import Manifest.Proofs.Parsing.Declarations
import Manifest.Proofs.Reports.Resources

/-!
# Declarations report in time

A declaration without a body is reported at the token in its place.  The parse goes back
from there, and is in time again where it goes on.
-/

namespace Manifest

variable {source : List Char} {warnings : List Diagnostic} {bound : Nat} {scan : Scan}
  {state : ParseState} {token : Token}

/-! ## Parameters and names -/

namespace Params

variable {read : Params}

theorem timely_stepType (h : read.state.Timely source warnings) (token : Token) :
    (stepType source token read).state.Timely source warnings := by
  unfold stepType
  dsimp only
  split
  · exact h.next
  · split
    · exact h.next
    · exact h.next

theorem timely_stepRest (hscan : scan.Tells source warnings bound)
    (hbound : read.state.next.remaining < bound) (h : read.state.Timely source warnings)
    (token : Token) : (stepRest source scan token read).state.state.Timely source warnings := by
  have hdefault : (scan.here source paramDefaultStops read.state.next).2.Timely source warnings :=
    hscan.here h.next hbound (by decide)
  unfold stepRest
  split
  · dsimp only
    split
    · exact hdefault.next
    · split
      · exact hdefault
      · exact hdefault.next
  · split
    · exact h.next
    · exact h.next

theorem timely_step (hscan : scan.Tells source warnings bound)
    (hbound : read.state.remaining ≤ bound) (h : read.state.Timely source warnings) :
    (step source scan read).state.state.Timely source warnings := by
  unfold step
  split
  · exact h
  · rename_i token htoken
    split
    · exact h
    · split
      · exact timely_stepType h token
      · have hless := ParseState.remaining_next_lt htoken
        exact timely_stepRest hscan (Nat.lt_of_lt_of_le hless hbound) h token

theorem timely_readAll (hscan : scan.Tells source warnings bound)
    (hbound : state.next.remaining ≤ bound) (h : state.Timely source warnings) :
    (readAll source scan state).state.Timely source warnings := by
  have hread := iterate_invariant
    (fun read : Params =>
      Ordered source state.next (state.next.offset source) read ∧
        read.state.Timely source warnings)
    (fun _ hread => ⟨ordered_step hscan.lays hbound hread.1,
      timely_step hscan (Nat.le_trans hread.1.leads.remaining_le hbound) hread.2⟩)
    (state.next.remaining + 1) ⟨[], none, none, none, 0, state.next⟩
    ⟨ordered_begin h.next.placed, h.next⟩
  exact hread.2

end Params

namespace NodeNames

theorem timely_step {read : NodeNames} (h : read.state.Timely source warnings) :
    (step source read).state.state.Timely source warnings := by
  unfold step
  split
  · exact h
  · split
    · exact h
    · split
      · exact h.next
      · exact h.next

theorem timely_readAll (h : state.Timely source warnings) :
    (readAll source state).state.Timely source warnings :=
  iterate_invariant (fun read : NodeNames => read.state.Timely source warnings)
    (fun _ hread => timely_step hread) _ ⟨[], state⟩ h

end NodeNames

/-! ## Parts of declarations -/

namespace ParseState

theorem timely_declarationBody (hscan : scan.Tells source warnings bound)
    (hsettled : state.cursor.Settled) (hbound : state.remaining < bound)
    (h : state.Timely source warnings) :
    (state.declarationBody source scan).2.next.Timely source warnings := by
  have hmove := Nat.lt_of_le_of_lt state.remaining_moveNext_le hbound
  unfold declarationBody
  split
  · have hbody : (scan.inside source bodyStops state).2.Timely source warnings :=
      hscan.inside h.moveNext.clear hmove (by decide)
    exact hbody.next
  · have hreported : (state.reportHere source .expectedBody).Timely source warnings :=
      h.reportHere rfl
    dsimp only
    split
    · refine hreported.next_previous ?_
      rw [cursor_reportHere]
      exact hsettled
    · exact hreported.next

theorem timely_paramList (hscan : scan.Tells source warnings bound)
    (hbound : state.remaining ≤ bound) (h : state.Timely source warnings) :
    (state.paramList source scan).2.Timely source warnings := by
  unfold paramList
  split
  · exact (Params.timely_readAll hscan (Nat.le_trans state.remaining_next_le hbound) h).next
  · exact h

theorem timely_inheritance (h : state.Timely source warnings) :
    (state.inheritance source).2.Timely source warnings := by
  unfold inheritance
  split
  · dsimp only
    split
    · split
      · exact h.next.next
      · exact h.next
    · exact h.next
  · exact h

/-! ## Declarations -/

theorem timely_classAfterName (hscan : scan.Tells source warnings bound)
    (offset nameOffset : Nat) (name : List Char) (hbound : state.next.remaining < bound)
    (h : state.Timely source warnings) :
    (state.classAfterName source scan offset nameOffset name).2.next.Timely source warnings := by
  obtain ⟨hparams, hsettled⟩ := reads_paramList hscan.lays h.next.placed (settled_next h.placed)
    (Nat.le_of_lt hbound)
  have htimely := timely_paramList hscan (Nat.le_of_lt hbound) h.next
  unfold classAfterName
  dsimp only
  generalize state.next.paramList source scan = params at hparams hsettled htimely
  obtain ⟨hinherits, hsettled⟩ := reads_inheritance hparams.placed_after hsettled
  have hbelow := Nat.lt_of_le_of_lt (Nat.le_trans hinherits.remaining_le hparams.remaining_le)
    hbound
  exact timely_declarationBody hscan hsettled hbelow (timely_inheritance htimely)

theorem timely_classDecl (hscan : scan.Tells source warnings bound)
    (hbound : state.next.remaining < bound) (h : state.Timely source warnings) :
    (state.classDecl source scan).2.next.Timely source warnings := by
  unfold classDecl
  dsimp only
  split
  · exact h.next.next
  · rename_i token _
    split
    · exact timely_classAfterName hscan (state.offset source) token.offset (token.text source)
        (Nat.lt_of_le_of_lt state.next.remaining_next_le hbound) h.next
    · exact h.next.next_previous (settled_next h.placed)

theorem timely_defineDecl (hscan : scan.Tells source warnings bound)
    (hbound : state.next.remaining < bound) (h : state.Timely source warnings) :
    (state.defineDecl source scan).2.next.Timely source warnings := by
  have hcollect := state.next.cursor.leadsTo_collectText source defineNameStops
  have hsettled := Cursor.settled_skipTrivia_collectText source defineNameStops
    (settled_next h.placed)
  unfold defineDecl
  dsimp only
  split
  · rename_i cursor heq
    rw [heq] at hcollect
    have hname : ({ state.next with cursor } : ParseState).Timely source warnings :=
      h.next.onward hcollect rfl
    exact hname.next
  · rename_i name cursor heq
    rw [heq] at hcollect hsettled
    have hskip := hcollect.trans cursor.leadsTo_skipTrivia
    have hname : ({ state with cursor := cursor.skipTrivia } : ParseState).Timely source
        warnings := h.next.onward hskip rfl
    have hbelow : ({ state with cursor := cursor.skipTrivia } : ParseState).remaining < bound :=
      Nat.lt_of_le_of_lt hskip.remaining_le hbound
    obtain ⟨hparams, hsettled⟩ :=
      reads_paramList hscan.lays hname.placed hsettled (Nat.le_of_lt hbelow)
    have hbody := timely_paramList hscan (Nat.le_of_lt hbelow) hname
    exact timely_declarationBody hscan hsettled
      (Nat.lt_of_le_of_lt hparams.remaining_le hbelow) hbody

theorem timely_nodeDecl (hscan : scan.Tells source warnings bound)
    (hbound : state.next.remaining < bound) (h : state.Timely source warnings) :
    (state.nodeDecl source scan).2.next.Timely source warnings := by
  obtain ⟨hsettled, hleads⟩ := NodeNames.settled_readAll source (settled_next h.placed)
  exact timely_declarationBody hscan hsettled (Nat.lt_of_le_of_lt hleads.remaining_le hbound)
    (NodeNames.timely_readAll h.next)

end ParseState

end Manifest
