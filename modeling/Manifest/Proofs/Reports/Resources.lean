import Manifest.Parse.Resource
import Manifest.Proofs.Parsing.Resources
import Manifest.Proofs.Reports.Requirements

/-!
# Resources report in time

A body without a title is reported at the token in its place, and a title without a colon
at the token behind it.
-/

namespace Manifest

variable {source : List Char} {warnings : List Diagnostic} {bound : Nat} {scan : Scan}
  {state : ParseState} {token : Token}

namespace ResourceAttributes

variable {read : ResourceAttributes}

theorem timely_step (hscan : scan.Tells source warnings bound)
    (hbound : read.state.remaining ≤ bound) (h : read.state.Timely source warnings) :
    (step source scan read).state.state.Timely source warnings := by
  unfold step
  split
  · exact h
  · rename_i token htoken
    have hless := ParseState.remaining_next_lt htoken
    split
    · exact h
    · dsimp only
      split
      · exact hscan.here h.next (Nat.lt_of_lt_of_le hless hbound) (by decide)
      · split
        · exact h.next
        · exact h.next

theorem timely_readAll (hscan : scan.Tells source warnings bound)
    (hbound : state.next.remaining ≤ bound) (h : state.Timely source warnings) :
    (readAll source scan state).state.Timely source warnings := by
  have hread := iterate_invariant
    (fun read : ResourceAttributes =>
      Ordered source state.next (state.next.offset source) read ∧
        read.state.Timely source warnings)
    (fun _ hread => ⟨ordered_step hscan.lays hbound hread.1,
      timely_step hscan (Nat.le_trans hread.1.leads.remaining_le hbound) hread.2⟩)
    (state.next.remaining + 1) ⟨[], none, none, state.next⟩
    ⟨ordered_begin h.next.placed, h.next⟩
  unfold readAll
  dsimp only
  rw [state_close]
  exact hread.2

end ResourceAttributes

/-! ## Resources -/

namespace ParseState

theorem timely_resourceBody (hscan : scan.Tells source warnings bound) (type : List Char)
    (offset : Nat) (title? : Option Node) (hbound : state.next.remaining ≤ bound)
    (h : state.Timely source warnings) :
    (state.resourceBody source scan type offset title?).2.Timely source warnings :=
  ResourceAttributes.timely_readAll hscan hbound h

theorem timely_resourceTitle (hscan : scan.Tells source warnings bound) (type : List Char)
    (token : Token) (hbound : state.moveNext.remaining < bound)
    (h : state.Timely source warnings) :
    (state.resourceTitle source scan type token).2.Timely source warnings ∧
      ((state.resourceTitle source scan type token).1 = none →
        (state.resourceTitle source scan type token).2 = state) := by
  unfold resourceTitle
  split
  · split
    · exact ⟨h, fun _ => rfl⟩
    · exact ⟨h, fun _ => rfl⟩
  · exact ⟨h, fun _ => rfl⟩
  · exact ⟨h, fun _ => rfl⟩
  · exact ⟨h, fun _ => rfl⟩
  · have hloud : TokenKind.Loud indexStops := by decide
    exact ⟨hscan.timely token.offset _ _ hloud hbound h.moveNext.clear, nofun⟩
  · exact ⟨h, fun _ => rfl⟩

theorem timely_resource (hscan : scan.Tells source warnings bound) (type : List Char)
    (offset : Nat) (hbound : state.remaining < bound) (h : state.Timely source warnings) :
    (state.resource source scan type offset).2.Timely source warnings := by
  have hless : state.next.remaining < bound :=
    Nat.lt_of_le_of_lt state.remaining_next_le hbound
  unfold resource
  split
  · exact timely_resourceBody hscan type offset none (Nat.le_of_lt hless) h
  · dsimp only
    split
    · exact h.next
    · rename_i token htoken
      have hmove := Nat.lt_of_le_of_lt state.next.remaining_moveNext_le hless
      have hleads := (reads_resourceTitle type hscan.lays h.next.placed htoken hmove).1
      obtain ⟨htitled, hnone⟩ := timely_resourceTitle hscan type token hmove h.next
      split
      · rename_i titled heq
        rw [heq] at hnone
        obtain rfl : titled = state.next := hnone rfl
        refine hscan.here (h.next.report htoken rfl) ?_ (by decide)
        unfold remaining
        rw [cursor_report]
        exact hless
      · rename_i title titled heq
        rw [heq] at htitled hleads
        have hcolon : titled.next.remaining < bound :=
          Nat.lt_of_le_of_lt (Nat.le_trans titled.remaining_next_le hleads.remaining_le) hless
        split
        · exact timely_resourceBody hscan type offset (some title)
            (Nat.le_of_lt (Nat.lt_of_le_of_lt titled.next.remaining_next_le hcolon)) htitled.next
        · have hreported : (titled.next.reportHere source .missingTitleColon).Timely source
              warnings := htitled.next.reportHere rfl
          split
          · refine hscan.here hreported ?_ (by decide)
            unfold remaining
            rw [cursor_reportHere]
            exact hcolon
          · exact hreported

end ParseState

end Manifest
