import Manifest.Parse.Branching
import Manifest.Proofs.Parsing.Branches
import Manifest.Proofs.Reports.Declarations

/-!
# Case statements and conditions report in time

Nothing is reported of an arm or of a branch itself; what is read inside of them is.
-/

namespace Manifest

variable {source : List Char} {warnings : List Diagnostic} {bound : Nat} {scan : Scan}
  {first state : ParseState} {start : Int}

/-! ## Case statements -/

namespace CaseArms

variable {read : CaseArms}

theorem timely_step (hscan : scan.Tells source warnings bound)
    (hbound : read.state.remaining < bound) (h : read.state.Timely source warnings) :
    (step source scan read).state.state.Timely source warnings := by
  have hstretch := (hscan.lays.here h.placed hbound caseArmStops).leads.remaining_le
  have harm : (scan.here source caseArmStops read.state).2.Timely source warnings :=
    hscan.here h hbound (by decide)
  unfold step
  split
  · exact h
  · dsimp only
    generalize scan.here source caseArmStops read.state = arm at hstretch harm
    split
    · exact harm
    · split
      · have hbrace : arm.2.next.next.remaining ≤ read.state.remaining :=
          Nat.le_trans arm.2.next.remaining_next_le
            (Nat.le_trans arm.2.remaining_next_le hstretch)
        have hbody : (scan.here source bodyStops arm.2.next.next).2.Timely source warnings :=
          hscan.here harm.next.next (Nat.lt_of_le_of_lt hbrace hbound) (by decide)
        exact hbody.next
      · exact harm.next

theorem timely_readAll (hscan : scan.Tells source warnings bound)
    (hbound : first.remaining < bound) {control : Node}
    (hreads : first.Reads source start [control] state) (h : state.Timely source warnings) :
    (readAll source scan control state).state.Timely source warnings := by
  have hread := iterate_invariant
    (fun read : CaseArms => first.Reads source start read.parts read.state ∧
      read.state.Timely source warnings)
    (fun _ hread => ⟨reads_step hscan.lays hbound hread.1,
      timely_step hscan (Nat.lt_of_le_of_lt hread.1.remaining_le hbound) hread.2⟩)
    (state.remaining + 1) ⟨[control], [], state⟩ ⟨hreads, h⟩
  exact hread.2

end CaseArms

namespace ParseState

theorem timely_caseStatement (hscan : scan.Tells source warnings bound)
    (hbound : state.next.remaining < bound) (h : state.Timely source warnings) :
    (state.caseStatement source scan).2.Timely source warnings := by
  have hreads := (hscan.lays.here h.next.placed hbound conditionStops).reads
  have hcontrol : (scan.here source conditionStops state.next).2.Timely source warnings :=
    hscan.here h.next hbound (by decide)
  exact CaseArms.timely_readAll hscan hbound hreads hcontrol.next

/-! ## Conditions -/

theorem timely_branch (hscan : scan.Tells source warnings bound)
    (hbound : state.next.remaining < bound) (h : state.Timely source warnings) :
    (state.branch source scan).2.Timely source warnings := by
  have hreads := (hscan.lays.here h.next.placed hbound conditionStops).reads
  have hcondition : (scan.here source conditionStops state.next).2.Timely source warnings :=
    hscan.here h.next hbound (by decide)
  exact hscan.here hcondition.next (Nat.lt_of_le_of_lt hreads.remaining_le hbound) (by decide)

end ParseState

namespace Branches

variable {read next last : Branches} {allowElsif : Bool}

theorem timely_again (hscan : scan.Tells source warnings bound) (hbound : first.remaining < bound)
    (hopen : Open source first start read) (h : read.state.Timely source warnings)
    (hstep : step source scan allowElsif read = .again next) :
    next.state.Timely source warnings := by
  have hle : read.state.next.remaining ≤ first.remaining :=
    Nat.le_trans read.state.remaining_next_le hopen.leads.remaining_le
  unfold step at hstep
  split at hstep
  · dsimp only at hstep
    split at hstep
    · cases hstep
    · cases hstep
  · split at hstep
    · obtain rfl := Progress.again.inj hstep
      exact (ParseState.timely_branch hscan (Nat.lt_of_le_of_lt hle hbound) h).next
    · cases hstep
  · cases hstep

/-- The parse goes on in time, also behind a token that was looked at only. -/
theorem timely_done (hscan : scan.Tells source warnings bound) (hbound : first.remaining < bound)
    (hopen : Open source first start read) (h : read.state.Timely source warnings)
    (hstep : step source scan allowElsif read = .done last) :
    last.state.next.Timely source warnings := by
  have hle : read.state.next.next.remaining ≤ first.remaining :=
    Nat.le_trans read.state.next.remaining_next_le
      (Nat.le_trans read.state.remaining_next_le hopen.leads.remaining_le)
  unfold step at hstep
  split at hstep
  · dsimp only at hstep
    split at hstep
    · obtain rfl := Progress.done.inj hstep
      have hotherwise : (scan.here source bodyStops read.state.next.next).2.Timely source
          warnings := hscan.here h.next.next (Nat.lt_of_le_of_lt hle hbound) (by decide)
      exact hotherwise.next
    · obtain rfl := Progress.done.inj hstep
      exact h.next.next_previous hopen.settled.next
  · split at hstep
    · cases hstep
    · obtain rfl := Progress.done.inj hstep
      exact h.next_previous hopen.settled
  · obtain rfl := Progress.done.inj hstep
    exact h.next_previous hopen.settled

theorem timely_readAll (hscan : scan.Tells source warnings bound)
    (hbound : first.remaining < bound) (hopen : Open source first start ⟨[], none, state⟩)
    (h : state.Timely source warnings) (allowElsif : Bool) :
    (readAll source scan allowElsif state).state.next.Timely source warnings := by
  obtain ⟨last, ⟨hlast, htimely⟩, hstep⟩ := iterate_ends
    (fun read : Branches => Open source first start read ∧ read.state.Timely source warnings)
    (fun read => read.state.remaining)
    (fun read next hread hstep => by
      obtain ⟨hnext, hless⟩ := open_step hscan.lays hbound hread.1 hstep
      exact ⟨⟨hnext, timely_again hscan hbound hread.1 hread.2 hstep⟩, hless⟩)
    (state.remaining + 1) ⟨[], none, state⟩ ⟨hopen, h⟩ (Nat.lt_succ_self _)
  exact timely_done hscan hbound hlast htimely hstep

end Branches

theorem ParseState.timely_condition (hscan : scan.Tells source warnings bound)
    (hbound : state.next.remaining < bound) (h : state.Timely source warnings)
    (allowElsif : Bool) :
    (state.condition source scan allowElsif).2.next.Timely source warnings := by
  obtain ⟨-, hbranch, hsettled⟩ := reads_branch hscan.lays h.placed hbound
  have hopen : Branches.Open source state.next ((state.branch source scan).2.next.offset source)
      ⟨[], none, (state.branch source scan).2.next⟩ :=
    ⟨h.next.placed, hbranch.leads, hsettled, rfl, Int.le_refl _⟩
  exact Branches.timely_readAll hscan hbound hopen (timely_branch hscan hbound h).next allowElsif

end Manifest
