import Manifest.Proofs.Checked.Declarations
import Manifest.Proofs.Parsing.Branches

/-!
# Checked case statements and conditions

An arm may begin on the token where the one before ended; each arm still ends on a colon,
which is passed over.
-/

namespace Manifest

namespace Checked

def armStep (source : List Char) (scan : CheckedScan) (read : CaseArms) :
    Except ParseFault (Progress CaseArms) := do
  if read.state.token?.isNone || read.state.isAt .rightBrace then return .done read
  else
    let (arm, colon) ← scan.here source caseArmStops read.state
    let parts := read.parts ++ [arm]
    if colon.token?.isNone then return .done { read with parts, state := colon }
    else
      let brace := colon.next
      if brace.isAt .leftBrace then
        let (body, state) ← scan.here source bodyStops brace.next
        return .again
          { parts := parts ++ [body]
            arms := read.arms ++ [(.child read.parts.length, .child parts.length)]
            state := state.next }
      else return .again { read with parts, state := brace }

def readArms (source : List Char) (scan : CheckedScan) (control : Node) (state : ParseState) :
    Except ParseFault CaseArms :=
  loop (armStep source scan) (state.remaining + 1) ⟨[control], [], state⟩

def caseStatement (source : List Char) (scan : CheckedScan) (state : ParseState) :
    Except ParseFault (Node × ParseState) := do
  let (control, brace) ← scan.here source conditionStops state.next
  let read ← readArms source scan control brace.next
  return (⟨state.offset source, read.state.token?.map fun token => (token.stop : Int),
    .caseStmt (some (.child 0)) read.arms, read.parts⟩, read.state)

def branch (source : List Char) (scan : CheckedScan) (state : ParseState) :
    Except ParseFault (Branch × ParseState) := do
  let (condition, brace) ← scan.here source conditionStops state.next
  let (consequence, last) ← scan.here source bodyStops brace.next
  return (⟨state.offset source, condition, consequence⟩, last)

def branchStep (source : List Char) (scan : CheckedScan) (allowElsif : Bool) (read : Branches) :
    Except ParseFault (Progress Branches) := do
  match read.state.kind? with
  | some .kwElse =>
      let brace := read.state.next
      if brace.isAt .leftBrace then
        let (otherwise, state) ← scan.here source bodyStops brace.next
        return .done { read with otherwise? := some otherwise, state }
      else return .done { read with state := brace.previous }
  | some .kwElsif =>
      if allowElsif then
        let (branch, state) ← branch source scan read.state
        return .again { read with branches := read.branches ++ [branch], state := state.next }
      else return .done { read with state := read.state.previous }
  | _ => return .done { read with state := read.state.previous }

def readBranches (source : List Char) (scan : CheckedScan) (allowElsif : Bool)
    (state : ParseState) : Except ParseFault Branches :=
  loop (branchStep source scan allowElsif) (state.remaining + 1) ⟨[], none, state⟩

def condition (source : List Char) (scan : CheckedScan) (allowElsif : Bool)
    (state : ParseState) : Except ParseFault (Node × ParseState) := do
  let (first, last) ← branch source scan state
  let read ← readBranches source scan allowElsif last.next
  return (first.chain read.branches read.otherwise?, read.state)

end Checked

/-! ## Their checks hold -/

variable {source : List Char} {bound : Nat} {checked : CheckedScan} {scan : Scan}
  {first state : ParseState} {start : Int}

theorem CaseArms.remaining_step {read next : CaseArms} (hscan : scan.Lays source bound)
    (hbound : read.state.remaining < bound) (hplaced : read.state.cursor.Placed source)
    (h : step source scan read = .again next) :
    next.state.remaining < read.state.remaining := by
  have harm := hscan.here hplaced hbound caseArmStops
  unfold step at h
  split at h
  · cases h
  · dsimp only at h
    generalize scan.here source caseArmStops read.state = arm at h harm
    have hcolon := harm.leads.remaining_le
    split at h
    · cases h
    · rename_i hend
      obtain ⟨token, htoken⟩ : ∃ token, arm.2.token? = some token :=
        Option.ne_none_iff_exists'.1 fun hnone => hend (by rw [hnone]; rfl)
      have hless := ParseState.remaining_next_lt htoken
      have hbrace : arm.2.next.remaining < read.state.remaining := Nat.lt_of_lt_of_le hless hcolon
      split at h
      · have hlater := arm.2.next.remaining_next_le
        have hplacedBrace := ParseState.placed_next (ParseState.placed_next
          (harm.leads.placed harm.placed))
        have hbody := (hscan.here hplacedBrace (by omega) bodyStops).leads.remaining_le
        have hlast := (scan.here source bodyStops arm.2.next.next).2.remaining_next_le
        obtain rfl := Progress.again.inj h
        exact Nat.lt_of_le_of_lt (Nat.le_trans hlast (Nat.le_trans hbody hlater)) hbrace
      · obtain rfl := Progress.again.inj h
        exact hbrace

namespace Checked

theorem armStep_eq {read : CaseArms} (hscan : checked.Agrees source bound scan)
    (hbound : read.state.remaining < bound) (hplaced : read.state.cursor.Placed source) :
    armStep source checked read = .ok (CaseArms.step source scan read) := by
  have harm := hscan.lays.here hplaced hbound caseArmStops
  unfold armStep CaseArms.step
  rw [hscan.here hplaced hbound]
  dsimp only [bind, Except.bind]
  generalize scan.here source caseArmStops read.state = arm at harm
  have hbrace := ParseState.placed_next (ParseState.placed_next (harm.leads.placed harm.placed))
  have hcolon : arm.2.remaining ≤ read.state.remaining := harm.leads.remaining_le
  have hnext := arm.2.remaining_next_le
  have hlater := arm.2.next.remaining_next_le
  rw [hscan.here hbrace (by omega)]
  split
  · rfl
  · split
    · rfl
    · split <;> rfl

theorem readArms_eq {control : Node} (hscan : checked.Agrees source bound scan)
    (hbound : first.remaining < bound) (h : first.Reads source start [control] state) :
    readArms source checked control state = .ok (CaseArms.readAll source scan control state) := by
  refine loop_eq (fun read => first.Reads source start read.parts read.state)
    (fun read => read.state.remaining) (fun read hread => ?_) (fun read next hread hstep => ?_)
    _ _ h (Nat.lt_succ_self _)
  · exact armStep_eq hscan (Nat.lt_of_le_of_lt hread.remaining_le hbound) hread.placed_after
  · have hnext := CaseArms.reads_step hscan.lays hbound hread
    rw [hstep] at hnext
    exact ⟨hnext, CaseArms.remaining_step hscan.lays
      (Nat.lt_of_le_of_lt hread.remaining_le hbound) hread.placed_after hstep⟩

theorem caseStatement_eq (hscan : checked.Agrees source bound scan)
    (hbound : state.next.remaining < bound) (hplaced : state.cursor.Placed source) :
    caseStatement source checked state = .ok (state.caseStatement source scan) := by
  have hnext := ParseState.placed_next hplaced
  have hcontrol := (hscan.lays.here hnext hbound conditionStops).reads
  unfold caseStatement ParseState.caseStatement
  rw [hscan.here hnext hbound]
  dsimp only [bind, Except.bind]
  rw [readArms_eq hscan hbound hcontrol]
  rfl

theorem branch_eq (hscan : checked.Agrees source bound scan) (hbound : state.next.remaining < bound)
    (hplaced : state.cursor.Placed source) :
    branch source checked state = .ok (state.branch source scan) := by
  have hnext := ParseState.placed_next hplaced
  have hcondition := (hscan.lays.here hnext hbound conditionStops).reads
  unfold branch ParseState.branch
  rw [hscan.here hnext hbound]
  dsimp only [bind, Except.bind]
  rw [hscan.here hcondition.placed_after (Nat.lt_of_le_of_lt hcondition.remaining_le hbound)]
  rfl

theorem branchStep_eq {read : Branches} (hscan : checked.Agrees source bound scan)
    (allowElsif : Bool) (hbound : read.state.remaining < bound)
    (hplaced : read.state.cursor.Placed source) :
    branchStep source checked allowElsif read =
      .ok (Branches.step source scan allowElsif read) := by
  have hnext := ParseState.placed_next hplaced
  have hle := read.state.remaining_next_le
  have hlater := read.state.next.remaining_next_le
  unfold branchStep Branches.step
  rw [branch_eq hscan (by omega) hplaced]
  dsimp only
  rw [hscan.here (ParseState.placed_next hnext) (by omega)]
  cases read.state.kind? with
  | none => rfl
  | some kind => cases kind <;> first | rfl | (dsimp only; split <;> rfl)

theorem readBranches_eq (hscan : checked.Agrees source bound scan) (allowElsif : Bool)
    (hbound : first.remaining < bound) (h : Branches.Open source first start ⟨[], none, state⟩) :
    readBranches source checked allowElsif state =
      .ok (Branches.readAll source scan allowElsif state) := by
  refine loop_eq (Branches.Open source first start) (fun read => read.state.remaining)
    (fun read hread => ?_) (fun read next hread hstep => ?_) _ _ h (Nat.lt_succ_self _)
  · exact branchStep_eq hscan allowElsif (Nat.lt_of_le_of_lt hread.leads.remaining_le hbound)
      (hread.leads.placed hread.placed)
  · exact Branches.open_step hscan.lays hbound hread hstep

theorem condition_eq (hscan : checked.Agrees source bound scan) (allowElsif : Bool)
    (hbound : state.next.remaining < bound) (hplaced : state.cursor.Placed source) :
    condition source checked allowElsif state = .ok (state.condition source scan allowElsif) := by
  have hnext := ParseState.placed_next hplaced
  obtain ⟨-, hbranch, hsettled⟩ := ParseState.reads_branch hscan.lays hplaced hbound
  have hopen : Branches.Open source state.next ((state.branch source scan).2.next.offset source)
      ⟨[], none, (state.branch source scan).2.next⟩ :=
    ⟨hnext, hbranch.leads, hsettled, rfl, Int.le_refl _⟩
  unfold condition ParseState.condition
  rw [branch_eq hscan hbound hplaced]
  dsimp only [bind, Except.bind]
  rw [readBranches_eq hscan allowElsif hbound hopen]
  rfl

end Checked

end Manifest
