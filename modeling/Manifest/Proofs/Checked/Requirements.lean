import Manifest.Proofs.Checked.Checks
import Manifest.Proofs.Parsing.Requirements

/-!
# Checked requirements

A malformed reference is read again from the index of its word; that index can be
returned to.  Each name of a requirement is followed by a comma before the next one.
-/

namespace Manifest

namespace Checked

/-! ## Class references -/

def malformedReference (source : List Char) (report : Bool) (state : ParseState) :
    Except ParseFault (Option Node × ParseState) := do
  if report then return (none, ← reportHere source .malformedClassReference state)
  else return (none, state)

def classReference (source : List Char) (report : Bool) (state : ParseState) :
    Except ParseFault (Option Node × ParseState) :=
  let bracket := state.next
  if bracket.isAt .leftBracket then
    let name := bracket.next
    match name.token? with
    | some token =>
        if token.kind = .string then
          let closing := name.next
          if closing.isAt .rightBracket then
            .ok (some (ParseState.quotedClassRef source token), closing)
          else malformedReference source report closing
        else malformedReference source report name
    | none => malformedReference source report name
  else malformedReference source report bracket

/-! ## Names of requirements -/

open RequirementNames (afterName)

/-- Read `Class`; after a malformed reference, return to it. -/
def classTypeNames (source : List Char) (scan : CheckedScan) (read : RequirementNames) :
    Except ParseFault (Progress RequirementNames) := do
  let start := read.state.cursor.index
  match ← classReference source true read.state with
  | (some reference, state) => return afterName (read.names ++ [reference]) state
  | (none, failed) =>
      let bracket := (← returnTo start failed).next
      if bracket.isAt .leftBracket then
        let (index, state) ← scan.inside source indexStops bracket
        return afterName (read.names ++ [index]) state
      else return .done ⟨read.names, bracket⟩

def requirementNameStep (source : List Char) (scan : CheckedScan) (read : RequirementNames) :
    Except ParseFault (Progress RequirementNames) :=
  match read.state.token? with
  | none => .ok (.done read)
  | some token =>
      if token.kind = .string then
        .ok (afterName (read.names ++ [ParseState.quotedClassRef source token]) read.state)
      else if token.kind = .identifier then
        if token.text source = classTypeName then classTypeNames source scan read
        else
          .ok (afterName
            (read.names ++ [Node.classRef token.offset token.offset (token.text source)])
            read.state)
      else .ok (.done read)

def readNames (source : List Char) (scan : CheckedScan) (state : ParseState) :
    Except ParseFault RequirementNames :=
  loop (requirementNameStep source scan) (state.remaining + 1) ⟨[], state⟩

/-! ## Requirements -/

def bracketedNames (source : List Char) (scan : CheckedScan) (closing : TokenKind)
    (state : ParseState) : Except ParseFault (List Node × ParseState) := do
  let read ← readNames source scan state.next
  if !read.state.isAt closing && read.state.token?.isSome then
    let (rest, state) ← scan.here source [closing] read.state
    return (read.names ++ [rest], state)
  else return (read.names, read.state)

def requirementNames (source : List Char) (scan : CheckedScan) (state : ParseState) :
    Except ParseFault (List Node × Bool × ParseState) := do
  let following := state.next
  match following.kind? with
  | none => return ([], false, following)
  | some kind =>
      if requirementNameKinds.contains kind then
        let read ← readNames source scan following
        return (read.names, false, read.state)
      else
        match ParseState.listClosing? kind with
        | none => return ([], false, following)
        | some closing =>
            let (names, state) ← bracketedNames source scan closing following
            return (names, state.token?.isSome, state)

def requirement (source : List Char) (scan : CheckedScan) (state : ParseState) :
    Except ParseFault (Node × Bool × ParseState) := do
  match state.token? with
  | none => .error .noToken
  | some token =>
      if requirementKinds.contains token.kind then
        let (names, consumed, state) ← requirementNames source scan state
        return (⟨token.offset, none, .functionCall (token.text source), names⟩, consumed, state)
      else .error .notRequirement

end Checked

/-! ## Their checks hold -/

variable {source : List Char} {bound : Nat} {checked : CheckedScan} {scan : Scan}
  {first state : ParseState} {nodes : List Node} {token : Token}

namespace RequirementNames

variable {read next : RequirementNames} {start : Int}

theorem remaining_afterName (h : afterName nodes state = .again next) :
    next.state.remaining < state.remaining := by
  unfold afterName at h
  dsimp only at h
  split at h
  · rename_i hcomma
    obtain ⟨token, htoken, -⟩ := ParseState.token?_of_isAt hcomma
    obtain rfl := Progress.again.inj h
    exact Nat.lt_of_lt_of_le (ParseState.remaining_next_lt htoken) state.remaining_next_le
  · cases h

theorem remaining_ofClassType (hscan : scan.Lays source bound)
    (hbound : read.state.next.remaining < bound) (hplaced : read.state.cursor.Placed source)
    (h : ofClassType source scan read = .again next) :
    next.state.remaining < read.state.remaining := by
  have hreference := ParseState.reads_classReference hplaced true
  have hnext := read.state.remaining_next_le
  unfold ofClassType at h
  split at h
  · rename_i reference state heq
    rw [heq] at hreference
    have hbehind : state.remaining ≤ read.state.next.remaining := hreference.remaining_le
    have hless := remaining_afterName h
    omega
  · rename_i failed heq
    dsimp only at h
    split at h
    · have hbracket : (ParseState.next { failed with cursor := read.state.cursor }).cursor.Placed
          source := ParseState.placed_next hplaced
      have hmove :=
        (ParseState.next { failed with cursor := read.state.cursor }).remaining_moveNext_le
      have hindex := (hscan.inside hbracket (Nat.lt_of_le_of_lt hmove hbound) indexStops).leads
      have hbehind := hindex.remaining_le
      have hless := remaining_afterName h
      exact Nat.lt_of_lt_of_le hless (Nat.le_trans hbehind (Nat.le_trans hmove hnext))
    · cases h

theorem remaining_step (hscan : scan.Lays source bound) (hbound : read.state.remaining ≤ bound)
    (hplaced : read.state.cursor.Placed source) (h : step source scan read = .again next) :
    next.state.remaining < read.state.remaining := by
  unfold step at h
  split at h
  · cases h
  · rename_i token htoken
    split at h
    · exact remaining_afterName h
    · split at h
      · split at h
        · have hless := ParseState.remaining_next_lt htoken
          exact remaining_ofClassType hscan (Nat.lt_of_lt_of_le hless hbound) hplaced h
        · exact remaining_afterName h
      · cases h

end RequirementNames

namespace Checked

theorem malformedReference_eq (source : List Char) (report : Bool) (state : ParseState) :
    malformedReference source report state = .ok (state.malformedReference source report) := by
  unfold malformedReference ParseState.malformedReference
  cases report with
  | true =>
      rw [reportHere_eq]
      rfl
  | false => rfl

theorem classReference_eq (source : List Char) (report : Bool) (state : ParseState) :
    classReference source report state = .ok (state.classReference source report) := by
  unfold classReference ParseState.classReference
  simp only [malformedReference_eq]
  by_cases hbracket : state.next.isAt .leftBracket = true
  · rw [if_pos hbracket, if_pos hbracket]
    cases state.next.next.token? with
    | none => rfl
    | some token =>
        by_cases hstring : token.kind = .string
        · simp only [if_pos hstring]
          split <;> rfl
        · simp only [if_neg hstring]
  · rw [if_neg hbracket, if_neg hbracket]

/-! ## Names and requirements -/

variable {read : RequirementNames}

theorem classTypeNames_eq (hscan : checked.Agrees source bound scan)
    (hbound : read.state.next.remaining < bound) (hplaced : read.state.cursor.Placed source) :
    classTypeNames source checked read =
      .ok (RequirementNames.ofClassType source scan read) := by
  have hleads := (ParseState.reads_classReference hplaced true).leads
  unfold classTypeNames RequirementNames.ofClassType
  rw [classReference_eq]
  revert hleads
  rcases read.state.classReference source true with ⟨reference?, failed⟩
  intro hleads
  cases reference? with
  | some reference => rfl
  | none =>
      have htokens : failed.cursor.tokens = read.state.cursor.tokens :=
        (read.state.leadsTo_next.trans hleads).tokens_eq
      have hbracket : (ParseState.next { failed with cursor := read.state.cursor }).cursor.Placed
          source := ParseState.placed_next hplaced
      have hmove :
          (ParseState.next { failed with cursor := read.state.cursor }).moveNext.remaining <
            bound :=
        Nat.lt_of_le_of_lt (ParseState.remaining_moveNext_le _) hbound
      have hindex := hscan.inside hbracket hmove indexStops
      dsimp only [bind, Except.bind, pure, Except.pure]
      rw [returnTo_eq htokens]
      dsimp only
      split
      · rw [hindex]
      · rfl

theorem requirementNameStep_eq (hscan : checked.Agrees source bound scan)
    (hbound : read.state.remaining ≤ bound) (hplaced : read.state.cursor.Placed source) :
    requirementNameStep source checked read =
      .ok (RequirementNames.step source scan read) := by
  unfold requirementNameStep RequirementNames.step
  cases htoken : read.state.token? with
  | none => rfl
  | some token =>
      have hless := ParseState.remaining_next_lt htoken
      have hname := classTypeNames_eq hscan (Nat.lt_of_lt_of_le hless hbound) hplaced
      dsimp only
      rw [hname]
      split
      · rfl
      · split
        · split <;> rfl
        · rfl

theorem readNames_eq (hscan : checked.Agrees source bound scan) (hbound : state.remaining ≤ bound)
    (hplaced : state.cursor.Placed source) :
    readNames source checked state = .ok (RequirementNames.readAll source scan state) := by
  refine loop_eq
    (fun read => state.Reads source (state.offset source) read.names read.state)
    (fun read => read.state.remaining) (fun read hread => ?_) (fun read next hread hstep => ?_)
    _ _ (ParseState.reads_nothing hplaced (.refl _) (Int.le_refl _)) (Nat.lt_succ_self _)
  · exact requirementNameStep_eq hscan (Nat.le_trans hread.remaining_le hbound) hread.placed_after
  · have hnext := RequirementNames.reads_step hscan.lays hbound hread
    rw [hstep] at hnext
    exact ⟨hnext, RequirementNames.remaining_step hscan.lays
      (Nat.le_trans hread.remaining_le hbound) hread.placed_after hstep⟩

theorem bracketedNames_eq (hscan : checked.Agrees source bound scan) (closing : TokenKind)
    (hbound : state.next.remaining < bound) (hplaced : state.cursor.Placed source) :
    bracketedNames source checked closing state =
      .ok (state.bracketedNames source scan closing) := by
  have hnext := ParseState.placed_next hplaced
  have hread := RequirementNames.reads_readAll hscan.lays (Nat.le_of_lt hbound) hnext
  have hrest :=
    hscan.here hread.placed_after (Nat.lt_of_le_of_lt hread.remaining_le hbound) [closing]
  unfold bracketedNames ParseState.bracketedNames
  rw [readNames_eq hscan (Nat.le_of_lt hbound) hnext]
  dsimp only [bind, Except.bind, pure, Except.pure]
  rw [hrest]
  split <;> rfl

theorem requirementNames_eq (hscan : checked.Agrees source bound scan)
    (hbound : state.next.remaining < bound) (hplaced : state.cursor.Placed source) :
    requirementNames source checked state = .ok (state.requirementNames source scan) := by
  have hnext := ParseState.placed_next hplaced
  have hle := state.next.remaining_next_le
  unfold requirementNames ParseState.requirementNames
  dsimp only
  cases state.next.kind? with
  | none => rfl
  | some kind =>
      dsimp only
      rw [readNames_eq hscan (Nat.le_of_lt hbound) hnext]
      split
      · rfl
      · cases ParseState.listClosing? kind with
        | none => rfl
        | some closing =>
            dsimp only
            rw [bracketedNames_eq hscan closing (Nat.lt_of_le_of_lt hle hbound) hnext]
            rfl

theorem requirement_eq (hscan : checked.Agrees source bound scan)
    (hbound : state.next.remaining < bound) (hplaced : state.cursor.Placed source)
    (htoken : state.token? = some token) (hkind : requirementKinds.contains token.kind = true) :
    requirement source checked state = .ok (state.requirementAt source scan token) := by
  unfold requirement ParseState.requirementAt
  rw [htoken]
  dsimp only
  rw [if_pos hkind, requirementNames_eq hscan hbound hplaced]
  rfl

end Checked

end Manifest
