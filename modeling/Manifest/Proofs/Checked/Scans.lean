import Manifest.Proofs.Checked.Branches
import Manifest.Proofs.Parsing.Scans

/-!
# Checked scans

What a scan finds is read on, given up by going back, or read again from an index that
was kept.  Every step passes a token over, so a scan ends, and a scan inside of another
one begins with fewer tokens left.
-/

namespace Manifest

namespace Checked

/-! ## Calls and indices -/

def callAt (source : List Char) (scan : CheckedScan) (state : ParseState)
    (scanning : Scanning) : Except ParseFault Scanning := do
  match state.token? with
  | none => .error .noToken
  | some token =>
      let name := token.text source
      let following := state.next
      if following.isAt .leftParen then
        let (arguments, last) ← scan.inside source callStops following
        return (scanning.add [⟨token.offset, none, .functionCall name, [arguments]⟩]).advance last
      else
        return (scanning.add [Node.leaf token.offset (.functionCall name)]).advance
          following.previous

def dotAt (source : List Char) (scan : CheckedScan) (scanning : Scanning) :
    Except ParseFault Scanning := do
  let named := scanning.state.moveNext
  match named.token? with
  | none => return scanning.stay named
  | some token =>
      if token.kind = .identifier ∨ token.kind.category = .function then
        callAt source scan named scanning
      else return (scanning.keep ['.']).stay named

/-- `Class['name']`, tried where a bracket follows `Class`; if it is none, return to the
bracket. -/
def classIndex (source name : List Char) (following : ParseState) :
    Except ParseFault (Option Node × ParseState) := do
  if name = classTypeName ∧ following.isAt .leftBracket = true then
    let bracket := following.cursor.index
    match ← classReference source false following.previous with
    | (some reference, last) => return (some reference, last)
    | (none, failed) => return (none, ← returnTo bracket failed)
  else return (none, following)

/-! ## Names and statements -/

def nameAt (source : List Char) (scan : CheckedScan) (stops : List TokenKind) (token : Token)
    (scanning : Scanning) : Except ParseFault Scanning := do
  let name := token.text source
  if scanning.nesting.keepsNames then return (scanning.keep name).advance scanning.state
  else
    let following := scanning.state.next
    match following.token? with
    | none => return (scanning.keep name).stay following
    | some next =>
        if next.kind = .leftBrace ∧ scanning.endsAt stops .leftBrace = false then
          let (nodes, last) ← resource source scan name token.offset following
          return (scanning.add nodes).advance last
        else if token.kind = .kwClass ∧ next.kind = .identifier then
          let (node, last) ←
            classAfterName source scan token.offset next.offset (next.text source) following
          return (scanning.add [node]).advance last
        else return (scanning.keep name).stay following

def openedAt (source : List Char) (scan : CheckedScan) (stops : List TokenKind) (token : Token)
    (following : ParseState) (scanning : Scanning) : Except ParseFault Scanning := do
  let name := token.text source
  if following.isAt .leftParen then
    let (arguments, last) ← scan.inside source callStops following
    return (scanning.add [⟨token.offset, none, .functionCall name, [arguments]⟩]).advance last
  else if following.isAt .leftBracket && startsWithCapital name then
    let (index, last) ← scan.inside source indexStops following
    return (scanning.add [⟨token.offset, none, .typeReference name, [index]⟩]).advance last
  else nameAt source scan stops token (scanning.stay following.previous)

def wordAt (source : List Char) (scan : CheckedScan) (stops : List TokenKind)
    (scanning : Scanning) : Except ParseFault Scanning := do
  match scanning.state.token? with
  | none => .error .noToken
  | some token =>
      if token.kind = .identifier then
        match ← classIndex source (token.text source) scanning.state.next with
        | (some reference, last) => return (scanning.add [reference]).advance last
        | (none, following) => openedAt source scan stops token following scanning
      else nameAt source scan stops token scanning

def requirementAt (source : List Char) (scan : CheckedScan) (scanning : Scanning) :
    Except ParseFault Scanning := do
  let (node, consumed, last) ← requirement source scan scanning.state
  return if consumed then (scanning.add [node]).advance last else (scanning.add [node]).stay last

def significantAt (source : List Char) (scan : CheckedScan) (stops : List TokenKind)
    (token : Token) (scanning : Scanning) : Except ParseFault Scanning := do
  match token.kind with
  | .string =>
      return (scanning.add [Node.string token.offset (token.text source)]).advance scanning.state
  | .variable => return scanning.variableAt source token
  | .fnInclude | .fnRequire | .fnContain => requirementAt source scan scanning
  | .identifier | .kwClass => wordAt source scan stops scanning
  | .kwCase =>
      let (node, last) ← caseStatement source scan scanning.state
      return (scanning.add [node]).advance last
  | .kwIf =>
      let (node, last) ← condition source scan true scanning.state
      return (scanning.add [node]).advance last
  | .kwUnless =>
      let (node, last) ← condition source scan false scanning.state
      return (scanning.add [node]).advance last
  | .dot => dotAt source scan scanning
  | kind =>
      if kind.category = .function then callAt source scan scanning.state scanning
      else return (scanning.keep (token.text source)).advance scanning.state

/-! ## Scans -/

def tokenAt (source : List Char) (scan : CheckedScan) (stops : List TokenKind) (token : Token)
    (scanning : Scanning) : Except ParseFault Scanning := do
  if token.isTrivia then return scanning.advance scanning.state
  else
    match scanning.nesting.track token.kind with
    | some nesting =>
        return ({ scanning with nesting }.keep (token.text source)).advance scanning.state
    | none => significantAt source scan stops token scanning

def scanStep (source : List Char) (scan : CheckedScan) (stops : List TokenKind)
    (scanning : Scanning) : Except ParseFault (Progress Scanning) := do
  match scanning.state.token? with
  | none => return .done scanning
  | some token =>
      if scanning.endsAt stops token.kind then return .done scanning
      else return .again (← tokenAt source scan stops token scanning)

def within (source : List Char) (inner : CheckedScan) : CheckedScan :=
  fun offset stops state => do
    let scanning ← loop (scanStep source inner stops) (state.remaining + 1) (.begin state)
    return (scanning.node source offset, scanning.state)

/-- A scan whose scans inside are at most `depth` deep; deeper ones are a fault. -/
def ofDepth (source : List Char) : Nat → CheckedScan
  | 0 => fun _ _ _ => .error .tooDeep
  | depth + 1 => within source (ofDepth source depth)

def scan (source : List Char) : CheckedScan := fun offset stops state =>
  ofDepth source (state.remaining + 1) offset stops state

end Checked

/-! ## Their checks hold -/

variable {source : List Char} {bound : Nat} {checked : CheckedScan} {scan : Scan}
  {stops : List TokenKind} {token : Token} {state : ParseState} {scanning : Scanning}

theorem ParseState.reported_classReference (source : List Char) (state : ParseState) :
    (state.classReference source false).2.reported = state.reported := by
  unfold classReference malformedReference
  dsimp only
  split
  · split
    · split
      · split <;> rfl
      · rfl
    · rfl
  · rfl

theorem Token.significant_of_name
    (h : token.kind = .identifier ∨ token.kind.category = .function) :
    token.isTrivia = false := by
  unfold Token.isTrivia
  rcases h with h | h
  · rw [h]
    rfl
  · revert h
    cases token.kind <;> first | exact fun _ => rfl | exact fun h => nomatch h

namespace Checked

theorem callAt_eq (hscan : checked.Agrees source bound scan) (hbound : state.next.remaining < bound)
    (hplaced : state.cursor.Placed source) (htoken : state.token? = some token)
    (hsignificant : token.isTrivia = false) :
    callAt source checked state scanning = .ok (scanning.callAt source scan token state) := by
  have hmove := Nat.lt_of_le_of_lt state.next.remaining_moveNext_le hbound
  unfold callAt Scanning.callAt
  rw [htoken]
  dsimp only
  rw [hscan.inside (ParseState.placed_next hplaced) hmove,
    ParseState.previous_next htoken hsignificant]
  split <;> rfl

theorem dotAt_eq (hscan : checked.Agrees source bound scan)
    (hbound : scanning.state.remaining ≤ bound)
    (hplaced : scanning.state.cursor.Placed source) :
    dotAt source checked scanning = .ok (scanning.dotAt source scan) := by
  have hle := scanning.state.remaining_moveNext_le
  unfold dotAt Scanning.dotAt
  dsimp only
  cases htoken : scanning.state.moveNext.token? with
  | none => rfl
  | some token =>
      have hless := ParseState.remaining_next_lt htoken
      dsimp only
      by_cases hname : token.kind = .identifier ∨ token.kind.category = .function
      · rw [if_pos hname, if_pos hname]
        exact callAt_eq hscan (by omega) (ParseState.placed_moveNext hplaced) htoken
          (Token.significant_of_name hname)
      · rw [if_neg hname, if_neg hname]
        rfl

/-- Trying a class reference ends behind it, or on the bracket again. -/
theorem classIndex_eq {name : List Char} (hname : name = classTypeName)
    (hbracket : state.next.isAt .leftBracket = true) (hplaced : state.cursor.Placed source)
    (htoken : state.token? = some token) (hsignificant : token.isTrivia = false) :
    classIndex source name state.next =
      .ok (match state.classReference source false with
        | (some reference, last) => (some reference, last)
        | (none, _) => (none, state.next)) := by
  have hleads := (ParseState.reads_classReference hplaced false).leads
  have hreported := ParseState.reported_classReference source state
  unfold classIndex
  rw [if_pos ⟨hname, hbracket⟩, ParseState.previous_next htoken hsignificant, classReference_eq]
  revert hleads hreported
  rcases state.classReference source false with ⟨reference?, failed⟩
  intro hleads hreported
  cases reference? with
  | some reference => rfl
  | none =>
      have hstate : ({ failed with cursor := state.next.cursor } : ParseState) = state.next :=
        congrArg (ParseState.mk state.next.cursor) hreported
      dsimp only [bind, Except.bind]
      rw [returnTo_eq hleads.tokens_eq, hstate]
      rfl

theorem nameAt_eq (hscan : checked.Agrees source bound scan)
    (hbound : scanning.state.remaining ≤ bound)
    (hplaced : scanning.state.cursor.Placed source)
    (htoken : scanning.state.token? = some token) :
    nameAt source checked stops token scanning =
      .ok (scanning.nameAt source scan stops token) := by
  have hnext := ParseState.placed_next hplaced
  have hless := ParseState.remaining_next_lt htoken
  have hlater := scanning.state.next.remaining_next_le
  unfold nameAt Scanning.nameAt
  dsimp only
  cases scanning.state.next.token? with
  | none => split <;> rfl
  | some next =>
      dsimp only
      rw [resource_eq hscan (by omega) hnext, classAfterName_eq hscan (by omega) hnext]
      split
      · rfl
      · split
        · rfl
        · split <;> rfl

theorem classIndex_none {name : List Char}
    (h : ¬(name = classTypeName ∧ state.isAt .leftBracket = true)) :
    classIndex source name state = .ok (none, state) := by
  unfold classIndex
  rw [if_neg h]
  rfl

theorem openedAt_eq (hscan : checked.Agrees source bound scan)
    (hbound : scanning.state.remaining ≤ bound)
    (hplaced : scanning.state.cursor.Placed source)
    (htoken : scanning.state.token? = some token) (hsignificant : token.isTrivia = false)
    (hclass : token.text source = classTypeName →
      scanning.state.next.isAt .leftBracket = true →
        (scanning.state.classReference source false).1 = none) :
    openedAt source checked stops token scanning.state.next scanning =
      .ok ((scanning.applied? source scan token).getD
        (scanning.nameAt source scan stops token)) := by
  have hless := ParseState.remaining_next_lt htoken
  have hmove := scanning.state.next.remaining_moveNext_le
  have hinside : ∀ stops, checked.inside source stops scanning.state.next =
      .ok (scan.inside source stops scanning.state.next) :=
    fun stops => hscan.inside (ParseState.placed_next hplaced) (by omega) stops
  have hback : scanning.stay scanning.state.next.previous = scanning := by
    rw [ParseState.previous_next htoken hsignificant]
    rfl
  unfold openedAt Scanning.applied?
  rw [hinside, hinside, hback, nameAt_eq hscan hbound hplaced htoken]
  dsimp only [bind, Except.bind]
  by_cases hparen : scanning.state.next.isAt .leftParen = true
  · rw [if_pos hparen, if_pos hparen]
    rfl
  · rw [if_neg hparen, if_neg hparen]
    by_cases hbracket : scanning.state.next.isAt .leftBracket = true
    · rw [if_pos hbracket, hbracket, Bool.true_and]
      have hnone : (if token.text source = classTypeName then
          scanning.state.classReference source false
        else (none, scanning.state.next)).1 = none := by
        split
        · rename_i hname
          exact hclass hname hbracket
        · rfl
      revert hnone
      generalize (if token.text source = classTypeName then
          scanning.state.classReference source false else (none, scanning.state.next)) = tried
      rcases tried with ⟨reference?, last⟩
      rintro (rfl : reference? = none)
      dsimp only
      split <;> rfl
    · rw [if_neg hbracket, Bool.eq_false_iff.2 hbracket]
      rfl

theorem wordAt_eq (hscan : checked.Agrees source bound scan)
    (hbound : scanning.state.remaining ≤ bound)
    (hplaced : scanning.state.cursor.Placed source)
    (htoken : scanning.state.token? = some token) (hsignificant : token.isTrivia = false) :
    wordAt source checked stops scanning = .ok (scanning.wordAt source scan stops token) := by
  unfold wordAt Scanning.wordAt
  rw [htoken]
  dsimp only
  by_cases hidentifier : token.kind = .identifier
  · rw [if_pos hidentifier, if_pos hidentifier]
    by_cases hindex : token.text source = classTypeName ∧
        scanning.state.next.isAt .leftBracket = true
    · rcases hindex with ⟨hname, hbracket⟩
      have hkind : scanning.state.next.kind? = some .leftBracket := eq_of_beq hbracket
      have hparen : scanning.state.next.isAt .leftParen = false := by
        unfold ParseState.isAt
        rw [hkind]
        rfl
      rw [classIndex_eq hname hbracket hplaced htoken hsignificant]
      cases hreference : scanning.state.classReference source false with
      | mk reference? last =>
          cases reference? with
          | none =>
              apply openedAt_eq hscan hbound hplaced htoken hsignificant
              intro _ _
              rw [hreference]
          | some reference =>
              unfold Scanning.applied?
              simp only [hparen, hbracket, hname, hreference, if_true]
              rfl
    · rw [classIndex_none hindex]
      exact openedAt_eq hscan hbound hplaced htoken hsignificant
        fun hname hbracket => (hindex ⟨hname, hbracket⟩).elim
  · rw [if_neg hidentifier, if_neg hidentifier]
    exact nameAt_eq hscan hbound hplaced htoken

theorem requirementAt_eq (hscan : checked.Agrees source bound scan)
    (hbound : scanning.state.remaining ≤ bound)
    (hplaced : scanning.state.cursor.Placed source)
    (htoken : scanning.state.token? = some token)
    (hkind : requirementKinds.contains token.kind = true) :
    requirementAt source checked scanning = .ok (scanning.requirementAt source scan token) := by
  have hless := ParseState.remaining_next_lt htoken
  unfold requirementAt Scanning.requirementAt
  rw [requirement_eq hscan (Nat.lt_of_lt_of_le hless hbound) hplaced htoken hkind]
  rfl

theorem significantAt_eq (hscan : checked.Agrees source bound scan)
    (hbound : scanning.state.remaining ≤ bound)
    (hplaced : scanning.state.cursor.Placed source)
    (htoken : scanning.state.token? = some token) (hsignificant : token.isTrivia = false) :
    significantAt source checked stops token scanning =
      .ok (scanning.significantAt source scan stops token) := by
  have hless := ParseState.remaining_next_lt htoken
  have hbelow : scanning.state.next.remaining < bound := Nat.lt_of_lt_of_le hless hbound
  unfold significantAt Scanning.significantAt
  rw [wordAt_eq hscan hbound hplaced htoken hsignificant, caseStatement_eq hscan hbelow hplaced,
    condition_eq hscan true hbelow hplaced, condition_eq hscan false hbelow hplaced,
    dotAt_eq hscan hbound hplaced, callAt_eq hscan hbelow hplaced htoken hsignificant]
  have hrequirement := requirementAt_eq hscan hbound hplaced htoken
  generalize token.kind = kind at hrequirement
  cases kind <;>
    first
    | rfl
    | exact hrequirement rfl

theorem tokenAt_eq (hscan : checked.Agrees source bound scan)
    (hbound : scanning.state.remaining ≤ bound)
    (hplaced : scanning.state.cursor.Placed source)
    (htoken : scanning.state.token? = some token) :
    tokenAt source checked stops token scanning =
      .ok (scanning.tokenAt source scan stops token) := by
  unfold tokenAt Scanning.tokenAt
  by_cases htrivia : token.isTrivia = true
  · rw [if_pos htrivia, if_pos htrivia]
    rfl
  · rw [if_neg htrivia, if_neg htrivia]
    cases scanning.nesting.track token.kind with
    | some nesting => rfl
    | none =>
        exact significantAt_eq hscan hbound hplaced htoken (Bool.eq_false_iff.2 htrivia)

theorem scanStep_eq (hscan : checked.Agrees source bound scan)
    (hbound : scanning.state.remaining ≤ bound)
    (hplaced : scanning.state.cursor.Placed source) :
    scanStep source checked stops scanning = .ok (scanning.step source scan stops) := by
  unfold scanStep Scanning.step
  cases htoken : scanning.state.token? with
  | none => rfl
  | some token =>
      dsimp only
      rw [tokenAt_eq hscan hbound hplaced htoken]
      split <;> rfl

/-! ## Depth -/

theorem agrees_within (hscan : checked.Agrees source bound scan) :
    CheckedScan.Agrees source (bound + 1) (within source checked) (scan.within source) where
  lays := Scan.lays_within hscan.lays
  agrees := by
    intro offset stops state hbound hplaced _
    have hle : state.remaining ≤ bound := Nat.le_of_lt_succ hbound
    have hloop : loop (scanStep source checked stops) (state.remaining + 1) (.begin state) =
        .ok (iterate (Scanning.step source scan stops) (state.remaining + 1) (.begin state)) := by
      refine loop_eq (Scanning.Laying source state (state.offset source))
        (fun scanning => scanning.state.remaining) (fun scanning hlaying => ?_)
        (fun scanning next hlaying hstep => ?_) _ _
        (ParseState.reads_nothing hplaced (.refl _) (Int.le_refl _)) (Nat.lt_succ_self _)
      · exact scanStep_eq hscan (Nat.le_trans hlaying.remaining_le hle) hlaying.placed_after
      · exact Scanning.laying_step hscan.lays hle hlaying hstep
    unfold within Scan.within
    rw [hloop]
    rfl

theorem agrees_ofDepth (source : List Char) (depth : Nat) :
    CheckedScan.Agrees source depth (ofDepth source depth) (Scan.ofDepth source depth) := by
  induction depth with
  | zero =>
      refine ⟨Scan.lays_ofDepth source 0, fun offset stops state hbound => ?_⟩
      exact (Nat.not_lt_zero _ hbound).elim
  | succ depth ih => exact agrees_within ih

/-- No check of a scan fails, whatever it begins on. -/
theorem agrees_scan (source : List Char) (bound : Nat) :
    CheckedScan.Agrees source bound (Checked.scan source) (Manifest.scan source) where
  lays := Scan.lays_scan source bound
  agrees := fun offset stops state _ =>
    (agrees_ofDepth source (state.remaining + 1)).agrees offset stops state (Nat.lt_succ_self _)

end Checked

end Manifest
