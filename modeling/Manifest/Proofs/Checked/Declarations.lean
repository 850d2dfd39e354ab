import Manifest.Proofs.Checked.Resources
import Manifest.Proofs.Parsing.Declarations

/-!
# Checked declarations

A parameter that is open has a type with a range, be it an empty one; so each parameter
can be closed.
-/

namespace Manifest

namespace Checked

/-! ## Parameters -/

/-- Close the parameter that is open, whose type must have a range. -/
def closeParam (source : List Char) (read : Params) : Except ParseFault Params :=
  match read.open? with
  | none => .ok (read.close source)
  | some opened =>
      match read.type? with
      | some type => .ok (Params.close source { read with open? := some { opened with type } })
      | none => .error .untyped

def typeStep (source : List Char) (token : Token) (read : Params) : Except ParseFault Params := do
  let following := read.state.next
  if token.kind = .variable then
    let type ←
      match read.type? with
      | some type => .ok type
      | none => range token.offset token.offset
    return { read with type? := some type, open? := some ⟨type, token⟩, state := following }
  else
    let type ←
      match read.type? with
      | some type => cover type token.range
      | none => .ok token.range
    let depth := Params.depthAfter read.depth token.kind
    if token.kind = .comma ∧ depth ≤ 0 then
      return { ← closeParam source read with state := following }
    else return { read with type? := some type, depth, state := following }

def restStep (source : List Char) (scan : CheckedScan) (token : Token) (read : Params) :
    Except ParseFault (Progress Params) := do
  if token.kind = .equals then
    let (default, state) ← scan.here source paramDefaultStops read.state.next
    let read := { read with default? := some default, state }
    if state.isAt .comma then
      return .again { ← closeParam source read with state := state.next }
    else if state.token?.isNone || state.isAt .rightParen then return .done read
    else return .again { read with state := state.next }
  else if token.kind = .comma then
    return .again { ← closeParam source read with state := read.state.next }
  else return .again { read with state := read.state.next }

def paramStep (source : List Char) (scan : CheckedScan) (read : Params) :
    Except ParseFault (Progress Params) := do
  match read.state.token? with
  | none => return .done read
  | some token =>
      if token.kind = .rightParen then return .done read
      else
        match read.open? with
        | none => return .again (← typeStep source token read)
        | some _ => restStep source scan token read

def readParams (source : List Char) (scan : CheckedScan) (state : ParseState) :
    Except ParseFault Params := do
  let first := state.next
  let read ← loop (paramStep source scan) (first.remaining + 1) ⟨[], none, none, none, 0, first⟩
  closeParam source read

/-! ## Parts of declarations -/

def declarationBody (source : List Char) (scan : CheckedScan) (state : ParseState) :
    Except ParseFault (Option Node × ParseState) := do
  if state.isAt .leftBrace then
    let (body, last) ← scan.inside source bodyStops state
    return (some body, last)
  else
    let reported ← reportHere source .expectedBody state
    return (none, if state.token?.isSome then reported.previous else reported)

def paramList (source : List Char) (scan : CheckedScan) (state : ParseState) :
    Except ParseFault (List Node × ParseState) := do
  if state.isAt .leftParen then
    let read ← readParams source scan state
    return (read.params, read.state.next)
  else return ([], state)

def readNodeNames (source : List Char) (state : ParseState) : Except ParseFault NodeNames :=
  loop (fun read => .ok (NodeNames.step source read)) (state.remaining + 1) ⟨[], state⟩

/-! ## Declarations -/

def classAfterName (source : List Char) (scan : CheckedScan) (offset nameOffset : Nat)
    (name : List Char) (state : ParseState) : Except ParseFault (Node × ParseState) := do
  let (params, state) ← paramList source scan state.next
  let (inherits?, state) := state.inheritance source
  let (body?, state) ← declarationBody source scan state
  return (Node.classDecl offset (some (nameOffset, name)) params inherits? body?, state)

def classDecl (source : List Char) (scan : CheckedScan) (state : ParseState) :
    Except ParseFault (List Node × ParseState) := do
  let named := state.next
  match named.token? with
  | none => return ([], named)
  | some token =>
      if token.kind = .identifier then
        let (node, last) ←
          classAfterName source scan (state.offset source) token.offset (token.text source) named
        return ([node], last)
      else return ([], named.previous)

def defineDecl (source : List Char) (scan : CheckedScan) (state : ParseState) :
    Except ParseFault (Node × ParseState) := do
  let offset := state.offset source
  match state.next.cursor.collectText source defineNameStops with
  | (none, cursor) => return (Node.defineDecl offset none [] none, { state.next with cursor })
  | (some name, cursor) =>
      let (params, last) ← paramList source scan { state with cursor := cursor.skipTrivia }
      let (body?, last) ← declarationBody source scan last
      return (Node.defineDecl offset (some name) params body?, last)

def nodeDecl (source : List Char) (scan : CheckedScan) (state : ParseState) :
    Except ParseFault (Node × ParseState) := do
  let read ← readNodeNames source state.next
  let (body?, last) ← declarationBody source scan read.state
  return (Node.nodeDecl (state.offset source) read.names body?, last)

end Checked

/-! ## Their checks hold -/

variable {source : List Char} {bound : Nat} {checked : CheckedScan} {scan : Scan}
  {state : ParseState} {token : Token} {offset : Nat}

namespace Params

variable {read next : Params}

def Typed (read : Params) : Prop :=
  ∀ opened, read.open? = some opened → read.type? = some opened.type

theorem typed_of_none (h : read.open? = none) : read.Typed := by
  intro opened hopen
  rw [h] at hopen
  cases hopen

theorem typed_stepType (h : read.open? = none) : (stepType source token read).Typed := by
  unfold stepType
  dsimp only
  split
  · intro opened hopen
    obtain rfl := Option.some.inj hopen
    rfl
  · split
    · exact typed_of_none rfl
    · exact typed_of_none h

theorem typed_stepRest (h : read.Typed) : (stepRest source scan token read).state.Typed := by
  unfold stepRest
  dsimp only
  split
  · split
    · exact typed_of_none rfl
    · split
      · exact h
      · exact h
  · split
    · exact typed_of_none rfl
    · exact h

theorem typed_step (h : read.Typed) : (step source scan read).state.Typed := by
  unfold step
  split
  · exact h
  · split
    · exact h
    · split
      · rename_i hopen
        exact typed_stepType hopen
      · exact typed_stepRest h

theorem remaining_stepType (source : List Char) (token : Token) (read : Params) :
    (stepType source token read).state = read.state.next := by
  unfold stepType
  dsimp only
  split
  · rfl
  · split <;> rfl

theorem remaining_stepRest (hscan : scan.Lays source bound) (hbound : read.state.remaining ≤ bound)
    (hplaced : read.state.cursor.Placed source) (htoken : read.state.token? = some token)
    (h : stepRest source scan token read = .again next) :
    next.state.remaining < read.state.remaining := by
  have hless := ParseState.remaining_next_lt htoken
  have hdefault := hscan.here (ParseState.placed_next hplaced)
    (Nat.lt_of_lt_of_le hless hbound) paramDefaultStops
  have hbehind := hdefault.leads.remaining_le
  have hlast := (scan.here source paramDefaultStops read.state.next).2.remaining_next_le
  unfold stepRest at h
  split at h
  · dsimp only at h
    split at h
    · obtain rfl := Progress.again.inj h
      exact Nat.lt_of_le_of_lt (Nat.le_trans hlast hbehind) hless
    · split at h
      · cases h
      · obtain rfl := Progress.again.inj h
        exact Nat.lt_of_le_of_lt (Nat.le_trans hlast hbehind) hless
  · split at h
    · obtain rfl := Progress.again.inj h
      exact hless
    · obtain rfl := Progress.again.inj h
      exact hless

theorem remaining_step (hscan : scan.Lays source bound) (hbound : read.state.remaining ≤ bound)
    (hplaced : read.state.cursor.Placed source) (h : step source scan read = .again next) :
    next.state.remaining < read.state.remaining := by
  unfold step at h
  split at h
  · cases h
  · rename_i token htoken
    split at h
    · cases h
    · split at h
      · obtain rfl := Progress.again.inj h
        rw [remaining_stepType]
        exact ParseState.remaining_next_lt htoken
      · exact remaining_stepRest hscan hbound hplaced htoken h

end Params

namespace Checked

/-! ## Parameters that are closed -/

theorem closeParam_eq {read : Params} (h : read.Typed) :
    closeParam source read = .ok (read.close source) := by
  unfold closeParam
  cases hopen : read.open? with
  | none => rfl
  | some opened =>
      dsimp only
      rw [h opened hopen]
      unfold Params.close
      rw [hopen]

theorem typeStep_eq {read : Params} (h : read.open? = none) :
    typeStep source token read = .ok (Params.stepType source token read) := by
  have hclose : closeParam source read = .ok (read.close source) :=
    closeParam_eq (Params.typed_of_none h)
  have hempty : range token.offset token.offset = .ok (TextRange.empty token.offset) :=
    range_eq (Nat.le_refl _)
  unfold typeStep Params.stepType
  rw [hclose]
  split
  · cases read.type? with
    | some type => rfl
    | none =>
        dsimp only
        rw [hempty]
        rfl
  · cases read.type? with
    | some type =>
        dsimp only
        rw [cover_eq]
        dsimp only [bind, Except.bind, Option.map_some, Option.getD_some]
        split <;> rfl
    | none =>
        dsimp only [bind, Except.bind, Option.map_none, Option.getD_none]
        split <;> rfl

theorem restStep_eq {read : Params} (hscan : checked.Agrees source bound scan)
    (hbound : read.state.remaining ≤ bound) (hplaced : read.state.cursor.Placed source)
    (htoken : read.state.token? = some token) (h : read.Typed) :
    restStep source checked token read = .ok (Params.stepRest source scan token read) := by
  have hless := ParseState.remaining_next_lt htoken
  have hdefault := hscan.here (ParseState.placed_next hplaced)
    (Nat.lt_of_lt_of_le hless hbound) paramDefaultStops
  unfold restStep Params.stepRest
  rw [hdefault, closeParam_eq h]
  split
  · dsimp only [bind, Except.bind]
    rw [closeParam_eq]
    · split
      · rfl
      · split <;> rfl
    · exact h
  · split <;> rfl

theorem paramStep_eq {read : Params} (hscan : checked.Agrees source bound scan)
    (hbound : read.state.remaining ≤ bound) (hplaced : read.state.cursor.Placed source)
    (h : read.Typed) : paramStep source checked read = .ok (Params.step source scan read) := by
  unfold paramStep Params.step
  cases htoken : read.state.token? with
  | none => rfl
  | some token =>
      dsimp only
      split
      · rfl
      · cases hopen : read.open? with
        | none =>
            dsimp only
            rw [typeStep_eq hopen]
            rfl
        | some opened => exact restStep_eq hscan hbound hplaced htoken h

theorem readParams_eq (hscan : checked.Agrees source bound scan)
    (hbound : state.next.remaining ≤ bound) (hplaced : state.cursor.Placed source) :
    readParams source checked state = .ok (Params.readAll source scan state) := by
  have hnext := ParseState.placed_next hplaced
  have hloop : loop (paramStep source checked) (state.next.remaining + 1)
      ⟨[], none, none, none, 0, state.next⟩ = .ok (iterate (Params.step source scan)
        (state.next.remaining + 1) ⟨[], none, none, none, 0, state.next⟩) := by
    refine loop_eq
      (fun read => Params.Ordered source state.next (state.next.offset source) read ∧ read.Typed)
      (fun read => read.state.remaining) (fun read hread => ?_) (fun read next hread hstep => ?_)
      _ _ ⟨Params.ordered_begin hnext, Params.typed_of_none rfl⟩ (Nat.lt_succ_self _)
    · exact paramStep_eq hscan (Nat.le_trans hread.1.leads.remaining_le hbound)
        hread.1.placed_state hread.2
    · have hordered := Params.ordered_step hscan.lays hbound hread.1
      have htyped : (Params.step source scan read).state.Typed := Params.typed_step hread.2
      rw [hstep] at hordered htyped
      exact ⟨⟨hordered, htyped⟩, Params.remaining_step hscan.lays
        (Nat.le_trans hread.1.leads.remaining_le hbound) hread.1.placed_state hstep⟩
  have htyped : (iterate (Params.step source scan) (state.next.remaining + 1)
      ⟨[], none, none, none, 0, state.next⟩).Typed :=
    iterate_invariant Params.Typed (fun _ h => Params.typed_step h) _ _ (Params.typed_of_none rfl)
  unfold readParams Params.readAll
  dsimp only
  rw [hloop]
  exact closeParam_eq htyped

/-! ## Declarations that are read -/

theorem declarationBody_eq (hscan : checked.Agrees source bound scan)
    (hbound : state.remaining < bound) (hplaced : state.cursor.Placed source) :
    declarationBody source checked state = .ok (state.declarationBody source scan) := by
  have hmove := Nat.lt_of_le_of_lt state.remaining_moveNext_le hbound
  unfold declarationBody ParseState.declarationBody
  rw [hscan.inside hplaced hmove, reportHere_eq]
  split <;> rfl

theorem paramList_eq (hscan : checked.Agrees source bound scan)
    (hbound : state.remaining ≤ bound) (hplaced : state.cursor.Placed source) :
    paramList source checked state = .ok (state.paramList source scan) := by
  unfold paramList ParseState.paramList
  rw [readParams_eq hscan (Nat.le_trans state.remaining_next_le hbound) hplaced]
  split <;> rfl

theorem readNodeNames_eq (source : List Char) (state : ParseState) :
    readNodeNames source state = .ok (NodeNames.readAll source state) := by
  refine loop_eq (fun _ => True) (fun read => read.state.remaining) (fun _ _ => rfl)
    (fun read next _ hstep => ⟨trivial, ?_⟩) _ _ trivial (Nat.lt_succ_self _)
  unfold NodeNames.step at hstep
  split at hstep
  · cases hstep
  · rename_i token htoken
    have hless := ParseState.remaining_next_lt htoken
    split at hstep
    · cases hstep
    · split at hstep
      · obtain rfl := Progress.again.inj hstep
        exact hless
      · obtain rfl := Progress.again.inj hstep
        exact hless

theorem classAfterName_eq {nameOffset : Nat} {name : List Char}
    (hscan : checked.Agrees source bound scan) (hbound : state.next.remaining < bound)
    (hplaced : state.cursor.Placed source) :
    classAfterName source checked offset nameOffset name state =
      .ok (state.classAfterName source scan offset nameOffset name) := by
  have hnext := ParseState.placed_next hplaced
  obtain ⟨hparams, hsettled⟩ := ParseState.reads_paramList hscan.lays hnext
    (ParseState.settled_next hplaced) (Nat.le_of_lt hbound)
  unfold classAfterName ParseState.classAfterName
  rw [paramList_eq hscan (Nat.le_of_lt hbound) hnext]
  dsimp only [bind, Except.bind]
  generalize state.next.paramList source scan = params at hparams hsettled
  obtain ⟨hinherits, hsettled⟩ := ParseState.reads_inheritance hparams.placed_after hsettled
  generalize params.2.inheritance source = parent at hinherits
  have hparamsLe := hparams.remaining_le
  have hinheritsLe := hinherits.remaining_le
  rw [declarationBody_eq hscan (by omega) hinherits.placed_after]
  rfl

theorem classDecl_eq (hscan : checked.Agrees source bound scan)
    (hbound : state.next.remaining < bound) (hplaced : state.cursor.Placed source) :
    classDecl source checked state = .ok (state.classDecl source scan) := by
  have hnext := ParseState.placed_next hplaced
  have hlater := Nat.lt_of_le_of_lt state.next.remaining_next_le hbound
  unfold classDecl ParseState.classDecl
  dsimp only
  cases state.next.token? with
  | none => rfl
  | some token =>
      dsimp only
      rw [classAfterName_eq hscan hlater hnext]
      split <;> rfl

theorem defineDecl_eq (hscan : checked.Agrees source bound scan)
    (hbound : state.next.remaining < bound) (hplaced : state.cursor.Placed source) :
    defineDecl source checked state = .ok (state.defineDecl source scan) := by
  have hnext := ParseState.placed_next hplaced
  have hcollect := state.next.cursor.leadsTo_collectText source defineNameStops
  have hsettled := Cursor.settled_skipTrivia_collectText source defineNameStops
    (ParseState.settled_next hplaced)
  unfold defineDecl ParseState.defineDecl
  dsimp only
  revert hcollect hsettled
  rcases state.next.cursor.collectText source defineNameStops with ⟨name?, cursor⟩
  intro hcollect hsettled
  cases name? with
  | none => rfl
  | some name =>
      have hskip := hcollect.trans cursor.leadsTo_skipTrivia
      have hskipLe := hskip.remaining_le
      have hle : ({ state with cursor := cursor.skipTrivia } : ParseState).remaining < bound :=
        Nat.lt_of_le_of_lt hskipLe hbound
      have hskipped : ({ state with cursor := cursor.skipTrivia } : ParseState).cursor.Placed
          source := hskip.placed hnext
      obtain ⟨hparams, -⟩ :=
        ParseState.reads_paramList hscan.lays hskipped hsettled (Nat.le_of_lt hle)
      dsimp only
      rw [paramList_eq hscan (Nat.le_of_lt hle) hskipped]
      dsimp only [bind, Except.bind]
      rw [declarationBody_eq hscan (Nat.lt_of_le_of_lt hparams.remaining_le hle)
        hparams.placed_after]
      rfl

theorem nodeDecl_eq (hscan : checked.Agrees source bound scan)
    (hbound : state.next.remaining < bound) (hplaced : state.cursor.Placed source) :
    nodeDecl source checked state = .ok (state.nodeDecl source scan) := by
  have hnext := ParseState.placed_next hplaced
  have hleads := (NodeNames.settled_readAll source (ParseState.settled_next hplaced)).2
  unfold nodeDecl ParseState.nodeDecl
  rw [readNodeNames_eq]
  dsimp only [bind, Except.bind]
  rw [declarationBody_eq hscan (Nat.lt_of_le_of_lt hleads.remaining_le hbound)
    (hleads.placed hnext)]
  rfl

end Checked

end Manifest
