import Manifest.Proofs.Checked.Requirements
import Manifest.Proofs.Parsing.Resources

/-!
# Checked resources

Every token of a body is passed over, also where a value ends on a brace that the next
step looks at again.
-/

namespace Manifest

namespace Checked

/-! ## Attributes -/

def attributeStep (source : List Char) (scan : CheckedScan) (read : ResourceAttributes) :
    Except ParseFault (Progress ResourceAttributes) := do
  match read.state.token? with
  | none => return .done read
  | some token =>
      if token.kind = .rightBrace then return .done read
      else
        let name? :=
          if read.name?.isNone && token.namesAttribute then some token else read.name?
        if token.kind = .paramAssign then
          let (value, state) ← scan.here source attributeValueStops read.state.next
          return .again { read with name?, value? := some value, state }
        else if token.kind = .comma then
          return .again { ({ read with name? } : ResourceAttributes).close source with
            state := read.state.next }
        else return .again { read with name?, state := read.state.next }

def readAttributes (source : List Char) (scan : CheckedScan) (state : ParseState) :
    Except ParseFault ResourceAttributes := do
  let first := state.next
  let read ← loop (attributeStep source scan) (first.remaining + 1) ⟨[], none, none, first⟩
  return read.close source

/-! ## Resources -/

def resourceBody (source : List Char) (scan : CheckedScan) (type : List Char) (offset : Nat)
    (title? : Option Node) (state : ParseState) : Except ParseFault (Node × ParseState) := do
  let read ← readAttributes source scan state
  return (Node.resource offset type title? read.attributes (read.state.token?.map Token.stop),
    read.state)

def resourceTitle (source : List Char) (scan : CheckedScan) (type : List Char) (token : Token)
    (state : ParseState) : Except ParseFault (Option Node × ParseState) := do
  match token.kind with
  | .string =>
      if type = classResourceType then return (some (ParseState.quotedClassRef source token), state)
      else return (some (Node.string token.offset (token.text source)), state)
  | .identifier | .kwDefault =>
      return (some (Node.string token.offset (token.text source)), state)
  | .variable => return (some (Node.plainVariable token.offset (token.text source)), state)
  | .leftBracket =>
      let (titles, state) ← scan token.offset indexStops state.moveNext
      return (some titles, state)
  | _ => return (none, state)

def restOfBody (source : List Char) (scan : CheckedScan) (state : ParseState) :
    Except ParseFault (List Node × ParseState) := do
  let (rest, state) ← scan.here source bodyStops state
  return ([rest], state)

def resource (source : List Char) (scan : CheckedScan) (type : List Char) (offset : Nat)
    (state : ParseState) : Except ParseFault (List Node × ParseState) := do
  if startsWithCapital type then
    let (node, state) ← resourceBody source scan type offset none state
    return ([node], state)
  else
    let first := state.next
    match first.token? with
    | none => return ([], first)
    | some token =>
        match ← resourceTitle source scan type token first with
        | (none, state) =>
            restOfBody source scan (state.report .unexpectedResourceTitle token.range)
        | (some title, state) =>
            let colon := state.next
            if colon.isAt .colon then
              let (node, state) ← resourceBody source scan type offset (some title) colon
              return ([node], state)
            else
              let reported ← reportHere source .missingTitleColon colon
              if colon.token?.isSome then restOfBody source scan reported
              else return ([], reported)

end Checked

/-! ## Their checks hold -/

variable {source : List Char} {bound : Nat} {checked : CheckedScan} {scan : Scan}
  {state : ParseState} {token : Token} {type : List Char} {offset : Nat}

theorem ResourceAttributes.remaining_step {read next : ResourceAttributes}
    (hscan : scan.Lays source bound) (hbound : read.state.remaining ≤ bound)
    (hplaced : read.state.cursor.Placed source) (h : step source scan read = .again next) :
    next.state.remaining < read.state.remaining := by
  unfold step at h
  split at h
  · cases h
  · rename_i token htoken
    have hless := ParseState.remaining_next_lt htoken
    have hvalue := hscan.here (ParseState.placed_next hplaced)
      (Nat.lt_of_lt_of_le hless hbound) attributeValueStops
    split at h
    · cases h
    · dsimp only at h
      split at h
      · obtain rfl := Progress.again.inj h
        exact Nat.lt_of_le_of_lt hvalue.leads.remaining_le hless
      · split at h
        · obtain rfl := Progress.again.inj h
          exact hless
        · obtain rfl := Progress.again.inj h
          exact hless

namespace Checked

theorem attributeStep_eq {read : ResourceAttributes} (hscan : checked.Agrees source bound scan)
    (hbound : read.state.remaining ≤ bound) (hplaced : read.state.cursor.Placed source) :
    attributeStep source checked read = .ok (ResourceAttributes.step source scan read) := by
  unfold attributeStep ResourceAttributes.step
  cases htoken : read.state.token? with
  | none => rfl
  | some token =>
      have hless := ParseState.remaining_next_lt htoken
      have hvalue := hscan.here (ParseState.placed_next hplaced)
        (Nat.lt_of_lt_of_le hless hbound) attributeValueStops
      dsimp only
      rw [hvalue]
      split
      · rfl
      · split
        · rfl
        · split <;> rfl

theorem readAttributes_eq (hscan : checked.Agrees source bound scan)
    (hbound : state.next.remaining ≤ bound) (hplaced : state.cursor.Placed source) :
    readAttributes source checked state = .ok (ResourceAttributes.readAll source scan state) := by
  have hnext := ParseState.placed_next hplaced
  have hloop : loop (attributeStep source checked) (state.next.remaining + 1)
      ⟨[], none, none, state.next⟩ = .ok (iterate (ResourceAttributes.step source scan)
        (state.next.remaining + 1) ⟨[], none, none, state.next⟩) := by
    refine loop_eq
      (ResourceAttributes.Ordered source state.next (state.next.offset source))
      (fun read => read.state.remaining) (fun read hread => ?_) (fun read next hread hstep => ?_)
      _ _ (ResourceAttributes.ordered_begin hnext) (Nat.lt_succ_self _)
    · exact attributeStep_eq hscan (Nat.le_trans hread.leads.remaining_le hbound)
        hread.placed_state
    · have hnext := ResourceAttributes.ordered_step hscan.lays hbound hread
      rw [hstep] at hnext
      exact ⟨hnext, ResourceAttributes.remaining_step hscan.lays
        (Nat.le_trans hread.leads.remaining_le hbound) hread.placed_state hstep⟩
  unfold readAttributes ResourceAttributes.readAll
  dsimp only
  rw [hloop]
  rfl

theorem resourceBody_eq {title? : Option Node} (hscan : checked.Agrees source bound scan)
    (hbound : state.next.remaining ≤ bound) (hplaced : state.cursor.Placed source) :
    resourceBody source checked type offset title? state =
      .ok (state.resourceBody source scan type offset title?) := by
  unfold resourceBody ParseState.resourceBody
  rw [readAttributes_eq hscan hbound hplaced]
  rfl

theorem resourceTitle_eq (type : List Char) (hscan : checked.Agrees source bound scan)
    (hplaced : state.cursor.Placed source) (htoken : state.token? = some token)
    (hbound : state.moveNext.remaining < bound) :
    resourceTitle source checked type token state =
      .ok (state.resourceTitle source scan type token) := by
  have hoffset : state.offset source = token.offset := ParseState.offset_of_token? htoken
  have hle : state.offset source ≤ state.moveNext.offset source :=
    state.leadsTo_moveNext.offset_le hplaced
  have htitles := hscan.agrees token.offset indexStops state.moveNext hbound
    (ParseState.placed_moveNext hplaced) (by omega)
  unfold resourceTitle ParseState.resourceTitle
  rw [htitles]
  cases token.kind <;> first | rfl | (dsimp only; split <;> rfl)

theorem restOfBody_eq (hscan : checked.Agrees source bound scan)
    (hbound : state.remaining < bound) (hplaced : state.cursor.Placed source) :
    restOfBody source checked state = .ok (state.restOfBody source scan) := by
  unfold restOfBody ParseState.restOfBody
  rw [hscan.here hplaced hbound]
  rfl

theorem resource_eq (hscan : checked.Agrees source bound scan)
    (hbound : state.remaining < bound) (hplaced : state.cursor.Placed source) :
    resource source checked type offset state = .ok (state.resource source scan type offset) := by
  have hnext := ParseState.placed_next hplaced
  have hremaining := state.remaining_next_le
  have hrest : ∀ reported : ParseState, state.next.cursor.LeadsTo reported.cursor →
      restOfBody source checked reported = .ok (reported.restOfBody source scan) := by
    intro reported hleads
    have hle : reported.remaining ≤ state.next.remaining := hleads.remaining_le
    exact restOfBody_eq hscan (by omega) (hleads.placed hnext)
  unfold resource ParseState.resource
  by_cases hcapital : startsWithCapital type = true
  · rw [if_pos hcapital, if_pos hcapital, resourceBody_eq hscan (by omega) hplaced]
    rfl
  · rw [if_neg hcapital, if_neg hcapital]
    dsimp only
    cases htoken : state.next.token? with
    | none => rfl
    | some token =>
        have hmove := state.next.remaining_moveNext_le
        have hleads := (ParseState.reads_resourceTitle type hscan.lays hnext htoken (by omega)).1
        dsimp only
        rw [resourceTitle_eq type hscan hnext htoken (by omega)]
        revert hleads
        rcases state.next.resourceTitle source scan type token with ⟨title?, titled⟩
        intro hleads
        dsimp only [bind, Except.bind] at hleads ⊢
        cases title? with
        | none =>
            have hreported := hrest (titled.report .unexpectedResourceTitle token.range)
            rw [ParseState.cursor_report] at hreported
            exact hreported hleads
        | some title =>
            have hcolon := hleads.trans titled.leadsTo_next
            have hcolonLe : titled.next.remaining ≤ state.next.remaining := hcolon.remaining_le
            have hlater := titled.next.remaining_next_le
            have hreported := hrest (titled.next.reportHere source .missingTitleColon)
            rw [ParseState.cursor_reportHere] at hreported
            dsimp only
            rw [resourceBody_eq hscan (by omega) (hcolon.placed hnext), reportHere_eq]
            dsimp only
            rw [hreported hcolon]
            split
            · rfl
            · split <;> rfl

end Checked

end Manifest
