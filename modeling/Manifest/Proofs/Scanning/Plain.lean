import Manifest.Proofs.Scanning.Extent
import Manifest.Proofs.Scanning.Runs

/-!
# Scans over plain runs

A scan of a plain run counts some brackets itself, and leaves others to the scans that it opens
inside of calls and indices.  Each of these takes just what its own bracket encloses, so the
brackets that are open for the scan are those that it has counted, and it stops where the run
ends.
-/

namespace Manifest

open ParseState (OnWay EndsRun)

/-- Where fewer than `bound` tokens are left, a scan comes to the goal of a passable run. -/
structure Scan.Finds (source : List Char) (bound : Nat) (scan : Scan) : Prop where
  lays : scan.Lays source bound
  finds : ∀ (offset : Nat) (stops : List TokenKind) (state goal : ParseState),
    state.remaining < bound → state.cursor.Placed source → offset ≤ state.offset source →
      goal.EndsRun stops → goal.OnWay stops [] state → (scan offset stops state).2 = goal

namespace Scanning

/-- A scan on its way to a goal has counted the brackets that are still open. -/
def Counts (goal : ParseState) (stops : List TokenKind) (scanning : Scanning) : Prop :=
  ∃ opened, scanning.nesting = .ofOpen opened ∧ goal.OnWay stops opened scanning.state

variable {source : List Char} {bound : Nat} {scan : Scan} {stops : List TokenKind}
  {goal state last : ParseState} {opened further : List Bracket} {kind : TokenKind}
  {token : Token} {scanning other : Scanning}

/-! ## Ways to go on -/

theorem counts_stay (hnesting : other.nesting = .ofOpen opened)
    (h : goal.OnWay stops opened state) : Counts goal stops (other.stay state) :=
  ⟨opened, hnesting, h⟩

theorem counts_advance (hnesting : other.nesting = .ofOpen opened)
    (h : goal.OnWay stops opened state.next) : Counts goal stops (other.advance state) :=
  ⟨opened, hnesting, h⟩

/-- Only a token that can end a run is met at the goal. -/
theorem passing_of_isAt (hgoal : goal.Halts stops) (h : goal.OnWay stops opened state)
    (hat : state.isAt kind = true) (hkind : kind ∉ haltKinds) :
    ∃ token further, token.kind = kind ∧ goal.Passing stops opened state token further := by
  obtain ⟨token, htoken, rfl⟩ := ParseState.token?_of_isAt hat
  rcases h.cases hgoal with ⟨rfl, -⟩ | ⟨first, further, hpassing⟩
  · obtain ⟨stop, hstop, hallowed, -⟩ := hgoal
    obtain rfl : token = stop := Option.some.inj (htoken.symm.trans hstop)
    exact (hkind hallowed).elim
  · obtain rfl : token = first := Option.some.inj (htoken.symm.trans hpassing.token?)
    exact ⟨token, further, rfl, hpassing⟩

theorem further_eq (h : goal.Passing stops opened state token further)
    (hopens : Bracket.openedBy? token.kind = none) (hcloses : Bracket.closedBy? token.kind = none) :
    further = opened :=
  Option.some.inj (h.brackets.symm.trans (Bracket.after_other hopens hcloses opened))

/-- A scan inside of a bracket ends on the token that closes it. -/
theorem exists_closer_inside (bracket : Bracket) (hscan : scan.Finds source bound)
    (hgoal : goal.Halts stops) (hplaced : state.cursor.Placed source)
    (hbound : state.remaining ≤ bound)
    (h : goal.OnWay stops opened state) (hat : state.isAt kind = true) (hkind : kind ∉ haltKinds)
    (hopens : Bracket.openedBy? kind = some bracket) :
    ∃ closer : ParseState, closer.EndsRun [bracket.closing] ∧
      closer.OnWay [bracket.closing] [] state.moveNext ∧ goal.OnWay stops opened closer.next ∧
      (scan.inside source [bracket.closing] state).2 = closer := by
  obtain ⟨token, further, rfl, hpassing⟩ := passing_of_isAt hgoal h hat hkind
  obtain rfl : bracket :: opened = further :=
    Option.some.inj ((Bracket.after_opening hopens opened).symm.trans hpassing.brackets)
  obtain ⟨closer, hcloser, hinner, hbehind⟩ := hpassing.moveNext.exists_closer hgoal
  have hless : state.moveNext.remaining < state.remaining :=
    Cursor.remaining_moveNext_lt hpassing.token?
  exact ⟨closer, hcloser, hinner, hbehind,
    hscan.finds _ _ _ closer (Nat.lt_of_lt_of_le hless hbound)
      (ParseState.placed_moveNext hplaced) (Nat.le_refl _) hcloser hinner⟩

theorem onWay_inside (bracket : Bracket) (hscan : scan.Finds source bound)
    (hgoal : goal.Halts stops) (hplaced : state.cursor.Placed source)
    (hbound : state.remaining ≤ bound)
    (h : goal.OnWay stops opened state) (hat : state.isAt kind = true) (hkind : kind ∉ haltKinds)
    (hopens : Bracket.openedBy? kind = some bracket) :
    goal.OnWay stops opened (scan.inside source [bracket.closing] state).2.next := by
  obtain ⟨closer, -, -, hbehind, hfound⟩ :=
    exists_closer_inside bracket hscan hgoal hplaced hbound h hat hkind hopens
  rw [hfound]
  exact hbehind

/-! ## Variables, calls and indices -/

theorem counts_variableAt (hgoal : goal.Halts stops)
    (hnesting : scanning.nesting = .ofOpen opened)
    (hnext : goal.OnWay stops opened scanning.state.next) :
    Counts goal stops (scanning.variableAt source token) := by
  unfold variableAt
  dsimp only
  split
  · rename_i hequals
    obtain ⟨equals, further, hkind, hpassing⟩ := passing_of_isAt hgoal hnext hequals (by decide)
    obtain rfl := further_eq hpassing (by rw [hkind]; rfl) (by rw [hkind]; rfl)
    exact counts_advance hnesting hpassing.next
  · exact counts_stay hnesting hnext

theorem counts_callAt (hscan : scan.Finds source bound) (hgoal : goal.Halts stops)
    (hplaced : state.cursor.Placed source) (hbound : state.remaining ≤ bound)
    (hnesting : scanning.nesting = .ofOpen opened) (hnext : goal.OnWay stops opened state.next) :
    Counts goal stops (scanning.callAt source scan token state) := by
  have hfollowing := Nat.le_trans state.remaining_next_le hbound
  unfold callAt
  dsimp only
  split
  · rename_i hparen
    exact counts_advance hnesting (onWay_inside .round hscan hgoal
      (ParseState.placed_next hplaced) hfollowing hnext hparen (by decide) rfl)
  · exact counts_advance hnesting hnext

theorem plain_of_name (h : kind = .identifier ∨ kind.category = .function) :
    Bracket.openedBy? kind = none ∧ Bracket.closedBy? kind = none ∧ kind ∉ haltKinds := by
  rcases h with rfl | h
  · decide
  · revert h
    cases kind <;> decide

theorem counts_dotAt (hscan : scan.Finds source bound) (hgoal : goal.Halts stops)
    (hplaced : scanning.state.cursor.Placed source) (hbound : scanning.state.remaining ≤ bound)
    (hnesting : scanning.nesting = .ofOpen opened)
    (hmove : goal.OnWay stops opened scanning.state.moveNext) :
    Counts goal stops (scanning.dotAt source scan) := by
  unfold dotAt
  dsimp only
  split
  · exact counts_stay hnesting hmove
  · rename_i token htoken
    split
    · rename_i hname
      obtain ⟨hopens, hcloses, hstop⟩ := plain_of_name hname
      have hat : scanning.state.moveNext.isAt token.kind = true :=
        beq_iff_eq.2 (congrArg (Option.map Token.kind) htoken)
      obtain ⟨first, further, hkind, hpassing⟩ := passing_of_isAt hgoal hmove hat hstop
      obtain rfl := further_eq hpassing (by rw [hkind]; exact hopens) (by rw [hkind]; exact hcloses)
      exact counts_callAt hscan hgoal (ParseState.placed_moveNext hplaced)
        (Nat.le_trans scanning.state.remaining_moveNext_le hbound) hnesting hpassing.next
    · exact counts_stay hnesting hmove

/-- A class reference ends on the bracket that closes it. -/
theorem onWay_classReference {reference : Node} (hgoal : goal.Halts stops)
    (hnext : goal.OnWay stops opened state.next)
    (h : state.classReference source false = (some reference, last)) :
    goal.OnWay stops opened last.next := by
  obtain ⟨hbracket, ⟨name, hname, hstring, -⟩, rfl, hclosing⟩ := ParseState.classReference_some h
  obtain ⟨bracket, inBracket, hkind, hopening⟩ := passing_of_isAt hgoal hnext hbracket (by decide)
  obtain rfl : .square :: opened = inBracket := by
    refine Option.some.inj (Eq.trans ?_ hopening.brackets)
    rw [hkind]
    exact (Bracket.after_opening rfl opened).symm
  have hat : state.next.next.isAt .string = true :=
    beq_iff_eq.2 ((congrArg (Option.map Token.kind) hname).trans (congrArg some hstring))
  obtain ⟨string, further, hkind, hnamed⟩ := passing_of_isAt hgoal hopening.next hat (by decide)
  obtain rfl := further_eq hnamed (by rw [hkind]; rfl) (by rw [hkind]; rfl)
  rcases hnamed.next.cases hgoal with ⟨-, hnil⟩ | ⟨closer, further, hpassing⟩
  · cases hnil
  · obtain ⟨token, htoken, hkind⟩ := ParseState.token?_of_isAt hclosing
    obtain rfl : token = closer := Option.some.inj (htoken.symm.trans hpassing.token?)
    obtain rfl : opened = further := by
      refine Option.some.inj (Eq.trans ?_ hpassing.brackets)
      rw [hkind]
      exact (Bracket.after_closing rfl opened).symm
    exact hpassing.next

theorem counts_applied? (hscan : scan.Finds source bound) (hgoal : goal.Halts stops)
    (hplaced : scanning.state.cursor.Placed source) (hbound : scanning.state.remaining ≤ bound)
    (hnesting : scanning.nesting = .ofOpen opened)
    (hnext : goal.OnWay stops opened scanning.state.next)
    (h : scanning.applied? source scan token = some other) : Counts goal stops other := by
  have hfollowing := Nat.le_trans scanning.state.remaining_next_le hbound
  have hplacedNext := ParseState.placed_next hplaced
  unfold applied? at h
  dsimp only at h
  split at h
  · rename_i hparen
    obtain rfl := Option.some.inj h
    exact counts_advance hnesting
      (onWay_inside .round hscan hgoal hplacedNext hfollowing hnext hparen (by decide) rfl)
  · split at h
    · rename_i hbracket
      split at h
      · rename_i reference last heq
        obtain rfl := Option.some.inj h
        split at heq
        · exact counts_advance hnesting (onWay_classReference hgoal hnext heq)
        · cases heq
      · split at h
        · obtain rfl := Option.some.inj h
          exact counts_advance hnesting (onWay_inside .square hscan hgoal hplacedNext hfollowing
            hnext hbracket (by decide) rfl)
        · cases h
    · cases h

/-! ## Names and single tokens -/

/-- A name in a plain run is kept: there is a brace behind it only where the run ends with it. -/
theorem nameAt_of_passing (hgoal : goal.Halts stops)
    (hnesting : scanning.nesting = .ofOpen opened) (hname : token.kind = .identifier)
    (h : goal.Passing stops opened scanning.state token opened) :
    scanning.nameAt source scan stops token =
      (scanning.keep (token.text source)).advance scanning.state := by
  unfold nameAt
  dsimp only
  split
  · rfl
  · split
    · rfl
    · rename_i next hnext
      split
      · rename_i hbrace
        have hat : scanning.state.next.isAt .leftBrace = true :=
          beq_iff_eq.2 ((congrArg (Option.map Token.kind) hnext).trans (congrArg some hbrace.1))
        obtain ⟨hend, rfl⟩ := h.name hname hat
        obtain ⟨stop, hstop, -, hends⟩ := hgoal
        rw [← hend] at hstop
        obtain rfl : next = stop := Option.some.inj (hnext.symm.trans hstop)
        have hgoes := hbrace.2
        unfold endsAt at hgoes
        rw [hnesting, Nesting.isActive_ofOpen, ← hbrace.1, hends hbrace.1] at hgoes
        cases hgoes
      · split
        · rename_i hclass
          rw [hname] at hclass
          cases hclass.1
        · rfl

theorem counts_wordAt (hscan : scan.Finds source bound) (hgoal : goal.Halts stops)
    (hplaced : scanning.state.cursor.Placed source) (hbound : scanning.state.remaining ≤ bound)
    (hnesting : scanning.nesting = .ofOpen opened) (hname : token.kind = .identifier)
    (h : goal.Passing stops opened scanning.state token opened) :
    Counts goal stops (scanning.wordAt source scan stops token) := by
  unfold wordAt
  dsimp only
  rw [if_pos hname]
  cases happlied : scanning.applied? source scan token with
  | some other => exact counts_applied? hscan hgoal hplaced hbound hnesting h.next happlied
  | none =>
      rw [Option.getD_none, nameAt_of_passing hgoal hnesting hname h]
      exact counts_advance hnesting h.next

/-- A token that begins no statement is a string, a variable, a name or a dot, or else it is a
function that is called, or is kept as it is. -/
theorem significantAt_cases {motive : Scanning → Prop} (hkind : token.kind ∉ statementKinds)
    (hstring : token.kind = .string → motive ((scanning.add
      [Node.string token.offset (token.text source)]).advance scanning.state))
    (hvariable : token.kind = .variable → motive (scanning.variableAt source token))
    (hname : token.kind = .identifier → motive (scanning.wordAt source scan stops token))
    (hdot : token.kind = .dot → motive (scanning.dotAt source scan))
    (hother : token.kind ∉ [TokenKind.variable, .string, .dot, .identifier] →
      motive (scanning.callAt source scan token scanning.state) ∧
        motive ((scanning.keep (token.text source)).advance scanning.state)) :
    motive (scanning.significantAt source scan stops token) := by
  have hstatement : ∀ kind, token.kind = kind → kind ∉ statementKinds := by
    rintro kind rfl
    exact hkind
  unfold significantAt
  split
  · rename_i h
    exact hstring h
  · rename_i h
    exact hvariable h
  · rename_i h
    exact (hstatement _ h (by decide)).elim
  · rename_i h
    exact (hstatement _ h (by decide)).elim
  · rename_i h
    exact (hstatement _ h (by decide)).elim
  · rename_i h
    exact hname h
  · rename_i h
    exact (hstatement _ h (by decide)).elim
  · rename_i h
    exact (hstatement _ h (by decide)).elim
  · rename_i h
    exact (hstatement _ h (by decide)).elim
  · rename_i h
    exact (hstatement _ h (by decide)).elim
  · rename_i h
    exact hdot h
  · rename_i hnoString hnoVariable _ _ _ hnoName _ _ _ _ hnoDot
    obtain ⟨hcall, hkeep⟩ := hother (by simpa using ⟨hnoVariable, hnoString, hnoDot, hnoName⟩)
    split
    · exact hcall
    · exact hkeep

theorem counts_significantAt (hscan : scan.Finds source bound) (hgoal : goal.Halts stops)
    (hplaced : scanning.state.cursor.Placed source) (hbound : scanning.state.remaining ≤ bound)
    (hnesting : scanning.nesting = .ofOpen opened)
    (h : goal.Passing stops opened scanning.state token opened) :
    Counts goal stops (scanning.significantAt source scan stops token) := by
  refine significantAt_cases h.statement (fun _ => counts_advance hnesting h.next)
    (fun _ => counts_variableAt hgoal hnesting h.next) (fun hname => ?_) (fun _ => ?_) fun _ => ?_
  · exact counts_wordAt hscan hgoal hplaced hbound hnesting hname h
  · exact counts_dotAt hscan hgoal hplaced hbound hnesting h.moveNext
  · exact ⟨counts_callAt hscan hgoal hplaced hbound hnesting h.next,
      counts_advance hnesting h.next⟩

/-- Whatever a plain run holds under the cursor, the scan goes on in the run, with the brackets
counted that are open there. -/
theorem counts_tokenAt (hscan : scan.Finds source bound) (hgoal : goal.Halts stops)
    (hplaced : scanning.state.cursor.Placed source) (hbound : scanning.state.remaining ≤ bound)
    (hnesting : scanning.nesting = .ofOpen opened)
    (h : goal.Passing stops opened scanning.state token further) :
    Counts goal stops (scanning.tokenAt source scan stops token) := by
  unfold tokenAt
  split
  · rename_i htrivia
    obtain rfl : opened = further :=
      Option.some.inj ((Bracket.after_of_isTrivia htrivia opened).symm.trans h.brackets)
    exact counts_advance hnesting h.next
  · rw [hnesting]
    rcases Nesting.track_ofOpen h.brackets with htrack | ⟨htrack, rfl⟩
    · rw [htrack]
      exact counts_advance rfl h.next
    · rw [htrack]
      exact counts_significantAt hscan hgoal hplaced hbound hnesting h

/-! ## Loops -/

/-- Short of its goal a scan goes on with the token under the cursor. -/
theorem step_of_passing (hnesting : scanning.nesting = .ofOpen opened)
    (h : goal.Passing stops opened scanning.state token further) :
    step source scan stops scanning = .again (scanning.tokenAt source scan stops token) := by
  have hgoes : scanning.endsAt stops token.kind = false := by
    unfold endsAt
    rw [hnesting, Nesting.isActive_ofOpen]
    cases opened with
    | nil => exact h.passed rfl
    | cons bracket opened => rfl
  unfold step
  rw [h.token?]
  dsimp only
  rw [hgoes]
  rfl

theorem step_of_endsRun (hgoal : goal.EndsRun stops) (hstate : scanning.state = goal)
    (hnesting : scanning.nesting = .ofOpen []) :
    step source scan stops scanning = .done scanning := by
  obtain ⟨stop, hstop, -, hends⟩ := hgoal
  unfold step endsAt
  rw [hstate, hstop, hnesting, Nesting.isActive_ofOpen]
  dsimp only
  rw [hends]
  rfl

/-- Short of its goal a scan goes on, and stays on the way to it; at the goal it ends. -/
theorem counts_step (hscan : scan.Finds source bound) (hgoal : goal.EndsRun stops)
    (hplaced : scanning.state.cursor.Placed source) (hbound : scanning.state.remaining ≤ bound)
    (h : Counts goal stops scanning) :
    scanning.state = goal ∧ step source scan stops scanning = .done scanning ∨
      ∃ next, step source scan stops scanning = .again next ∧ Counts goal stops next := by
  obtain ⟨opened, hnesting, honway⟩ := h
  rcases honway.cases hgoal.halts with ⟨hend, rfl⟩ | ⟨token, further, hpassing⟩
  · exact .inl ⟨hend, step_of_endsRun hgoal hend hnesting⟩
  · exact .inr ⟨_, step_of_passing hnesting hpassing,
      counts_tokenAt hscan hgoal.halts hplaced hbound hnesting hpassing⟩

end Scanning

/-! ## Scans -/

namespace Scan

variable {source : List Char} {bound : Nat} {scan : Scan}

theorem finds_within (hscan : scan.Finds source bound) :
    (within source scan).Finds source (bound + 1) where
  lays := lays_within hscan.lays
  finds := by
    intro offset stops state goal hbound hplaced _ hgoal honway
    have hle : state.remaining ≤ bound := Nat.le_of_lt_succ hbound
    have hstep : ∀ scanning, Scanning.Laying source state (state.offset source) scanning →
        Scanning.Counts goal stops scanning →
        scanning.state = goal ∧ Scanning.step source scan stops scanning = .done scanning ∨
          ∃ next, Scanning.step source scan stops scanning = .again next ∧
            Scanning.Counts goal stops next :=
      fun _ hlaying => Scanning.counts_step hscan hgoal hlaying.placed_after
        (Nat.le_trans hlaying.remaining_le hle)
    obtain ⟨last, ⟨hlaying, hcounts⟩, hdone⟩ := iterate_ends
      (fun scanning => Scanning.Laying source state (state.offset source) scanning ∧
        Scanning.Counts goal stops scanning)
      (fun scanning => scanning.state.remaining)
      (fun scanning next h hagain => by
        obtain ⟨hlaying, hless⟩ := Scanning.laying_step hscan.lays hle h.1 hagain
        rcases hstep scanning h.1 h.2 with ⟨-, hdone⟩ | ⟨other, hother, hcounts⟩
        · rw [hagain] at hdone
          cases hdone
        · obtain rfl := Progress.again.inj (hagain.symm.trans hother)
          exact ⟨⟨hlaying, hcounts⟩, hless⟩)
      (state.remaining + 1) (.begin state)
      ⟨ParseState.reads_nothing hplaced (.refl _) (Int.le_refl _), [], rfl, honway⟩
      (Nat.lt_succ_self _)
    unfold within
    dsimp only
    rw [(Scanning.stopped_step hdone).1]
    rcases hstep last hlaying hcounts with ⟨hend, -⟩ | ⟨next, hagain, -⟩
    · exact hend
    · rw [hdone] at hagain
      cases hagain

theorem finds_ofDepth (source : List Char) (depth : Nat) :
    (ofDepth source depth).Finds source depth := by
  induction depth with
  | zero =>
      refine ⟨lays_ofDepth source 0, fun offset stops state goal hbound => ?_⟩
      exact (Nat.not_lt_zero _ hbound).elim
  | succ depth ih => exact finds_within ih

theorem finds_scan (source : List Char) (bound : Nat) :
    (Manifest.scan source).Finds source bound where
  lays := lays_scan source bound
  finds := fun offset stops state goal _ hplaced hoffset =>
    (finds_ofDepth source (state.remaining + 1)).finds offset stops state goal
      (Nat.lt_succ_self _) hplaced hoffset

/-- From any token of a text that begins a plain run, a scan stops on the token behind the run:
no call, index or class reference takes more of the text than its own brackets.  It reports
nothing, and its stretch is the run with that token. -/
theorem scan_plainRun (multiline : Bool) (source : List Char) (stops : List TokenKind)
    (before run : List Token) (stop : Token) (after : List Token) (reported : List Diagnostic)
    (hlex : (TokenStream.lex multiline source).tokens = before ++ (run ++ stop :: after))
    (hrun : PlainRun [] run) (hstops : ∀ kind ∈ stops, kind ∈ runStops)
    (hstop : stops.contains stop.kind = true)
    (hpassed : ∀ token ∈ Bracket.outside [] run, stops.contains token.kind = false) :
    let first : ParseState := ⟨.enter before.reverse (run ++ stop :: after), reported⟩
    ∃ blob, Checked.scan source (first.offset source) stops first =
        .ok (blob, ⟨.on (before ++ run).reverse stop after, reported⟩) ∧
      ∃ token, (run ++ [stop]).head? = some token ∧ first.token? = some token ∧
        blob.offset = token.offset ∧ blob.endOffset = stop.stop := by
  intro first
  have hbegun : first.cursor.Begun := Cursor.begun_enter _ _
  have hahead : first.cursor.ahead = run ++ stop :: after := Cursor.ahead_enter _ _
  have htokens : first.cursor.tokens = (TokenStream.lex multiline source).tokens := by
    rw [Cursor.tokens_eq, hahead, Cursor.behind_enter, List.reverse_reverse, hlex]
  have hplaced : first.cursor.Placed source := Cursor.placed_of_lex hbegun htokens
  have hgoal : EndsRun stops ⟨.on (before ++ run).reverse stop after, reported⟩ :=
    ⟨stop, rfl, hstops _ (List.contains_iff_mem.1 hstop), hstop⟩
  have honway : OnWay ⟨.on (before ++ run).reverse stop after, reported⟩ stops [] first := by
    refine ⟨run, ⟨rfl, hbegun, hahead, ?_⟩, hrun, hpassed⟩
    rw [Cursor.behind_enter]
    exact List.reverse_append
  have hfinds := (finds_ofDepth source (first.remaining + 1)).finds (first.offset source) stops
    first _ (Nat.lt_succ_self _) hplaced (Nat.le_refl _) hgoal honway
  have hchecked := (Checked.agrees_scan source (first.remaining + 1)).agrees
    (first.offset source) stops first (Nat.lt_succ_self _) hplaced (Nat.le_refl _)
  have hresult : (Manifest.scan source (first.offset source) stops first).2 =
      ⟨.on (before ++ run).reverse stop after, reported⟩ := hfinds
  have hend := endOffset_scan stops hplaced
  rw [hresult] at hend
  obtain ⟨token, hhead⟩ : ∃ token, (run ++ [stop]).head? = some token := by
    cases run with
    | nil => exact ⟨stop, rfl⟩
    | cons token run => exact ⟨token, rfl⟩
  have htoken : first.token? = some token := by
    refine (Cursor.token?_of_begun hbegun).trans ?_
    rw [hahead, ← hhead]
    cases run <;> rfl
  refine ⟨_, hchecked.trans (congrArg Except.ok (Prod.ext rfl hresult)), token, hhead, htoken,
    ?_, hend⟩
  rw [(ends_scan source (first.offset source) stops first).1, ParseState.offset_of_token? htoken]

def nestedCalls : List Char :=
  "f(g[1], Class['a'], Class[$b], File[h(\x7b\x7d)]).each([x]), y".toList

def callsRun : List Token :=
  (TokenStream.lex false nestedCalls).tokens.take 36

/-- The nested calls are scanned up to the comma behind them. -/
theorem scan_plainRun_nestedCalls :
    ∃ (stop : Token) (after : List Token),
      (TokenStream.lex false nestedCalls).tokens = [] ++ (callsRun ++ stop :: after) ∧
      PlainRun [] callsRun ∧ (∀ kind ∈ [TokenKind.comma, .rightBrace], kind ∈ runStops) ∧
      [TokenKind.comma, .rightBrace].contains stop.kind = true ∧
      (∀ token ∈ Bracket.outside [] callsRun,
        [TokenKind.comma, .rightBrace].contains token.kind = false) ∧
      ∃ blob, Checked.scan nestedCalls
          (ParseState.offset nestedCalls ⟨.enter [] (callsRun ++ stop :: after), []⟩)
          [.comma, .rightBrace] ⟨.enter [] (callsRun ++ stop :: after), []⟩ =
          .ok (blob, ⟨.on callsRun.reverse stop after, []⟩) ∧
        ∃ token, (callsRun ++ [stop]).head? = some token ∧
          ParseState.token? ⟨.enter [] (callsRun ++ stop :: after), []⟩ = some token ∧
          blob.offset = token.offset ∧ blob.endOffset = stop.stop := by
  have hcomma : ((TokenStream.lex false nestedCalls).tokens.drop 36).head?.map Token.kind =
      some .comma := by decide +kernel
  obtain ⟨stop, hhead, hkind⟩ := Option.map_eq_some_iff.1 hcomma
  obtain ⟨after, hdrop⟩ := List.head?_eq_some_iff.1 hhead
  have hlex : (TokenStream.lex false nestedCalls).tokens = [] ++ (callsRun ++ stop :: after) := by
    rw [List.nil_append, ← hdrop]
    exact (List.take_append_drop 36 _).symm
  have hrun : PlainRun [] callsRun :=
    ⟨by decide +kernel, by decide +kernel, by decide +kernel⟩
  have hstop : [TokenKind.comma, .rightBrace].contains stop.kind = true := by
    rw [hkind]
    rfl
  have hpassed : ∀ token ∈ Bracket.outside [] callsRun,
      [TokenKind.comma, .rightBrace].contains token.kind = false := by
    decide +kernel
  exact ⟨stop, after, hlex, hrun, by decide, hstop, hpassed,
    scan_plainRun false nestedCalls [.comma, .rightBrace] [] callsRun stop after [] hlex hrun
      (by decide) hstop hpassed⟩

end Scan

end Manifest
