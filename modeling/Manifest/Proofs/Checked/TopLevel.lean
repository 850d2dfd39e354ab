import Mathlib.Data.List.Chain
import Manifest.Proofs.Checked.Scans
import Manifest.Proofs.Parsing.TopLevel

/-!
# Checked manifests

No check of a parse fails, from the lexer to the last declaration, whatever the text and
however the host interrupts.  The cursor only goes forward between the tokens that are
dispatched.
-/

namespace Manifest

/-- A token that the top level dispatches, and the index its routine leaves the cursor on. -/
structure Dispatch where
  index : Int
  left : Int
  deriving DecidableEq, Repr

/-- The index of the first significant token behind an index. -/
def nextSignificant? (tokens : List Token) (left : Int) : Option Int :=
  ((tokens.drop (left + 1).toNat).findIdx? fun token => !token.isTrivia).map
    fun passed : Nat => left + 1 + passed

/-- The declarations that a checked parse has read, and the tokens it has dispatched. -/
structure CheckedRun where
  read : TopLevel
  dispatches : List Dispatch

namespace Checked

def declaration (source : List Char) (reportGap : Bool) (token : Token) (read : TopLevel) :
    Except ParseFault TopLevel := do
  match token.kind with
  | .kwClass =>
      let (nodes, state) ← classDecl source (scan source) read.state
      return { read with declarations := read.declarations ++ nodes, state }
  | .kwNode =>
      let (node, state) ← nodeDecl source (scan source) read.state
      return { read with declarations := read.declarations ++ [node], state }
  | .kwDefine =>
      let (node, state) ← defineDecl source (scan source) read.state
      return { read with declarations := read.declarations ++ [node], state }
  | _ => return read.gap reportGap token

def topLevelStep (source : List Char) (reportGap : Bool) (interruption : Interruption)
    (run : CheckedRun) : Except ParseFault (Progress CheckedRun) := do
  match run.read.state.token? with
  | none => return .done run
  | some token =>
      let asked := { run.read with validityQuestions := run.read.validityQuestions + 1 }
      if interruption.invalid run.read.validityQuestions then
        return .done { run with read := asked }
      else
        let asked :=
          { asked with cancellationQuestions := run.read.cancellationQuestions + 1 }
        if interruption.cancelled run.read.cancellationQuestions then
          return .done { run with read := asked }
        else
          let read ← declaration source reportGap token asked
          return .again
            { read := { read with state := read.state.next }
              dispatches := run.dispatches ++
                [⟨run.read.state.cursor.index, read.state.cursor.index⟩] }

def readManifest (source : List Char) (reportGap : Bool) (interruption : Interruption)
    (state : ParseState) : Except ParseFault CheckedRun :=
  let first := ParseState.next { state with cursor := state.cursor.rewind }
  loop (topLevelStep source reportGap interruption) (first.remaining + 1)
    ⟨⟨[], false, first, 0, 0⟩, []⟩

def ofStream (options : ParseOptions) (interruption : Interruption) (source : List Char)
    (stream : TokenStream) : Except ParseFault (Parsed × List Dispatch) := do
  let run ← readManifest source options.reportGap interruption (.ofTokens stream.tokens)
  return (
    { source
      tokens := stream.tokens
      root := run.read.root source
      diagnostics := Diagnostic.collect [stream.diagnostics, run.read.state.diagnostics]
      cancelled := interruption.cancelled run.read.cancellationQuestions
      aborted := interruption.invalid run.read.validityQuestions },
    run.dispatches)

def lexText (multiline : Bool) (source : List Char) : Except ParseFault TokenStream :=
  match PushBack.lex multiline source with
  | .ok stream => .ok stream
  | .error fault => .error (.lexer fault)

def ofText (options : ParseOptions) (interruption : Interruption) (source : List Char) :
    Except ParseFault (Parsed × List Dispatch) := do
  let stream ← lexText options.multiline source
  ofStream options interruption source stream

end Checked

/-! ## Indices -/

namespace Cursor

variable {cursor : Cursor} {token : Token}

theorem findIdx?_settle (behind tokens : List Token)
    (h : (settle behind tokens).token? = some token) :
    ∃ passed : Nat, tokens.findIdx? (fun token => !token.isTrivia) = some passed ∧
      (settle behind tokens).index = behind.length + passed := by
  induction tokens generalizing behind with
  | nil => cases h
  | cons first tokens ih =>
      rw [List.findIdx?_cons]
      by_cases htrivia : first.isTrivia = true
      · unfold settle at h ⊢
        rw [if_pos htrivia] at h ⊢
        obtain ⟨passed, hfind, hindex⟩ := ih (first :: behind) h
        refine ⟨passed + 1, ?_, ?_⟩
        · rw [hfind, htrivia]
          rfl
        · rw [hindex, List.length_cons]
          omega
      · refine ⟨0, ?_, ?_⟩
        · rw [Bool.eq_false_iff.2 htrivia]
          rfl
        · unfold settle
          rw [if_neg htrivia]
          rfl

theorem nextSignificant?_next (h : cursor.next.token? = some token) :
    nextSignificant? cursor.tokens cursor.index = some cursor.next.index := by
  have hfound : ∀ behind tokens : List Token, (settle behind tokens).token? = some token →
      ∀ (all : List Token) (index : Int), all = behind.reverse ++ tokens →
        index = (behind.length : Int) - 1 →
          nextSignificant? all index = some (settle behind tokens).index := by
    rintro behind tokens htoken _ _ rfl rfl
    obtain ⟨passed, hfind, hindex⟩ := findIdx?_settle behind tokens htoken
    unfold nextSignificant?
    rw [Int.sub_add_cancel, Int.toNat_natCast, List.drop_left' List.length_reverse, hfind, hindex]
    rfl
  cases cursor with
  | start tokens => exact hfound [] tokens h _ _ rfl rfl
  | on behind current ahead =>
      refine hfound (current :: behind) ahead h _ _ ?_ ?_
      · rw [List.reverse_cons, List.append_assoc]
        rfl
      · rw [List.length_cons]
        show (behind.length : Int) = _
        omega
  | past behind => cases h

end Cursor

/-! ## Their checks hold -/

namespace Dispatch

def beforeAll : Dispatch :=
  ⟨-1, -1⟩

/-- One dispatch follows another one: on the first significant token behind the index on which
the cursor was left. -/
def Follows (tokens : List Token) (before after : Dispatch) : Prop :=
  before.index < after.index ∧ nextSignificant? tokens before.left = some after.index

end Dispatch

/-- A checked parse between two dispatches: the cursor is on the first significant token behind
the place where it was left. -/
structure CheckedRun.Dispatching (source : List Char) (first : ParseState) (run : CheckedRun) :
    Prop where
  laying : TopLevel.Laying source first run.read
  chain : (Dispatch.beforeAll :: run.dispatches).IsChain (Dispatch.Follows first.cursor.tokens)
  pending : ∃ left : Cursor, run.read.state.cursor = left.next ∧
    left.tokens = first.cursor.tokens ∧
    ∀ last ∈ (Dispatch.beforeAll :: run.dispatches).getLast?,
      left.index = last.left ∧ last.index < run.read.state.cursor.index

namespace Checked

variable {source : List Char} {first : ParseState} {run : CheckedRun} {token : Token}
  {reportGap : Bool} {interruption : Interruption}

theorem declaration_eq {read : TopLevel} (hplaced : read.state.cursor.Placed source) :
    declaration source reportGap token read = .ok (read.declaration source reportGap token) := by
  have hscan := agrees_scan source (read.state.next.remaining + 1)
  have hbound : read.state.next.remaining < read.state.next.remaining + 1 := Nat.lt_succ_self _
  unfold declaration TopLevel.declaration
  rw [classDecl_eq hscan hbound hplaced, nodeDecl_eq hscan hbound hplaced,
    defineDecl_eq hscan hbound hplaced]
  cases token.kind <;> rfl

def dispatched (source : List Char) (reportGap : Bool) (token : Token) (run : CheckedRun) :
    CheckedRun :=
  let read := run.read.declaration source reportGap token
  { read := { read with state := read.state.next }
    dispatches := run.dispatches ++ [⟨run.read.state.cursor.index, read.state.cursor.index⟩] }

theorem dispatching_dispatched (h : run.Dispatching source first)
    (htoken : run.read.state.token? = some token) (reportGap : Bool) :
    (dispatched source reportGap token run).Dispatching source first ∧
      (dispatched source reportGap token run).read.state.remaining <
        run.read.state.remaining := by
  have hplaced := h.laying.placed_after
  obtain ⟨nodes, -, hreads⟩ := TopLevel.reads_declaration hplaced reportGap token
  have hlaying : TopLevel.Laying source first (dispatched source reportGap token run).read :=
    h.laying.declaration
  have hless := ParseState.remaining_next_lt htoken
  obtain ⟨left, hcursor, htokens, hlast⟩ := h.pending
  have hfound : nextSignificant? first.cursor.tokens left.index =
      some run.read.state.cursor.index := by
    have hunder : left.next.token? = some token := by
      rw [← hcursor]
      exact htoken
    rw [hcursor, ← htokens]
    exact Cursor.nextSignificant?_next hunder
  refine ⟨⟨hlaying, ?_, ?_⟩, Nat.lt_of_le_of_lt hreads.remaining_le hless⟩
  · apply h.chain.append (List.isChain_singleton _)
    intro last hmem dispatch hdispatch
    obtain ⟨hleft, hindex⟩ := hlast last hmem
    obtain rfl := Option.some.inj hdispatch
    refine ⟨hindex, ?_⟩
    rw [← hleft]
    exact hfound
  · refine ⟨(run.read.declaration source reportGap token).state.cursor, rfl, ?_, ?_⟩
    · have hbehind := hlaying.leads.tokens_eq
      have hnext := ((run.read.declaration source reportGap token).state.leadsTo_next).tokens_eq
      exact hnext.symm.trans hbehind
    · intro last hmem
      have hconcat : (Dispatch.beforeAll :: run.dispatches ++
          [Dispatch.mk run.read.state.cursor.index
            (run.read.declaration source reportGap token).state.cursor.index]).getLast? = some _ :=
        List.getLast?_concat
      obtain rfl := Option.some.inj (hconcat.symm.trans hmem)
      have hon : run.read.state.cursor.index < run.read.state.next.cursor.index :=
        Cursor.index_lt_next htoken
      have hbehind := hreads.leads.index_le (ParseState.placed_next hplaced).begun
      exact ⟨rfl, Int.lt_of_lt_of_le hon hbehind⟩

/-- What a step of a checked parse does, and that it keeps the order of the dispatches. -/
theorem topLevelStep_eq (h : run.Dispatching source first) :
    (∃ next, topLevelStep source reportGap interruption run = .ok (.again next) ∧
      TopLevel.step source reportGap interruption run.read = .again next.read ∧
      next.Dispatching source first ∧ next.read.state.remaining < run.read.state.remaining) ∨
    (∃ last, topLevelStep source reportGap interruption run = .ok (.done last) ∧
      TopLevel.step source reportGap interruption run.read = .done last.read ∧
      last.Dispatching source first) := by
  unfold topLevelStep TopLevel.step
  cases htoken : run.read.state.token? with
  | none => exact .inr ⟨run, rfl, rfl, h⟩
  | some token =>
      dsimp only
      by_cases hinvalid : interruption.invalid run.read.validityQuestions = true
      · rw [if_pos hinvalid, if_pos hinvalid]
        exact .inr ⟨_, rfl, rfl, h.laying, h.chain, h.pending⟩
      · rw [if_neg hinvalid, if_neg hinvalid]
        by_cases hcancelled : interruption.cancelled run.read.cancellationQuestions = true
        · rw [if_pos hcancelled, if_pos hcancelled]
          exact .inr ⟨_, rfl, rfl, h.laying, h.chain, h.pending⟩
        · rw [if_neg hcancelled, if_neg hcancelled]
          have hasked : ({ run with read := { run.read with
              validityQuestions := run.read.validityQuestions + 1
              cancellationQuestions := run.read.cancellationQuestions + 1 } } :
              CheckedRun).Dispatching source first := ⟨h.laying, h.chain, h.pending⟩
          obtain ⟨hnext, hless⟩ := dispatching_dispatched hasked htoken reportGap
          rw [declaration_eq hasked.laying.placed_after]
          exact .inl ⟨_, rfl, rfl, hnext, hless⟩

theorem readManifest_eq (multiline reportGap : Bool) (interruption : Interruption)
    (source : List Char) :
    ∃ run, readManifest source reportGap interruption
        (.ofTokens (TokenStream.lex multiline source).tokens) = .ok run ∧
      run.read = TopLevel.readAll source reportGap interruption
        (.ofTokens (TokenStream.lex multiline source).tokens) ∧
      run.Dispatching source
        (ParseState.ofTokens (TokenStream.lex multiline source).tokens).next := by
  have hplaced := TopLevel.placed_ofTokens multiline source
  have hbegin : CheckedRun.Dispatching source
      (ParseState.ofTokens (TokenStream.lex multiline source).tokens).next
      ⟨⟨[], false, (ParseState.ofTokens (TokenStream.lex multiline source).tokens).next, 0, 0⟩,
        []⟩ := by
    refine ⟨ParseState.reads_nothing hplaced (.refl _) (Int.natCast_nonneg _),
      List.isChain_singleton _, .start _, rfl, ?_, ?_⟩
    · exact (Cursor.leadsTo_next _).tokens_eq.symm
    · intro last hmem
      obtain rfl := Option.some.inj hmem
      refine ⟨rfl, ?_⟩
      have hindex := Cursor.index_of_begun hplaced.begun
      show (-1 : Int) < Cursor.index _
      rw [hindex]
      omega
  obtain ⟨run, hrun, hread, hdispatching⟩ := loop_view CheckedRun.read
    (CheckedRun.Dispatching source _) (fun read => read.state.remaining)
    (fun _ hrun => topLevelStep_eq hrun) _ _ hbegin (Nat.lt_succ_self _)
  exact ⟨run, hrun, hread.symm, hdispatching⟩

end Checked

/-! ## Parses -/

namespace Checked

variable (options : ParseOptions) (interruption : Interruption) (source : List Char)

theorem lexText_eq (multiline : Bool) (source : List Char) :
    lexText multiline source = .ok (TokenStream.lex multiline source) := by
  unfold lexText
  rw [PushBack.lex_eq]

/-- No check of a parse of lexed tokens fails, and the dispatches are in order. -/
theorem ofStream_eq :
    ∃ dispatches,
      ofStream options interruption source (TokenStream.lex options.multiline source) =
        .ok (Parsed.ofText options interruption source, dispatches) ∧
      (Dispatch.beforeAll :: dispatches).IsChain
        (Dispatch.Follows (TokenStream.lex options.multiline source).tokens) := by
  obtain ⟨run, hrun, hread, hdispatching⟩ :=
    readManifest_eq options.multiline options.reportGap interruption source
  have hchain := hdispatching.chain
  have htokens : ∀ tokens, (ParseState.ofTokens tokens).next.cursor.tokens = tokens :=
    fun tokens => (Cursor.leadsTo_next (.start tokens)).tokens_eq
  rw [htokens] at hchain
  refine ⟨run.dispatches, ?_, hchain⟩
  unfold ofStream
  rw [hrun]
  dsimp only [bind, Except.bind]
  rw [hread]
  rfl

/-- No check of a parse fails, whatever the text and however the host interrupts: the parse ends
with its result.  The indices at which it dispatches tokens increase, and each dispatched token
is the first significant one behind the index on which the cursor was left. -/
theorem parse_ends :
    ∃ dispatches,
      ofText options interruption source =
        .ok (Parsed.ofText options interruption source, dispatches) ∧
      ofStream options interruption source (TokenStream.lex options.multiline source) =
        .ok (Parsed.ofStream options interruption source
          (TokenStream.lex options.multiline source), dispatches) ∧
      (dispatches.map Dispatch.index).Pairwise (· < ·) ∧
      (Dispatch.beforeAll :: dispatches).IsChain fun before after =>
        nextSignificant? (TokenStream.lex options.multiline source).tokens before.left =
          some after.index := by
  obtain ⟨dispatches, hstream, hchain⟩ := ofStream_eq options interruption source
  have hindices : ((Dispatch.beforeAll :: dispatches).map Dispatch.index).Pairwise (· < ·) := by
    rw [← List.isChain_iff_pairwise, List.isChain_map]
    exact hchain.imp fun _ _ h => h.1
  refine ⟨dispatches, ?_, hstream, ?_, hchain.imp fun _ _ h => h.2⟩
  · unfold ofText
    rw [lexText_eq]
    exact hstream
  · rw [List.map_cons] at hindices
    exact (List.pairwise_cons.1 hindices).2

end Checked

end Manifest
