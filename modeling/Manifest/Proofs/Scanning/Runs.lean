import Mathlib.Data.List.Chain
import Manifest.Proofs.Checked.Scans
import Manifest.Proofs.Parallel.Basic
import Manifest.Proofs.Scanning.Brackets

/-!
# Runs of tokens up to a goal

A plain run holds no statement and opens no block after a name, so all that a scan can meet in
it are tokens of their own, calls and indices.  A state is on the way to a goal when the tokens
between them are such a run, one that closes the brackets that are open so far.
-/

namespace Manifest

/-- The tokens that begin a statement of their own inside of a scan. -/
def statementKinds : List TokenKind :=
  [.kwClass, .kwCase, .kwIf, .kwUnless, .fnInclude, .fnRequire, .fnContain]

/-- The tokens that may stand behind a plain run. -/
def runStops : List TokenKind :=
  [.leftBrace, .rightBrace, .rightParen, .rightBracket, .colon, .comma]

/-- The tokens at which a plain run may be left: those, and the words of conditions. -/
def haltKinds : List TokenKind :=
  runStops ++ [.kwIf, .kwUnless]

/-- A row of tokens that closes the open brackets and is properly nested, without statements
and without a brace behind a name. -/
structure PlainRun (opened : List Bracket) (run : List Token) : Prop where
  nested : Bracket.afterAll opened run = some []
  kinds : ∀ token ∈ run, token.kind ∉ statementKinds
  names : (Token.significant run).IsChain fun token next =>
    ¬ (token.kind = .identifier ∧ next.kind = .leftBrace)

/-- A plain run with no stop token outside of its brackets. -/
structure PassableRun (stops : List TokenKind) (opened : List Bracket) (run : List Token) : Prop
    extends PlainRun opened run where
  passed : ∀ token ∈ Bracket.outside opened run, stops.contains token.kind = false

/-! ## Parts of a run -/

section Parts

variable {stops : List TokenKind} {opened further : List Bracket} {bracket : Bracket}
  {token next : Token} {tokens inner rest run : List Token}

theorem PlainRun.part (h : PlainRun opened run) (hpart : inner <:+: run)
    (hnested : Bracket.afterAll further inner = some []) : PlainRun further inner where
  nested := hnested
  kinds := fun token htoken => h.kinds token (hpart.subset htoken)
  names := h.names.infix (hpart.filter _)

theorem PassableRun.tail (h : PassableRun stops opened (token :: tokens)) :
    ∃ further, Bracket.after opened token.kind = some further ∧
      PassableRun stops further tokens := by
  obtain ⟨further, hafter, hnested⟩ := Bracket.exists_after h.nested
  refine ⟨further, hafter, h.toPlainRun.part (List.infix_cons List.infix_rfl) hnested, ?_⟩
  exact fun other hother => h.passed other (Bracket.outside_subset hafter _ hother)

theorem Bracket.after_of_isTrivia (h : token.isTrivia = true) (opened : List Bracket) :
    after opened token.kind = some opened := by
  unfold Token.isTrivia at h
  revert h
  cases token.kind <;> first | exact fun _ => rfl | exact fun h => nomatch h

theorem PassableRun.dropWhile (h : PassableRun stops opened tokens) :
    PassableRun stops opened (tokens.dropWhile Token.isTrivia) := by
  induction tokens with
  | nil => exact h
  | cons token tokens ih =>
      cases htoken : token.isTrivia with
      | true =>
          obtain ⟨further, hafter, htail⟩ := h.tail
          obtain rfl : opened = further :=
            Option.some.inj ((Bracket.after_of_isTrivia htoken opened).symm.trans hafter)
          rw [List.dropWhile_cons_of_pos htoken]
          exact ih htail
      | false =>
          rw [List.dropWhile_cons_of_neg (by simp [htoken])]
          exact h

/-- Behind the blanks after a name there is no brace in a run. -/
theorem PlainRun.kind_ne_leftBrace (h : PlainRun opened (token :: tokens))
    (hname : token.kind = .identifier)
    (hrest : tokens.dropWhile Token.isTrivia = next :: rest) : next.kind ≠ .leftBrace := by
  intro hbrace
  have hsignificant : token.isTrivia = false := Token.significant_of_name (.inl hname)
  have hopening : next.isTrivia = false := by
    unfold Token.isTrivia
    rw [hbrace]
    rfl
  have hnames := h.names
  rw [Token.significant_cons hsignificant, ← Token.significant_dropWhile, hrest,
    Token.significant_cons hopening] at hnames
  exact (List.isChain_cons_cons.1 hnames).1 ⟨hname, hbrace⟩

/-- A run out of an open bracket is a plain run up to the token that closes it, and a run out of
the brackets below behind that token. -/
theorem PassableRun.exists_closing (h : PassableRun stops (bracket :: opened) run) :
    ∃ inner closer rest, run = inner ++ closer :: rest ∧ closer.kind = bracket.closing ∧
      PassableRun [bracket.closing] [] inner ∧ PassableRun stops opened rest := by
  obtain ⟨inner, closer, rest, rfl, hcloser, hinner, hrest, houtside⟩ :=
    Bracket.exists_closing [] h.nested
  have hplain : PlainRun [] inner := h.toPlainRun.part (List.prefix_append _ _).isInfix hinner
  have hbehind : PlainRun opened rest :=
    h.toPlainRun.part ((List.suffix_cons closer rest).trans (List.suffix_append inner _)).isInfix
      hrest
  refine ⟨inner, closer, rest, rfl, Bracket.eq_closing hcloser, ⟨hplain, ?_⟩, hbehind,
    fun token htoken => h.passed token (houtside htoken)⟩
  intro token htoken
  have hopen := Bracket.closedBy?_of_mem_outside hinner htoken
  by_contra hstop
  have hkind : token.kind = bracket.closing := by simpa using hstop
  rw [hkind, Bracket.closedBy?_closing] at hopen
  cases hopen

end Parts

/-! ## States before a goal -/

theorem Cursor.eq_of_ahead {cursor other : Cursor} (h : cursor.Begun) (h' : other.Begun)
    (hahead : cursor.ahead = other.ahead) (hbehind : cursor.behind = other.behind) :
    cursor = other := by
  cases cursor with
  | start tokens => exact h.elim
  | on behind token ahead =>
      cases other with
      | start tokens => exact h'.elim
      | on behind' token' ahead' =>
          obtain ⟨rfl, rfl⟩ := List.cons.inj hahead
          exact congrArg (fun behind => on behind token ahead) hbehind
      | past behind' => cases hahead
  | past behind =>
      cases other with
      | start tokens => exact h'.elim
      | on behind' token' ahead' => cases hahead
      | past behind' => exact congrArg past hbehind

namespace ParseState

/-- The parse comes to a goal over some tokens, with nothing to report. -/
structure Before (goal : ParseState) (tokens : List Token) (state : ParseState) : Prop where
  reported : state.reported = goal.reported
  begun : state.cursor.Begun
  ahead : state.cursor.ahead = tokens ++ goal.cursor.ahead
  behind : goal.cursor.behind = tokens.reverse ++ state.cursor.behind

def EndsRun (stops : List TokenKind) (goal : ParseState) : Prop :=
  ∃ stop, goal.token? = some stop ∧ stop.kind ∈ runStops ∧ stops.contains stop.kind = true

/-- The parse stands where a run is left; an opening brace there ends the scan, too. -/
def Halts (stops : List TokenKind) (goal : ParseState) : Prop :=
  ∃ stop, goal.token? = some stop ∧ stop.kind ∈ haltKinds ∧
    (stop.kind = .leftBrace → stops.contains stop.kind = true)

/-- A passable run that closes the open brackets leads to the goal. -/
def OnWay (goal : ParseState) (stops : List TokenKind) (opened : List Bracket)
    (state : ParseState) : Prop :=
  ∃ tokens, goal.Before tokens state ∧ PassableRun stops opened tokens

structure Passing (goal : ParseState) (stops : List TokenKind) (opened : List Bracket)
    (state : ParseState) (token : Token) (further : List Bracket) : Prop where
  token? : state.token? = some token
  statement : token.kind ∉ statementKinds
  brackets : Bracket.after opened token.kind = some further
  passed : opened = [] → stops.contains token.kind = false
  moveNext : goal.OnWay stops further state.moveNext
  next : goal.OnWay stops further state.next
  name : token.kind = .identifier → state.next.isAt .leftBrace = true →
    state.next = goal ∧ further = []

variable {goal state : ParseState} {stops : List TokenKind} {opened further : List Bracket}
  {bracket : Bracket} {token : Token} {tokens inner rest : List Token}

theorem EndsRun.halts (h : goal.EndsRun stops) : goal.Halts stops := by
  obtain ⟨stop, hgoal, hkind, hstop⟩ := h
  exact ⟨stop, hgoal, List.mem_append_left _ hkind, fun _ => hstop⟩

theorem Halts.begun (h : goal.Halts stops) : goal.cursor.Begun := by
  obtain ⟨stop, hgoal, -⟩ := h
  exact Cursor.begun_of_token? hgoal

theorem Halts.exists_ahead (h : goal.Halts stops) :
    ∃ stop rest, goal.cursor.ahead = stop :: rest ∧ stop.isTrivia = false := by
  obtain ⟨stop, hgoal, hkind, -⟩ := h
  have hhead : goal.cursor.ahead.head? = some stop :=
    (Cursor.token?_of_begun (Cursor.begun_of_token? hgoal)).symm.trans hgoal
  obtain ⟨rest, hahead⟩ := List.head?_eq_some_iff.1 hhead
  refine ⟨stop, rest, hahead, ?_⟩
  unfold Token.isTrivia
  revert hkind
  cases stop.kind <;> decide

theorem Before.eq (h : goal.Before [] state) (hgoal : goal.cursor.Begun) : state = goal := by
  have hcursor : state.cursor = goal.cursor :=
    Cursor.eq_of_ahead h.begun hgoal h.ahead h.behind.symm
  have hreported := h.reported
  cases state
  cases goal
  subst hcursor hreported
  rfl

theorem Before.token? (h : goal.Before (token :: tokens) state) : state.token? = some token :=
  (Cursor.token?_of_begun h.begun).trans (congrArg List.head? h.ahead)

theorem Before.onward {after : ParseState} (h : goal.Before tokens state)
    (hleads : state.cursor.LeadsTo after.cursor) (hreported : after.reported = state.reported)
    (hahead : after.cursor.ahead = rest ++ goal.cursor.ahead) : goal.Before rest after := by
  obtain ⟨passed, hpassed, hbehind⟩ := hleads.passes
  have htokens : tokens = passed ++ rest := by
    rw [h.ahead, hahead, ← List.append_assoc] at hpassed
    exact List.append_cancel_right hpassed
  refine ⟨hreported.trans h.reported, hleads.begun h.begun, hahead, ?_⟩
  rw [h.behind, hbehind, htokens, List.reverse_append, List.append_assoc]

theorem Before.moveNext (h : goal.Before (token :: tokens) state) :
    goal.Before tokens state.moveNext := by
  refine h.onward state.leadsTo_moveNext rfl ?_
  refine (Cursor.ahead_moveNext h.begun).trans ?_
  rw [h.ahead]
  rfl

theorem Before.next (h : goal.Before (token :: tokens) state) (hgoal : goal.Halts stops) :
    goal.Before (tokens.dropWhile Token.isTrivia) state.next := by
  obtain ⟨stop, rest, hstop, hsignificant⟩ := hgoal.exists_ahead
  refine h.onward state.leadsTo_next rfl ?_
  refine (Cursor.ahead_next h.begun).trans ?_
  rw [h.ahead, List.cons_append, List.tail_cons, List.dropWhile_append, hstop,
    List.dropWhile_cons_of_neg (by simp [hsignificant])]
  split
  · rename_i hempty
    rw [List.isEmpty_iff.1 hempty]
    rfl
  · rfl

theorem OnWay.cases (h : goal.OnWay stops opened state) (hgoal : goal.Halts stops) :
    (state = goal ∧ opened = []) ∨
      ∃ token further, goal.Passing stops opened state token further := by
  obtain ⟨tokens, hbefore, hrun⟩ := h
  cases tokens with
  | nil =>
      have hnested : some opened = some [] := hrun.nested
      exact .inl ⟨hbefore.eq hgoal.begun, Option.some.inj hnested⟩
  | cons token tokens =>
      obtain ⟨further, hafter, htail⟩ := hrun.tail
      have hnext := hbefore.next hgoal
      refine .inr ⟨token, further, hbefore.token?, hrun.kinds token List.mem_cons_self, hafter, ?_,
        ⟨tokens, hbefore.moveNext, htail⟩, ⟨_, hnext, htail.dropWhile⟩, ?_⟩
      · rintro rfl
        exact hrun.passed token (Bracket.mem_outside hafter)
      · intro hname hbrace
        have hpassable := htail.dropWhile
        cases hrest : tokens.dropWhile Token.isTrivia with
        | nil =>
            rw [hrest] at hnext hpassable
            have hnested : some further = some [] := hpassable.nested
            exact ⟨hnext.eq hgoal.begun, Option.some.inj hnested⟩
        | cons next rest =>
            rw [hrest] at hnext
            obtain ⟨brace, htoken, hkind⟩ := token?_of_isAt hbrace
            obtain rfl : next = brace := Option.some.inj (hnext.token?.symm.trans htoken)
            exact (hrun.kind_ne_leftBrace hname hrest hkind).elim

/-- Between the tokens that lead to a goal, a state can stand on any of them. -/
theorem Before.exists_on (h : goal.Before (inner ++ token :: rest) state) :
    ∃ closer : ParseState, closer.token? = some token ∧ closer.Before inner state ∧
      goal.Before (token :: rest) closer := by
  refine ⟨⟨.on (inner.reverse ++ state.cursor.behind) token (rest ++ goal.cursor.ahead),
    goal.reported⟩, rfl, ⟨h.reported, h.begun, ?_, rfl⟩, ⟨rfl, trivial, rfl, ?_⟩⟩
  · rw [h.ahead, List.append_assoc]
    rfl
  · rw [h.behind, List.reverse_append, List.append_assoc]
    rfl

/-- Behind an open bracket a state is on the way to the token that closes it, and from there to
its goal. -/
theorem OnWay.exists_closer (h : goal.OnWay stops (bracket :: opened) state)
    (hgoal : goal.Halts stops) :
    ∃ closer : ParseState, closer.EndsRun [bracket.closing] ∧
      closer.OnWay [bracket.closing] [] state ∧ goal.OnWay stops opened closer.next := by
  obtain ⟨tokens, hbefore, hrun⟩ := h
  obtain ⟨inner, token, rest, rfl, hkind, hinner, hrest⟩ := hrun.exists_closing
  obtain ⟨closer, htoken, hclosing, hbehind⟩ := hbefore.exists_on
  refine ⟨closer, ⟨token, htoken, ?_, ?_⟩, ⟨inner, hclosing, hinner⟩,
    ⟨_, hbehind.next hgoal, hrest.dropWhile⟩⟩
  · rw [hkind]
    cases bracket <;> decide
  · rw [hkind]
    exact List.contains_iff_mem.2 List.mem_cons_self

end ParseState

end Manifest
