import Manifest.Proofs.Scanning.Plain
import Manifest.Proofs.Scanning.Steps

/-!
# What a parse faces

Blanks and comments may stand anywhere between the tokens of a form.  A parse faces some tokens
when these are what is ahead of it but for blanks, and it stands on the first of them.  A scan of
a plain run goes from facing the run to facing the token behind it.
-/

namespace Manifest

open ParseState (OnWay EndsRun Halts Before)

/-! ## Runs without their blanks -/

namespace Bracket

theorem afterAll_significant (opened : List Bracket) (run : List Token) :
    afterAll opened (Token.significant run) = afterAll opened run := by
  induction run generalizing opened with
  | nil => rfl
  | cons token run ih =>
      cases htoken : token.isTrivia with
      | true =>
          rw [Token.significant_cons_of_trivia htoken,
            afterAll_cons (after_of_isTrivia htoken opened), ih]
      | false =>
          rw [Token.significant_cons htoken, afterAll, afterAll]
          cases after opened token.kind with
          | some further => exact ih further
          | none => rfl

theorem outside_significant (opened : List Bracket) (run : List Token) :
    outside opened (Token.significant run) = Token.significant (outside opened run) := by
  induction run generalizing opened with
  | nil => rfl
  | cons token run ih =>
      cases htoken : token.isTrivia with
      | true =>
          rw [Token.significant_cons_of_trivia htoken, outside, after_of_isTrivia htoken, ih]
          dsimp only
          split
          · rw [Token.significant_cons_of_trivia htoken]
          · rfl
      | false =>
          rw [Token.significant_cons htoken, outside, outside]
          cases after opened token.kind with
          | some further =>
              dsimp only
              split
              · rw [Token.significant_cons htoken, ih]
              · exact ih further
          | none =>
              dsimp only
              split
              · rw [Token.significant_cons htoken]
                rfl
              · rfl

end Bracket

/-- No closing bracket stands outside of the brackets of a run, so it passes those. -/
theorem PlainRun.passable {stops : List TokenKind} {opened : List Bracket} {run : List Token}
    (h : PlainRun opened run) (hother : ∀ token ∈ Bracket.outside opened run,
      Bracket.closedBy? token.kind = none → token.kind ∉ stops) : PassableRun stops opened run where
  toPlainRun := h
  passed := by
    intro token htoken
    have hnone := hother token htoken (Bracket.closedBy?_of_mem_outside h.nested htoken)
    simpa using hnone

/-- A run passes a closing bracket, as each one in it closes a bracket of its own. -/
theorem PlainRun.passable_closing {opened : List Bracket} {run : List Token}
    (h : PlainRun opened run) (bracket : Bracket) : PassableRun [bracket.closing] opened run := by
  refine h.passable fun token _ hclosed hkind => ?_
  rw [List.mem_singleton.1 hkind, Bracket.closedBy?_closing] at hclosed
  cases hclosed

theorem PassableRun.or_closing {kind : TokenKind} {opened : List Bracket} {run : List Token}
    (h : PassableRun [kind] opened run) (bracket : Bracket) :
    PassableRun [kind, bracket.closing] opened run where
  toPlainRun := h.toPlainRun
  passed := by
    intro token htoken
    have hkind := h.passed token htoken
    have hclosing := (h.toPlainRun.passable_closing bracket).passed token htoken
    rw [List.contains_cons, hclosing, Bool.or_false]
    simpa using hkind

/-- Outside of all brackets a run does not begin with a closing bracket. -/
theorem PlainRun.closedBy?_headD {run : List Token} {stop : Token} (h : PlainRun [] run)
    (hstop : Bracket.closedBy? stop.kind = none) :
    Bracket.closedBy? (run.headD stop).kind = none := by
  cases run with
  | nil => exact hstop
  | cons token run =>
      obtain ⟨further, hafter, -⟩ := Bracket.exists_after h.nested
      exact Bracket.closedBy?_of_mem_outside h.nested (Bracket.mem_outside hafter)

/-- Blanks make no difference to a run, unless the run ends on them. -/
theorem PassableRun.of_significant {stops : List TokenKind} {opened : List Bracket}
    {run : List Token} (h : PassableRun stops opened (Token.significant run))
    (hstops : ∀ kind ∈ stops, kind.isTrivia = false) : PassableRun stops opened run where
  nested := (Bracket.afterAll_significant opened run).symm.trans h.nested
  kinds := by
    intro token htoken
    cases hblank : token.isTrivia with
    | true =>
        intro hkind
        unfold Token.isTrivia at hblank
        revert hblank
        simp only [statementKinds, List.mem_cons, List.not_mem_nil, or_false] at hkind
        rcases hkind with hkind | hkind | hkind | hkind | hkind | hkind | hkind <;>
          rw [hkind] <;> decide
    | false => exact h.kinds token (Token.mem_significant htoken hblank)
  names := by
    have hnames := h.names
    rwa [Token.significant_significant] at hnames
  passed := by
    intro token htoken
    cases hblank : token.isTrivia with
    | true =>
        by_contra hstop
        have hkind := hstops token.kind (List.contains_iff_mem.1 (by simpa using hstop))
        unfold Token.isTrivia at hblank
        rw [hkind] at hblank
        cases hblank
    | false =>
        have hmem := Token.mem_significant htoken hblank
        rw [← Bracket.outside_significant] at hmem
        exact h.passed token hmem

theorem Token.Tiles.pairwise_stop {tokens : List Token} {start stop : Nat}
    (h : Token.Tiles start tokens stop) :
    tokens.Pairwise fun token later => token.stop ≤ later.offset := by
  induction tokens generalizing start with
  | nil => exact .nil
  | cons token tokens ih =>
      exact .cons (fun later hlater => (h.2.between later hlater).1) (ih h.2)

theorem Token.length_flatMap_ge {α : Type} {tokens : α → List Token} {count : Nat}
    (h : ∀ form, count ≤ (tokens form).length) (forms : List α) :
    count * forms.length ≤ (forms.flatMap tokens).length := by
  induction forms with
  | nil => exact Nat.le_refl _
  | cons form forms ih =>
      rw [List.flatMap_cons, List.length_append, List.length_cons, Nat.mul_succ, Nat.add_comm]
      exact Nat.add_le_add (h form) ih

/-! ## What is ahead of a state -/

namespace ParseState

/-- But for blanks, just some tokens are ahead of the parse. -/
structure Sees (tokens : List Token) (state : ParseState) : Prop where
  begun : state.cursor.Begun
  ahead : Token.significant state.cursor.ahead = tokens

/-- Some tokens are ahead of the parse, but for blanks, and it stands on the first of them. -/
structure Faces (tokens : List Token) (state : ParseState) : Prop extends state.Sees tokens where
  head : state.token? = tokens.head?

variable {source : List Char} {state goal : ParseState} {kind : TokenKind} {token stop : Token}
  {tokens rest run : List Token}

theorem Faces.congr {other : ParseState} (h : state.Faces tokens)
    (hcursor : other.cursor = state.cursor) : other.Faces tokens := by
  rcases state with ⟨cursor, reported⟩
  rcases other with ⟨place, reports⟩
  obtain rfl : place = cursor := hcursor
  exact ⟨⟨h.begun, h.ahead⟩, h.head⟩

theorem Faces.significant (h : state.Faces (token :: tokens)) : token.isTrivia = false := by
  have hmem : token ∈ Token.significant state.cursor.ahead := by
    rw [h.ahead]
    exact List.mem_cons_self
  exact Token.isTrivia_of_mem_significant hmem

theorem Faces.token? (h : state.Faces (token :: tokens)) : state.token? = some token :=
  h.head

theorem Faces.kind? (h : state.Faces tokens) : state.kind? = tokens.head?.map Token.kind :=
  congrArg (Option.map Token.kind) h.head

theorem Faces.isAt (h : state.Faces (token :: tokens)) (kind : TokenKind) :
    state.isAt kind = (token.kind == kind) := by
  unfold ParseState.isAt
  rw [h.kind?]
  rfl

theorem Faces.token?_headD (h : state.Faces (run ++ stop :: rest)) :
    state.token? = some (run.headD stop) := by
  cases run with
  | nil => exact h.token?
  | cons token run => exact h.token?

theorem Faces.offset (h : state.Faces (token :: tokens)) :
    state.offset source = token.offset :=
  offset_of_token? h.token?

theorem Faces.offset_headD (h : state.Faces (run ++ stop :: rest)) :
    state.offset source = (run.headD stop).offset := by
  cases run with
  | nil => exact h.offset
  | cons token run => exact h.offset

theorem Faces.moveNext (h : state.Faces (token :: tokens)) : state.moveNext.Sees tokens := by
  have hahead := h.ahead
  obtain ⟨rest, hrest⟩ := List.head?_eq_some_iff.1
    ((Cursor.token?_of_begun h.begun).symm.trans h.token?)
  rw [hrest, Token.significant_cons h.significant] at hahead
  refine ⟨state.leadsTo_moveNext.begun h.begun, ?_⟩
  have hmove : state.moveNext.cursor.ahead = state.cursor.ahead.tail :=
    Cursor.ahead_moveNext h.begun
  rw [hmove, hrest]
  exact (List.cons.inj hahead).2

theorem Faces.next (h : state.Faces (token :: tokens)) : state.next.Faces tokens := by
  have hmove : state.moveNext.cursor.ahead = state.cursor.ahead.tail :=
    Cursor.ahead_moveNext h.begun
  have hnext : state.next.cursor.ahead = state.cursor.ahead.tail.dropWhile Token.isTrivia :=
    Cursor.ahead_next h.begun
  have hahead := h.moveNext.ahead
  rw [hmove] at hahead
  have hbegun := state.leadsTo_next.begun h.begun
  refine ⟨⟨hbegun, ?_⟩, ?_⟩
  · rw [hnext, Token.significant_dropWhile]
    exact hahead
  · refine (Cursor.token?_of_begun hbegun).trans ?_
    rw [hnext, ← Token.head?_significant, hahead]

/-- Over blanks the parse comes to face what it sees. -/
theorem Sees.next_of_trivia (h : state.Sees tokens) (htoken : state.token? = some token)
    (htrivia : token.isTrivia = true) : state.next.Faces tokens := by
  obtain ⟨behind, hbehind⟩ := List.head?_eq_some_iff.1
    ((Cursor.token?_of_begun h.begun).symm.trans htoken)
  have hahead := h.ahead
  rw [hbehind, Token.significant_cons_of_trivia htrivia] at hahead
  have hnext : state.next.cursor.ahead = behind.dropWhile Token.isTrivia := by
    refine (Cursor.ahead_next h.begun).trans ?_
    rw [hbehind]
    rfl
  have hbegun := state.leadsTo_next.begun h.begun
  refine ⟨⟨hbegun, ?_⟩, ?_⟩
  · rw [hnext, Token.significant_dropWhile]
    exact hahead
  · refine (Cursor.token?_of_begun hbegun).trans ?_
    rw [hnext, ← Token.head?_significant, hahead]

theorem Sees.faces (h : state.Sees tokens) (htoken : state.token? = some token)
    (hloud : token.isTrivia = false) : state.Faces tokens := by
  obtain ⟨behind, hbehind⟩ := List.head?_eq_some_iff.1
    ((Cursor.token?_of_begun h.begun).symm.trans htoken)
  have hahead := h.ahead
  rw [hbehind, Token.significant_cons hloud] at hahead
  refine ⟨h, htoken.trans ?_⟩
  rw [← hahead]
  rfl

theorem Sees.unique (h : state.Sees tokens) (h' : state.Sees rest) : tokens = rest :=
  h.ahead.symm.trans h'.ahead

theorem Sees.length_le (h : state.Sees tokens) : tokens.length ≤ state.remaining := by
  rw [← h.ahead]
  exact List.length_filter_le _ _

theorem Sees.pairwise_stop (h : state.Sees tokens) (hplaced : state.cursor.Placed source) :
    tokens.Pairwise fun token later => token.stop ≤ later.offset := by
  rw [← h.ahead]
  exact hplaced.tiles_ahead.pairwise_stop.filter _

theorem Sees.takes (h : state.Sees tokens) (hplaced : state.cursor.Placed source)
    (hmem : token ∈ tokens) : token.offset < token.stop ∧ token.stop ≤ source.length := by
  rw [← h.ahead] at hmem
  have hahead : token ∈ state.cursor.ahead := List.mem_of_mem_filter hmem
  have htokens : token ∈ state.cursor.tokens := by
    rw [Cursor.tokens_eq]
    exact List.mem_append_right _ hahead
  exact ⟨(hplaced.covers token htokens).offset_lt,
    (hplaced.tiles_ahead.between token hahead).2⟩

theorem Sees.exists_token? (h : state.Sees tokens) (htokens : tokens ≠ []) :
    ∃ first, state.token? = some first := by
  have hahead := h.ahead
  cases hcursor : state.cursor.ahead with
  | nil =>
      rw [hcursor] at hahead
      exact (htokens hahead.symm).elim
  | cons first behind =>
      refine ⟨first, (Cursor.token?_of_begun h.begun).trans ?_⟩
      rw [hcursor]
      rfl

theorem Sees.exists_goal (h : state.Sees (run ++ stop :: rest)) :
    ∃ (goal : ParseState) (passed : List Token), goal.Before passed state ∧
      Token.significant passed = run ∧ goal.Faces (stop :: rest) := by
  obtain ⟨front, back, hahead, hfront, hback⟩ := List.filter_eq_append_iff.1 h.ahead
  obtain ⟨blanks, behind, rfl, hblanks, hloud, hbehind⟩ := List.filter_eq_cons_iff.1 hback
  have hnone : Token.significant blanks = [] := List.filter_eq_nil_iff.2 hblanks
  refine ⟨⟨.on ((front ++ blanks).reverse ++ state.cursor.behind) stop behind, state.reported⟩,
    front ++ blanks, ⟨rfl, h.begun, ?_, rfl⟩, ?_, ⟨trivial, ?_⟩, rfl⟩
  · rw [hahead, List.append_assoc]
    rfl
  · rw [Token.significant_append, hnone, List.append_nil]
    exact hfront
  · refine (Token.significant_cons ?_).trans (congrArg (stop :: ·) hbehind)
    simpa using hloud

end ParseState

/-! ## Tokens by their places -/

def Token.loose (kind : TokenKind) (start length : Nat) : Token :=
  ⟨kind, .sized start length, ⟨false, false, false, false⟩, none⟩

def Token.spelled (kind : TokenKind) (start : Nat) : Token :=
  ⟨kind, .sized start (kind.spelling?.getD []).length, ⟨false, true, false, false⟩, kind.spelling?⟩

/-! ## Stretches between tokens -/

/-- A stretch that takes the text from the beginning of one token to the end of another one. -/
structure Node.Stretches (first last : Token) (node : Node) : Prop where
  isBlob : node.isBlob = true
  offset : node.offset = first.offset
  endOffset : node.endOffset = last.stop

/-- A scan has come from a state to the token `last`, behind which `rest` are ahead.  It has
nothing to report, and gives the stretch from `first` on. -/
structure ParseState.Passes (source : List Char) (state : ParseState) (first last : Token)
    (rest : List Token) (result : Node × ParseState) : Prop where
  stretches : result.1.Stretches first last
  faces : result.2.Faces (last :: rest)
  reported : result.2.reported = state.reported
  placed : result.2.cursor.Placed source

namespace Scan

variable {source : List Char} {state : ParseState} {offset : Nat} {stops : List TokenKind}
  {first stop : Token} {run rest : List Token}

theorem passes_of_faces (hplaced : state.cursor.Placed source)
    (hoffset : first.offset ≤ state.offset source)
    (hfaces : (Manifest.scan source first.offset stops state).2.Faces (stop :: rest))
    (hreported : (Manifest.scan source first.offset stops state).2.reported = state.reported) :
    state.Passes source first stop rest (Manifest.scan source first.offset stops state) where
  stretches := by
    refine ⟨rfl, rfl, ?_⟩
    rw [endOffset_scan_of_le stops hplaced hoffset,
      ParseState.currentStop_of_token? hfaces.token?]
  faces := hfaces
  reported := hreported
  placed := (lays_scan source (state.remaining + 1) first.offset stops state
    (Nat.lt_succ_self _) hplaced hoffset).leads.placed hplaced

/-- A scan of a plain run, with blanks anywhere between its tokens, goes up to the stop token
behind it. -/
theorem passes_run (hplaced : state.cursor.Placed source)
    (hsees : state.Sees (run ++ stop :: rest)) (hrun : PassableRun stops [] run)
    (hstops : ∀ kind ∈ stops, kind ∈ runStops) (hstop : stops.contains stop.kind = true)
    (hoffset : first.offset ≤ state.offset source) :
    state.Passes source first stop rest (Manifest.scan source first.offset stops state) := by
  obtain ⟨goal, passed, hbefore, rfl, hfaces⟩ := hsees.exists_goal
  have hblank : ∀ kind ∈ runStops, kind.isTrivia = false := by decide
  have hgoal : goal.EndsRun stops :=
    ⟨stop, hfaces.token?, hstops _ (List.contains_iff_mem.1 hstop), hstop⟩
  have hresult := (finds_scan source (state.remaining + 1)).finds first.offset stops state goal
    (Nat.lt_succ_self _) hplaced hoffset hgoal
    ⟨passed, hbefore, hrun.of_significant fun kind hkind => hblank kind (hstops kind hkind)⟩
  refine passes_of_faces hplaced hoffset ?_ ?_
  · rw [hresult]
    exact hfaces
  · rw [hresult]
    exact hbefore.reported.symm

theorem passes_here (hplaced : state.cursor.Placed source)
    (hfaces : state.Faces (run ++ stop :: rest)) (hrun : PassableRun stops [] run)
    (hstops : ∀ kind ∈ stops, kind ∈ runStops) (hstop : stops.contains stop.kind = true) :
    state.Passes source (run.headD stop) stop rest
      ((Manifest.scan source).here source stops state) := by
  have hoffset : state.offset source = (run.headD stop).offset := hfaces.offset_headD
  unfold here
  rw [hoffset]
  exact passes_run hplaced hfaces.toSees hrun hstops hstop (Nat.le_of_eq hoffset.symm)

end Scan

/-! ## Names -/

namespace Scanning

variable {source : List Char} {scanning : Scanning} {stops : List TokenKind} {token next : Token}
  {rest : List Token}

theorem applied?_eq_none (hfaces : scanning.state.Faces (token :: next :: rest))
    (hcall : next.kind ≠ .leftParen)
    (hindex : startsWithCapital (token.text source) = true → next.kind ≠ .leftBracket)
    (scan : Scan) : scanning.applied? source scan token = none := by
  have hparen : scanning.state.next.isAt .leftParen = false :=
    (hfaces.next.isAt _).trans (beq_eq_false_iff_ne.2 hcall)
  unfold applied?
  dsimp only
  rw [hparen, if_neg Bool.false_ne_true]
  split
  · rename_i hbracket
    rw [hfaces.next.isAt, beq_iff_eq] at hbracket
    have hsmall : ¬ startsWithCapital (token.text source) = true := fun h => hindex h hbracket
    have hother : token.text source ≠ classTypeName := by
      intro h
      rw [h] at hsmall
      exact hsmall (by decide)
    rw [if_neg hother]
    dsimp only
    exact if_neg hsmall
  · rfl

theorem significantAt_name {scan : Scan} (hname : token.kind = .identifier ∨ token.kind = .kwClass)
    (happlied : scanning.applied? source scan token = none) :
    scanning.significantAt source scan stops token = scanning.nameAt source scan stops token := by
  have hword : scanning.wordAt source scan stops token =
      scanning.nameAt source scan stops token := by
    unfold wordAt
    dsimp only
    rw [happlied, ite_self]
    rfl
  unfold significantAt
  rcases hname with h | h <;> rw [h] <;> exact hword

end Scanning

end Manifest
