import Manifest.Proofs.Scanning.Brackets
import Manifest.Proofs.Scanning.Extent
import Manifest.Proofs.Scanning.Steps

/-!
# The depth of a scan

A scan counts the brackets on which it stands, each shape by itself.  A closing bracket that
closes nothing is counted like any other, so the count falls behind the brackets that are open,
by one for each of them.  Where there is none, the count is the depth.
-/

namespace Manifest

namespace Bracket

/-! ## Brackets of one shape -/

/-- How many more brackets of a shape some tokens open than they close. -/
def surplus (bracket : Bracket) : List Token → Int
  | [] => 0
  | token :: tokens =>
      if openedBy? token.kind = some bracket then surplus bracket tokens + 1
      else if closedBy? token.kind = some bracket then surplus bracket tokens - 1
      else surplus bracket tokens

/-- How many brackets of a shape are open behind some tokens, where `opened` are open before
them.  A closing bracket closes one of them if there is one. -/
def depthFrom (bracket : Bracket) (opened : Nat) : List Token → Nat
  | [] => opened
  | token :: tokens =>
      if openedBy? token.kind = some bracket then depthFrom bracket (opened + 1) tokens
      else if closedBy? token.kind = some bracket then depthFrom bracket (opened - 1) tokens
      else depthFrom bracket opened tokens

/-- How many closing brackets of a shape close nothing, where `opened` are open before them. -/
def straysFrom (bracket : Bracket) (opened : Nat) : List Token → Nat
  | [] => 0
  | token :: tokens =>
      if openedBy? token.kind = some bracket then straysFrom bracket (opened + 1) tokens
      else if closedBy? token.kind = some bracket then
        if opened = 0 then straysFrom bracket 0 tokens + 1
        else straysFrom bracket (opened - 1) tokens
      else straysFrom bracket opened tokens

/-- The brackets of a shape that some tokens open and do not close. -/
def depth (bracket : Bracket) (tokens : List Token) : Nat :=
  bracket.depthFrom 0 tokens

/-- The closing brackets of a shape that close none of the brackets that the tokens open. -/
def strays (bracket : Bracket) (tokens : List Token) : Nat :=
  bracket.straysFrom 0 tokens

variable {bracket : Bracket} {token : Token} {tokens : List Token}

theorem add_surplus (bracket : Bracket) (opened : Nat) (tokens : List Token) :
    opened + bracket.surplus tokens =
      (bracket.depthFrom opened tokens : Int) - bracket.straysFrom opened tokens := by
  induction tokens generalizing opened with
  | nil => simp [surplus, depthFrom, straysFrom]
  | cons token tokens ih =>
      unfold surplus depthFrom straysFrom
      split
      · have hmore := ih (opened + 1)
        omega
      · split
        · cases opened with
          | zero =>
              have hsame := ih 0
              simp only [if_true, Nat.zero_sub]
              omega
          | succ opened =>
              have hless := ih opened
              simp only [Nat.succ_ne_zero, if_false, Nat.add_sub_cancel]
              omega
        · exact ih opened

/-- Each closing bracket that closes nothing is one that the count has too few. -/
theorem surplus_eq (bracket : Bracket) (tokens : List Token) :
    bracket.surplus tokens = (bracket.depth tokens : Int) - bracket.strays tokens := by
  have hsum := bracket.add_surplus 0 tokens
  unfold depth strays
  omega

end Bracket

namespace Nesting

def behind (nesting : Nesting) (tokens : List Token) : Nesting :=
  ⟨nesting.braces + Bracket.brace.surplus tokens, nesting.brackets + Bracket.square.surplus tokens,
    nesting.parens + Bracket.round.surplus tokens⟩

variable {nesting : Nesting} {token : Token} {tokens : List Token}

theorem behind_nil (nesting : Nesting) : nesting.behind [] = nesting := by
  simp [behind, Bracket.surplus]

theorem behind_cons (nesting : Nesting) (token : Token) (tokens : List Token) :
    ((nesting.track token.kind).getD nesting).behind tokens = nesting.behind (token :: tokens) := by
  simp only [behind, Bracket.surplus]
  cases token.kind <;> simp [track, Bracket.openedBy?, Bracket.closedBy?] <;> omega

theorem isActive_behind_flat (tokens : List Token) :
    (flat.behind tokens).isActive = false ↔ ∀ bracket : Bracket, bracket.surplus tokens ≤ 0 := by
  have hcount : (flat.behind tokens).isActive = false ↔ ¬ (0 < 0 + Bracket.brace.surplus tokens ∨
      0 < 0 + Bracket.square.surplus tokens ∨ 0 < 0 + Bracket.round.surplus tokens) :=
    decide_eq_false_iff_not
  rw [hcount]
  constructor
  · intro h bracket
    cases bracket <;> omega
  · intro h
    have hbrace := h .brace
    have hsquare := h .square
    have hround := h .round
    omega

theorem keepsNames_behind_flat (tokens : List Token) :
    (flat.behind tokens).keepsNames = true ↔
      Bracket.square.surplus tokens ≠ 0 ∨ Bracket.round.surplus tokens ≠ 0 := by
  simp [keepsNames, behind, flat]

/-- Where no square and no round bracket is open, names are kept just if one was closed that was
not open. -/
theorem keepsNames_outside (hsquare : Bracket.square.depth tokens = 0)
    (hround : Bracket.round.depth tokens = 0) :
    (flat.behind tokens).keepsNames = true ↔
      ¬ (Bracket.square.strays tokens = 0 ∧ Bracket.round.strays tokens = 0) := by
  rw [keepsNames_behind_flat, Bracket.surplus_eq, Bracket.surplus_eq, hsquare, hround]
  omega

end Nesting

/-! ## Steps of a scan -/

namespace Scanning

variable {source : List Char} {scan : Scan} {stops : List TokenKind} {token : Token}
  {state : ParseState} {scanning next first last : Scanning} {met : List Token}

theorem nesting_variableAt :
    (scanning.variableAt source token).nesting = scanning.nesting := by
  unfold variableAt
  dsimp only
  split <;> rfl

theorem nesting_callAt : (scanning.callAt source scan token state).nesting = scanning.nesting := by
  unfold callAt
  dsimp only
  split <;> rfl

theorem nesting_dotAt : (scanning.dotAt source scan).nesting = scanning.nesting := by
  unfold dotAt
  dsimp only
  split
  · rfl
  · split
    · exact nesting_callAt
    · rfl

theorem nesting_applied? (h : scanning.applied? source scan token = some next) :
    next.nesting = scanning.nesting := by
  unfold applied? at h
  dsimp only at h
  split at h
  · rw [← Option.some.inj h]
    rfl
  · split at h
    · split at h
      · rw [← Option.some.inj h]
        rfl
      · split at h
        · rw [← Option.some.inj h]
          rfl
        · cases h
    · cases h

theorem nesting_nameAt :
    (scanning.nameAt source scan stops token).nesting = scanning.nesting := by
  unfold nameAt
  dsimp only
  split
  · rfl
  · split
    · rfl
    · split
      · rfl
      · split <;> rfl

theorem nesting_wordAt :
    (scanning.wordAt source scan stops token).nesting = scanning.nesting := by
  unfold wordAt
  dsimp only
  split
  · cases happlied : scanning.applied? source scan token with
    | some next => exact nesting_applied? happlied
    | none => exact nesting_nameAt
  · exact nesting_nameAt

theorem nesting_requirementAt :
    (scanning.requirementAt source scan token).nesting = scanning.nesting := by
  unfold requirementAt
  dsimp only
  split <;> rfl

theorem nesting_significantAt :
    (scanning.significantAt source scan stops token).nesting = scanning.nesting := by
  unfold significantAt
  split
  · rfl
  · exact nesting_variableAt
  · exact nesting_requirementAt
  · exact nesting_requirementAt
  · exact nesting_requirementAt
  · exact nesting_wordAt
  · exact nesting_wordAt
  · rfl
  · rfl
  · rfl
  · exact nesting_dotAt
  · split
    · exact nesting_callAt
    · rfl

/-- A step counts the bracket on which the scan stands, and nothing else. -/
theorem nesting_step (htoken : scanning.state.token? = some token)
    (hstep : scanning.step source scan stops = .again next) :
    next.nesting = (scanning.nesting.track token.kind).getD scanning.nesting := by
  unfold step at hstep
  rw [htoken] at hstep
  dsimp only at hstep
  split at hstep
  · cases hstep
  · rw [← Progress.again.inj hstep]
    unfold tokenAt
    split
    · rename_i htrivia
      have huntracked : scanning.nesting.track token.kind = none := by
        unfold Token.isTrivia at htrivia
        revert htrivia
        cases token.kind <;> first | exact fun _ => rfl | exact fun h => nomatch h
      rw [huntracked]
      rfl
    · cases scanning.nesting.track token.kind with
      | some nesting => rfl
      | none => exact nesting_significantAt

/-- On its way a scan counts the brackets on which it stands. -/
theorem Reaches.nesting (h : Reaches source stops first met last) :
    last.nesting = first.nesting.behind met := by
  induction h with
  | here => exact (Nesting.behind_nil _).symm
  | onward htoken hstep _ ih => rw [ih, nesting_step htoken hstep, Nesting.behind_cons]

def Ends (source : List Char) (stops : List TokenKind) (scanning : Scanning) : Prop :=
  scanning.step source (Manifest.scan source) stops = .done scanning

theorem ends_iff : scanning.Ends source stops ↔ ∀ token, scanning.state.token? = some token →
    stops.contains token.kind = true ∧ scanning.nesting.isActive = false := by
  unfold Ends step
  cases htoken : scanning.state.token? with
  | none => simp
  | some token =>
      have hends : scanning.endsAt stops token.kind = true ↔
          stops.contains token.kind = true ∧ scanning.nesting.isActive = false := by
        unfold endsAt
        rw [Bool.and_eq_true, Bool.not_eq_true', and_comm]
      simp only [Option.some.injEq, forall_eq', ← hends]
      cases scanning.endsAt stops token.kind <;> simp

end Scanning

/-! ## Scans -/

namespace Scan

open Scanning (Reaches)

variable {source : List Char}

/-- A scan of any text has counted, wherever it is, how many more brackets of each shape it has
met open than closed, and goes by that: it keeps names while some square or round brackets are
not made up for by others, and ends on a stop token where no shape has more opened than closed.
The count is the depth less the closing brackets that closed nothing.  So a scan that has met
none of these keeps names just while a square or round bracket is open that it has met, and ends
just on a stop token where no bracket is. -/
theorem scan_counts_brackets (multiline : Bool) (stops : List TokenKind) (state : ParseState)
    (htokens : state.cursor.tokens = (TokenStream.lex multiline source).tokens)
    (hindex : 0 ≤ state.cursor.index) :
    (∃ met last, Reaches source stops (.begin state) met last ∧ last.Ends source stops ∧
      Checked.scan source (state.offset source) stops state =
        .ok (last.node source (state.offset source), last.state)) ∧
    ∀ met scanning, Reaches source stops (.begin state) met scanning →
      (scanning.nesting.keepsNames = true ↔
        Bracket.square.surplus met ≠ 0 ∨ Bracket.round.surplus met ≠ 0) ∧
      (scanning.Ends source stops ↔ ∀ token, scanning.state.token? = some token →
        stops.contains token.kind = true ∧ ∀ bracket : Bracket, bracket.surplus met ≤ 0) ∧
      (∀ bracket : Bracket,
        bracket.surplus met = (bracket.depth met : Int) - bracket.strays met) ∧
      ((∀ bracket : Bracket, bracket.strays met = 0) →
        (scanning.nesting.keepsNames = true ↔
          0 < Bracket.square.depth met ∨ 0 < Bracket.round.depth met) ∧
        (scanning.Ends source stops ↔ ∀ token, scanning.state.token? = some token →
          stops.contains token.kind = true ∧ ∀ bracket : Bracket, bracket.depth met = 0)) := by
  have hplaced : state.cursor.Placed source :=
    Cursor.placed_of_lex (Cursor.begun_of_index hindex) htokens
  refine ⟨?_, fun met scanning hreaches => ?_⟩
  · obtain ⟨met, last, hreaches, hdone⟩ :=
      Scanning.exists_reaches stops (Scanning.laying_begin hplaced)
    have hchecked := (Checked.agrees_scan source (state.remaining + 1)).agrees
      (state.offset source) stops state (Nat.lt_succ_self _) hplaced (Nat.le_refl _)
    rw [hreaches.scan_eq hdone hplaced (Nat.le_refl _)] at hchecked
    exact ⟨met, last, hreaches, hdone, hchecked⟩
  · have hnesting : scanning.nesting = Nesting.flat.behind met := hreaches.nesting
    have hkeeps := Nesting.keepsNames_behind_flat met
    have hends : scanning.Ends source stops ↔ ∀ token, scanning.state.token? = some token →
        stops.contains token.kind = true ∧ ∀ bracket : Bracket, bracket.surplus met ≤ 0 := by
      rw [Scanning.ends_iff, hnesting]
      simp only [Nesting.isActive_behind_flat]
    rw [← hnesting] at hkeeps
    refine ⟨hkeeps, hends, fun bracket => bracket.surplus_eq met, fun hstrays => ?_⟩
    -- With no stray bracket the count is the depth.
    have hdepth : ∀ bracket : Bracket, bracket.surplus met = (bracket.depth met : Int) := by
      intro bracket
      have heq := bracket.surplus_eq met
      have hnone := hstrays bracket
      omega
    refine ⟨?_, ?_⟩
    · rw [hkeeps, hdepth, hdepth]
      omega
    · rw [hends]
      simp only [hdepth, Int.natCast_nonpos_iff]

def onFirst (text : List Char) : ParseState :=
  (ParseState.ofTokens (TokenStream.lex false text).tokens).moveNext

def strayParen : List Char :=
  ") file \x7b 'x': \x7d \x7d".toList

def strayBeforeParens : List Char :=
  ") ( \x7d )".toList

/-- A scan of the resource behind a stray parenthesis goes by what it has counted. -/
theorem scan_counts_brackets_strayParen :
    (onFirst strayParen).cursor.tokens = (TokenStream.lex false strayParen).tokens ∧
    0 ≤ (onFirst strayParen).cursor.index ∧
    (∃ met last, Reaches strayParen bodyStops (.begin (onFirst strayParen)) met last ∧
      last.Ends strayParen bodyStops ∧
      Checked.scan strayParen ((onFirst strayParen).offset strayParen) bodyStops
          (onFirst strayParen) =
        .ok (last.node strayParen ((onFirst strayParen).offset strayParen), last.state)) ∧
    ∀ met scanning, Reaches strayParen bodyStops (.begin (onFirst strayParen)) met scanning →
      (scanning.nesting.keepsNames = true ↔
        Bracket.square.surplus met ≠ 0 ∨ Bracket.round.surplus met ≠ 0) ∧
      (scanning.Ends strayParen bodyStops ↔ ∀ token, scanning.state.token? = some token →
        bodyStops.contains token.kind = true ∧ ∀ bracket : Bracket, bracket.surplus met ≤ 0) ∧
      (∀ bracket : Bracket,
        bracket.surplus met = (bracket.depth met : Int) - bracket.strays met) ∧
      ((∀ bracket : Bracket, bracket.strays met = 0) →
        (scanning.nesting.keepsNames = true ↔
          0 < Bracket.square.depth met ∨ 0 < Bracket.round.depth met) ∧
        (scanning.Ends strayParen bodyStops ↔ ∀ token, scanning.state.token? = some token →
          bodyStops.contains token.kind = true ∧ ∀ bracket : Bracket, bracket.depth met = 0)) := by
  have htokens : (onFirst strayParen).cursor.tokens = (TokenStream.lex false strayParen).tokens :=
    (ParseState.leadsTo_moveNext _).tokens_eq
  have hindex : 0 ≤ (onFirst strayParen).cursor.index := by decide +kernel
  exact ⟨htokens, hindex,
    scan_counts_brackets false bodyStops (onFirst strayParen) htokens hindex⟩

/-- Behind a stray parenthesis a name is kept though no bracket is open, so that the resource is
lost which is found without the parenthesis; and a scan ends on a stop token that stands in
parentheses which it has met open. -/
theorem scan_misled_by_strays :
    (∃ met scanning, Reaches strayParen bodyStops (.begin (onFirst strayParen)) met scanning ∧
      scanning.nesting.keepsNames = true ∧
      (Bracket.brace.depth met, Bracket.square.depth met, Bracket.round.depth met) = (0, 0, 0)) ∧
    (Manifest.scan strayParen 0 bodyStops (onFirst strayParen)).1.children.map Node.kind =
      [.string] ∧
    (Manifest.scan (strayParen.drop 2) 0 bodyStops
      (onFirst (strayParen.drop 2))).1.children.map Node.kind = [.resource] ∧
    ∃ met last,
      Reaches strayBeforeParens bodyStops (.begin (onFirst strayBeforeParens)) met last ∧
      last.Ends strayBeforeParens bodyStops ∧ last.state.kind? = some .rightBrace ∧
      Bracket.round.depth met = 1 := by
  refine ⟨⟨_, _, Scanning.reaches_follow strayParen bodyStops 1 (.begin (onFirst strayParen)),
    by decide +kernel, by decide +kernel⟩, by decide +kernel, by decide +kernel,
    _, _,
    Scanning.reaches_follow strayBeforeParens bodyStops 2 (.begin (onFirst strayBeforeParens)),
    ?_, by decide +kernel, by decide +kernel⟩
  rw [Scanning.ends_iff]
  intro token htoken
  have hkind : (Scanning.follow strayBeforeParens bodyStops 2
      (.begin (onFirst strayBeforeParens))).2.state.token?.map Token.kind =
        some .rightBrace := by decide +kernel
  rw [htoken] at hkind
  exact ⟨by rw [Option.some.inj hkind]; rfl, by decide +kernel⟩

end Scan

end Manifest
