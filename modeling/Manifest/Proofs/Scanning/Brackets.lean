import Manifest.Parse.Nesting
import Manifest.Proofs.Lexing.Significant

/-!
# Brackets in a row of tokens

The brackets that are open are kept innermost first; each closing bracket has to close the
innermost one.  The three counters of a scan count what is open by shape, so they are all zero
just where nothing is open.
-/

namespace Manifest

inductive Bracket where
  | brace
  | square
  | round
  deriving DecidableEq, Repr

namespace Bracket

def openedBy? : TokenKind → Option Bracket
  | .leftBrace => some .brace
  | .leftBracket => some .square
  | .leftParen => some .round
  | _ => none

def closedBy? : TokenKind → Option Bracket
  | .rightBrace => some .brace
  | .rightBracket => some .square
  | .rightParen => some .round
  | _ => none

def closing : Bracket → TokenKind
  | .brace => .rightBrace
  | .square => .rightBracket
  | .round => .rightParen

/-- The brackets that are open after a token; none if it closes another one than the
innermost. -/
def after (opened : List Bracket) (kind : TokenKind) : Option (List Bracket) :=
  match openedBy? kind, closedBy? kind with
  | some bracket, _ => some (bracket :: opened)
  | none, some bracket => if opened.head? = some bracket then some opened.tail else none
  | none, none => some opened

/-- The brackets that are open after a row of tokens, if it is properly nested. -/
def afterAll : List Bracket → List Token → Option (List Bracket)
  | opened, [] => some opened
  | opened, token :: tokens =>
      match after opened token.kind with
      | some further => afterAll further tokens
      | none => none

/-- The tokens of a row that stand outside of all its brackets.  A bracket that opens there
stands outside, too. -/
def outside : List Bracket → List Token → List Token
  | _, [] => []
  | opened, token :: tokens =>
      let rest :=
        match after opened token.kind with
        | some further => outside further tokens
        | none => []
      if opened.isEmpty then token :: rest else rest

variable {kind : TokenKind} {bracket : Bracket} {opened above further : List Bracket}
  {token : Token} {tokens : List Token}

/-! ## Single tokens -/

theorem closedBy?_closing (bracket : Bracket) : closedBy? bracket.closing = some bracket := by
  cases bracket <;> rfl

theorem eq_closing (h : closedBy? kind = some bracket) : kind = bracket.closing := by
  unfold closedBy? at h
  split at h <;> cases h <;> rfl

theorem openedBy?_of_closedBy? (h : closedBy? kind = some bracket) : openedBy? kind = none := by
  rw [eq_closing h]
  cases bracket <;> rfl

theorem after_cases (h : after opened kind = some further) :
    (∃ bracket, openedBy? kind = some bracket ∧ further = bracket :: opened) ∨
      (∃ bracket, closedBy? kind = some bracket ∧ opened = bracket :: further) ∨
        openedBy? kind = none ∧ closedBy? kind = none ∧ further = opened := by
  unfold after at h
  split at h
  · rename_i bracket hopens
    exact .inl ⟨bracket, hopens, (Option.some.inj h).symm⟩
  · rename_i bracket hopens hcloses
    split at h
    · rename_i hhead
      obtain ⟨rest, rfl⟩ := List.head?_eq_some_iff.1 hhead
      exact .inr (.inl ⟨bracket, hcloses, congrArg _ (Option.some.inj h)⟩)
    · cases h
  · rename_i hopens hcloses
    exact .inr (.inr ⟨hopens, hcloses, (Option.some.inj h).symm⟩)

theorem after_opening (h : openedBy? kind = some bracket) (opened : List Bracket) :
    after opened kind = some (bracket :: opened) := by
  unfold after
  rw [h]

theorem after_closing (h : closedBy? kind = some bracket) (opened : List Bracket) :
    after (bracket :: opened) kind = some opened := by
  unfold after
  rw [openedBy?_of_closedBy? h, h]
  exact if_pos rfl

theorem after_other (h : openedBy? kind = none) (h' : closedBy? kind = none)
    (opened : List Bracket) : after opened kind = some opened := by
  unfold after
  rw [h, h']

/-! ## Rows -/

theorem afterAll_cons (h : after opened token.kind = some further) (tokens : List Token) :
    afterAll opened (token :: tokens) = afterAll further tokens := by
  rw [afterAll, h]

theorem afterAll_append (opened : List Bracket) (tokens more : List Token) :
    afterAll opened (tokens ++ more) =
      (afterAll opened tokens).bind fun further => afterAll further more := by
  induction tokens generalizing opened with
  | nil => rfl
  | cons token tokens ih =>
      rw [List.cons_append, afterAll, afterAll]
      cases after opened token.kind with
      | some further => exact ih further
      | none => rfl

theorem exists_after (h : afterAll opened (token :: tokens) = some above) :
    ∃ further, after opened token.kind = some further ∧ afterAll further tokens = some above := by
  cases hafter : after opened token.kind with
  | some further => exact ⟨further, rfl, (afterAll_cons hafter tokens).symm.trans h⟩
  | none =>
      rw [afterAll, hafter] at h
      cases h

theorem outside_subset (h : after opened token.kind = some further) (tokens : List Token) :
    outside further tokens ⊆ outside opened (token :: tokens) := by
  intro other hother
  rw [outside, h]
  dsimp only
  split
  · exact List.mem_cons_of_mem _ hother
  · exact hother

theorem mem_outside (h : after [] token.kind = some further) :
    token ∈ outside [] (token :: tokens) := by
  rw [outside, h]
  exact List.mem_cons_self

/-- No bracket closes outside of all brackets. -/
theorem closedBy?_of_mem_outside (h : afterAll opened tokens = some further)
    (htoken : token ∈ outside opened tokens) : closedBy? token.kind = none := by
  induction tokens generalizing opened with
  | nil => cases htoken
  | cons first tokens ih =>
      obtain ⟨next, hnext, hrest⟩ := exists_after h
      rw [outside, hnext] at htoken
      dsimp only at htoken
      split at htoken
      · rename_i hempty
        obtain rfl := List.isEmpty_iff.1 hempty
        rcases List.mem_cons.1 htoken with rfl | htoken
        · rcases after_cases hnext with ⟨bracket, hopens, -⟩ | ⟨bracket, -, hnil⟩ | ⟨-, hcloses, -⟩
          · cases hcloses : closedBy? token.kind with
            | none => rfl
            | some other =>
                rw [openedBy?_of_closedBy? hcloses] at hopens
                cases hopens
          · cases hnil
          · exact hcloses
        · exact ih hrest htoken
      · exact ih hrest htoken

/-- A bracket that is open before a row that closes all is closed in it.  Up to there the
brackets above it are closed, and from there on those below. -/
theorem exists_closing (above : List Bracket)
    (h : afterAll (above ++ bracket :: opened) tokens = some []) :
    ∃ inner closer rest, tokens = inner ++ closer :: rest ∧
      closedBy? closer.kind = some bracket ∧ afterAll above inner = some [] ∧
      afterAll opened rest = some [] ∧
      outside opened rest ⊆ outside (above ++ bracket :: opened) tokens := by
  induction tokens generalizing above with
  | nil => simp [afterAll] at h
  | cons token tokens ih =>
      obtain ⟨next, hnext, hrest⟩ := exists_after h
      have hsubset := outside_subset hnext tokens
      -- What the token does to the whole stack, it does to the brackets above.
      have hdeeper : ∀ higher, after above token.kind = some higher →
          next = higher ++ bracket :: opened →
          ∃ inner closer rest, token :: tokens = inner ++ closer :: rest ∧
            closedBy? closer.kind = some bracket ∧ afterAll above inner = some [] ∧
            afterAll opened rest = some [] ∧
            outside opened rest ⊆ outside (above ++ bracket :: opened) (token :: tokens) := by
        rintro higher hhigher rfl
        obtain ⟨inner, closer, rest, rfl, hcloser, hinner, hbehind, houtside⟩ := ih higher hrest
        exact ⟨token :: inner, closer, rest, rfl, hcloser,
          (afterAll_cons hhigher inner).trans hinner, hbehind,
          fun _ hother => hsubset (houtside hother)⟩
      rcases after_cases hnext with ⟨other, hopens, rfl⟩ | ⟨other, hcloses, hstack⟩ |
        ⟨hopens, hcloses, rfl⟩
      · exact hdeeper (other :: above) (after_opening hopens above) rfl
      · cases above with
        | nil =>
            obtain ⟨rfl, rfl⟩ := List.cons.inj hstack
            exact ⟨[], token, tokens, rfl, hcloses, rfl, hrest, hsubset⟩
        | cons first higher =>
            obtain ⟨rfl, rfl⟩ := List.cons.inj hstack
            exact hdeeper higher (after_closing hcloses higher) rfl
      · exact hdeeper above (after_other hopens hcloses above) rfl

end Bracket

/-! ## Counters -/

namespace Nesting

def ofOpen (opened : List Bracket) : Nesting :=
  ⟨opened.count .brace, opened.count .square, opened.count .round⟩

theorem isActive_ofOpen (opened : List Bracket) : (ofOpen opened).isActive = !opened.isEmpty := by
  cases opened with
  | nil => rfl
  | cons bracket opened =>
      refine decide_eq_true ?_
      cases bracket
      · exact .inl (Int.natCast_pos.2 (List.count_pos_iff.2 List.mem_cons_self))
      · exact .inr (.inl (Int.natCast_pos.2 (List.count_pos_iff.2 List.mem_cons_self)))
      · exact .inr (.inr (Int.natCast_pos.2 (List.count_pos_iff.2 List.mem_cons_self)))

/-- Brackets are counted as they open and close; other tokens are not tracked. -/
theorem track_ofOpen {kind : TokenKind} {opened further : List Bracket}
    (h : Bracket.after opened kind = some further) :
    (ofOpen opened).track kind = some (ofOpen further) ∨
      (ofOpen opened).track kind = none ∧ further = opened := by
  rcases Bracket.after_cases h with ⟨bracket, hopens, rfl⟩ | ⟨bracket, hcloses, rfl⟩ |
    ⟨hopens, hcloses, rfl⟩
  · refine .inl ?_
    unfold Bracket.openedBy? at hopens
    split at hopens <;> cases hopens <;> simp [track, ofOpen]
  · refine .inl ?_
    rw [Bracket.eq_closing hcloses]
    cases bracket <;> simp [track, ofOpen, Bracket.closing]
  · refine .inr ⟨?_, rfl⟩
    unfold track
    split <;> first | rfl | exact absurd hopens (by decide) | exact absurd hcloses (by decide)

end Nesting

end Manifest
