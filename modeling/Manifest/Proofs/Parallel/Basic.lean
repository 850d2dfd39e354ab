import Mathlib.Data.List.Forall2
import Manifest.Proofs.Parsing.Scans
import Manifest.Proofs.Tree.Links

/-!
# Parses side by side

Two texts are parsed side by side.  A significant token of the one stands for a
significant token of the other, and blanks stand for blanks.  What is to hold of places,
of nodes and of reports on both sides is left open: the grammar keeps whatever holds of
the tokens and is kept where nodes are made.

The left text may be cut off where the right one goes on.  A parse of the left text that
has come to its end then knows nothing of the right one any more, and is lost.
-/

namespace Manifest

/-- What is to hold of two texts that are parsed side by side. -/
structure Parallel where
  left : List Char
  right : List Char
  /-- The tokens of the right text beyond the end of the left one. -/
  beyond : List Token
  /-- Offsets in the left text that stand for offsets in the right one. -/
  places : Nat → Nat → Prop
  /-- Significant tokens that stand for one another. -/
  tokens : Token → Token → Prop
  nodes : Node → Node → Prop
  /-- Reports that were made, latest first. -/
  reports : List Diagnostic → List Diagnostic → Prop

namespace Parallel

def ranges (p : Parallel) (range other : TextRange) : Prop :=
  p.places range.start other.start ∧ p.places range.stop other.stop

structure Builds (p : Parallel) : Prop where
  string : ∀ {offset offset' : Nat} (raw : List Char), p.places offset offset' →
    p.nodes (Node.string offset raw) (Node.string offset' raw)
  plainVariable : ∀ {offset offset' : Nat} (name : List Char), p.places offset offset' →
    p.nodes (Node.plainVariable offset name) (Node.plainVariable offset' name)
  plainDefinition : ∀ {offset offset' : Nat} (name : List Char), p.places offset offset' →
    p.nodes (Node.plainDefinition offset name) (Node.plainDefinition offset' name)
  classRef : ∀ {offset offset' nameOffset nameOffset' : Nat} (name : List Char),
    p.places offset offset' → p.places nameOffset nameOffset' →
    p.nodes (Node.classRef offset nameOffset name) (Node.classRef offset' nameOffset' name)
  functionCall : ∀ {offset offset' : Nat} {children children' : List Node} (name : List Char),
    p.places offset offset' → List.Forall₂ p.nodes children children' →
    p.nodes ⟨offset, none, .functionCall name, children⟩
      ⟨offset', none, .functionCall name, children'⟩
  typeReference : ∀ {offset offset' : Nat} {index index' : Node} (name : List Char),
    p.places offset offset' → p.nodes index index' →
    p.nodes ⟨offset, none, .typeReference name, [index]⟩
      ⟨offset', none, .typeReference name, [index']⟩
  attributeNode : ∀ {name name' : Token} {value? value?' : Option Node},
    p.tokens name name' → Option.Rel p.nodes value? value?' →
    p.nodes (ResourceAttributes.attributeNode p.left name value?)
      (ResourceAttributes.attributeNode p.right name' value?')
  resource : ∀ {offset offset' : Nat} {title? title?' : Option Node}
    {attributes attributes' : List Node} {stop? stop?' : Option Nat} (type : List Char),
    p.places offset offset' →
    Option.Rel p.nodes title? title?' → List.Forall₂ p.nodes attributes attributes' →
    Option.Rel p.places stop? stop?' →
    p.nodes (Node.resource offset type title? attributes stop?)
      (Node.resource offset' type title?' attributes' stop?')
  param : ∀ {opened opened' : OpenParam} {default? default?' : Option Node},
    p.ranges opened.type opened'.type → p.tokens opened.token opened'.token →
    Option.Rel p.nodes default? default?' →
    p.nodes (Params.param p.left opened default?) (Params.param p.right opened' default?')
  classDecl : ∀ {offset offset' nameOffset nameOffset' : Nat} {params params' : List Node}
    {inherits? inherits?' body? body?' : Option Node} (name : List Char),
    p.places offset offset' → p.places nameOffset nameOffset' →
    List.Forall₂ p.nodes params params' → Option.Rel p.nodes inherits? inherits?' →
    Option.Rel p.nodes body? body?' → (∀ param ∈ params, param.isBlob = false) →
    (∀ parent ∈ inherits?, parent.isBlob = false) → (∀ body ∈ body?, body.isBlob = true) →
    p.nodes (Node.classDecl offset (some (nameOffset, name)) params inherits? body?)
      (Node.classDecl offset' (some (nameOffset', name)) params' inherits?' body?')
  defineDecl : ∀ {offset offset' : Nat} {params params' : List Node}
    {body? body?' : Option Node} (name? : Option (List Char)), p.places offset offset' →
    List.Forall₂ p.nodes params params' → Option.Rel p.nodes body? body?' →
    (∀ param ∈ params, param.isBlob = false) → (∀ body ∈ body?, body.isBlob = true) →
    p.nodes (Node.defineDecl offset name? params body?)
      (Node.defineDecl offset' name? params' body?')
  nodeDecl : ∀ {offset offset' : Nat} {body? body?' : Option Node} (names : List (List Char)),
    p.places offset offset' → Option.Rel p.nodes body? body?' →
    (∀ body ∈ body?, body.isBlob = true) →
    p.nodes (Node.nodeDecl offset names body?) (Node.nodeDecl offset' names body?')
  caseStatement : ∀ {offset offset' : Nat} {stop? stop?' : Option Nat}
    {arms : List (Link × Link)} {parts parts' : List Node}, p.places offset offset' →
    Option.Rel p.places stop? stop?' → List.Forall₂ p.nodes parts parts' →
    0 < parts.length → Link.Arms arms parts.length →
    p.nodes ⟨offset, stop?.map Int.ofNat, .caseStmt (some (.child 0)) arms, parts⟩
      ⟨offset', stop?'.map Int.ofNat, .caseStmt (some (.child 0)) arms, parts'⟩
  branch : ∀ {branch branch' : Branch} {otherwise? otherwise?' : Option Node},
    p.places branch.offset branch'.offset → p.nodes branch.condition branch'.condition →
    p.nodes branch.consequence branch'.consequence →
    Option.Rel p.nodes otherwise? otherwise?' →
    p.nodes (branch.node otherwise?) (branch'.node otherwise?')
  blob : ∀ {offset offset' stop stop' : Nat} {children children' : List Node}
    (raw : List (List Char)), p.places offset offset' → p.places stop stop' →
    List.Forall₂ p.nodes children children' →
    p.nodes ⟨offset, some stop, .blob raw, children⟩ ⟨offset', some stop', .blob raw, children'⟩

/-- What holds of tokens that stand for one another, and of places and reports. -/
structure Lawful (p : Parallel) : Prop where
  builds : p.Builds
  kind : ∀ {token mate : Token}, p.tokens token mate → mate.kind = token.kind
  text : ∀ {token mate : Token}, p.tokens token mate → mate.text p.right = token.text p.left
  significant : ∀ {token mate : Token}, p.tokens token mate → token.isTrivia = false
  offset : ∀ {token mate : Token}, p.tokens token mate → p.places token.offset mate.offset
  offsetAfter : ∀ {token mate : Token}, p.tokens token mate →
    p.places (token.offset + 1) (mate.offset + 1)
  stop : ∀ {token mate : Token}, p.tokens token mate → p.places token.stop mate.stop
  min : ∀ {first other first' other' : Nat}, p.places first first' → p.places other other' →
    p.places (min first other) (min first' other')
  max : ∀ {first other first' other' : Nat}, p.places first first' → p.places other other' →
    p.places (max first other) (max first' other')
  length : p.beyond = [] → p.places p.left.length p.right.length
  report : ∀ {token mate : Token} {left right : ParseState} (finding : Finding),
    p.tokens token mate → p.reports left.reported right.reported →
    p.reports (left.report finding token.range).reported
      (right.report finding mate.range).reported
  reportEnd : ∀ {left right : ParseState} (finding : Finding), p.beyond = [] →
    p.reports left.reported right.reported →
    p.reports (left.report finding (TextRange.empty p.left.length)).reported
      (right.report finding (TextRange.empty p.right.length)).reported

/-- Tokens side by side: significant tokens stand for one another, blanks for blanks, and the
left tokens may be cut off. -/
inductive Row (p : Parallel) : List Token → List Token → Prop where
  | ended {rest : List Token} (h : rest = p.beyond) : Row p [] rest
  | token {token mate : Token} {tokens mates : List Token} (h : p.tokens token mate)
      (rest : Row p tokens mates) : Row p (token :: tokens) (mate :: mates)
  | blank {token mate : Token} {gap gap' tokens mates : List Token}
      (htoken : token.isTrivia = true) (hmate : mate.isTrivia = true)
      (hplaces : p.places token.offset mate.offset)
      (hgap : ∀ blank ∈ gap, blank.isTrivia = true)
      (hgap' : ∀ blank ∈ gap', blank.isTrivia = true)
      (rest : Row p tokens mates) : Row p (token :: (gap ++ tokens)) (mate :: (gap' ++ mates))

/-- The parse of the left text is at the end of it, where the right text goes on. -/
def Lost (p : Parallel) (left : ParseState) : Prop :=
  p.beyond ≠ [] ∧ ∃ behind, left.cursor = .past behind

/-- Two parses stand at the same place of their texts, with fewer tokens left than the bounds. -/
structure Beside (p : Parallel) (bound bound' : Nat) (left right : ParseState) : Prop where
  placed : left.cursor.Placed p.left
  placed' : right.cursor.Placed p.right
  below : left.remaining < bound
  below' : right.remaining < bound'
  row : p.Row left.cursor.ahead right.cursor.ahead
  reports : p.reports left.reported right.reported
  found : ¬ p.Lost left

/-- Two parses stand at the same place, and not on a blank. -/
structure Abreast (p : Parallel) (bound bound' : Nat) (left right : ParseState) : Prop
    extends Beside p bound bound' left right where
  offTrivia : ∀ token, left.token? = some token → token.isTrivia = false

/-- The left parse is lost, or what was agreed holds and the parses stand at the same place. -/
def Meets (p : Parallel) (bound bound' : Nat) (agreed : Prop) (left right : ParseState) : Prop :=
  p.Lost left ∨ (agreed ∧ p.Abreast bound bound' left right)

end Parallel

/-! ## Cursors and the tokens ahead of them -/

namespace Cursor

variable {cursor : Cursor}

theorem past_of_ahead (hbegun : cursor.Begun) (hahead : cursor.ahead = []) :
    ∃ behind, cursor = .past behind := by
  cases cursor with
  | start tokens => exact hbegun.elim
  | on behind token ahead => cases hahead
  | past behind => exact ⟨behind, rfl⟩

theorem begun_of_token? {token : Token} (h : cursor.token? = some token) : cursor.Begun := by
  cases cursor with
  | start tokens => cases h
  | on behind token ahead => trivial
  | past behind => trivial

theorem token?_of_begun (h : cursor.Begun) : cursor.token? = cursor.ahead.head? := by
  cases cursor with
  | start tokens => exact h.elim
  | on behind token ahead => rfl
  | past behind => rfl

theorem ahead_moveNext (h : cursor.Begun) : cursor.moveNext.ahead = cursor.ahead.tail := by
  cases cursor with
  | start tokens => exact h.elim
  | on behind token ahead => exact ahead_enter _ _
  | past behind => rfl

@[simp]
theorem ahead_settle (behind tokens : List Token) :
    (settle behind tokens).ahead = tokens.dropWhile Token.isTrivia := by
  induction tokens generalizing behind with
  | nil => rfl
  | cons token tokens ih =>
      unfold settle
      split
      · rename_i htoken
        rw [ih, List.dropWhile_cons_of_pos htoken]
      · rename_i htoken
        rw [List.dropWhile_cons_of_neg htoken]
        rfl

theorem ahead_next (h : cursor.Begun) :
    cursor.next.ahead = cursor.ahead.tail.dropWhile Token.isTrivia := by
  cases cursor with
  | start tokens => exact h.elim
  | on behind token ahead => exact ahead_settle _ _
  | past behind => rfl

theorem significant_of_ahead {tokens : List Token} (hbegun : cursor.Begun)
    (hahead : cursor.ahead = tokens.dropWhile Token.isTrivia) :
    ∀ token, cursor.token? = some token → token.isTrivia = false := by
  intro token htoken
  have hhead := List.head?_dropWhile_not Token.isTrivia tokens
  rw [← hahead, ← token?_of_begun hbegun, htoken] at hhead
  exact hhead

theorem ahead_skipTrivia (h : cursor.Begun) :
    cursor.skipTrivia.ahead = cursor.ahead.dropWhile Token.isTrivia := by
  cases cursor with
  | start tokens => exact h.elim
  | on behind token ahead => exact ahead_settle _ _
  | past behind => rfl

end Cursor

theorem ParseState.next_previous {state : ParseState} (h : state.cursor.Settled) :
    state.previous.next = state :=
  congrArg (fun cursor => { state with cursor }) h.next_previous

namespace Parallel

variable {p : Parallel} {bound bound' limit limit' : Nat} {agreed : Prop}
  {left right after after' : ParseState} {token mate : Token} {tokens mates : List Token}

/-! ## Rows -/

theorem Row.of_nil (h : p.Row [] mates) : mates = p.beyond := by
  cases h
  assumption

theorem Row.of_token (h : p.Row (token :: tokens) mates)
    (htoken : token.isTrivia = false) :
    ∃ mate rest, mates = mate :: rest ∧ p.tokens token mate ∧ p.Row tokens rest := by
  cases h with
  | token hmate hrest => exact ⟨_, _, rfl, hmate, hrest⟩
  | blank hblank => simp [htoken] at hblank

theorem Row.of_blank (hp : p.Lawful) (h : p.Row (token :: tokens) mates)
    (htoken : token.isTrivia = true) :
    ∃ mate rest, mates = mate :: rest ∧ mate.isTrivia = true ∧
      p.places token.offset mate.offset := by
  cases h with
  | token hmate hrest => simp [hp.significant hmate] at htoken
  | blank _ hmate hplaces => exact ⟨_, _, rfl, hmate, hplaces⟩

theorem Lawful.mate_significant (hp : p.Lawful) (h : p.tokens token mate) :
    mate.isTrivia = false := by
  have htoken := hp.significant h
  unfold Token.isTrivia at htoken ⊢
  rw [hp.kind h]
  exact htoken

/-- Blanks are passed over on both sides; the left tokens may end with them. -/
theorem Row.dropWhile (hp : p.Lawful) (h : p.Row tokens mates) :
    (p.beyond ≠ [] ∧ tokens.dropWhile Token.isTrivia = []) ∨
      p.Row (tokens.dropWhile Token.isTrivia) (mates.dropWhile Token.isTrivia) := by
  induction h with
  | ended hrest =>
      -- what is beyond may begin with blanks, so only an end of both texts makes a row
      by_cases hbeyond : p.beyond = []
      · rw [hrest, hbeyond]
        exact .inr (.ended hbeyond.symm)
      · exact .inl ⟨hbeyond, rfl⟩
  | token hmate hrest =>
      rw [List.dropWhile_cons_of_neg (by simp [hp.significant hmate]),
        List.dropWhile_cons_of_neg (by simp [hp.mate_significant hmate])]
      exact .inr (.token hmate hrest)
  | blank htoken hmate _ hgap hgap' _ ih =>
      rw [List.dropWhile_cons_of_pos htoken, List.dropWhile_cons_of_pos hmate,
        List.dropWhile_append_of_pos hgap, List.dropWhile_append_of_pos hgap']
      exact ih

theorem Row.dropWhile_tail (hp : p.Lawful) (h : p.Row (token :: tokens) (mate :: mates)) :
    (p.beyond ≠ [] ∧ tokens.dropWhile Token.isTrivia = []) ∨
      p.Row (tokens.dropWhile Token.isTrivia) (mates.dropWhile Token.isTrivia) := by
  cases htoken : token.isTrivia with
  | false =>
      obtain ⟨_, _, heq, -, hrest⟩ := h.of_token htoken
      obtain ⟨rfl, rfl⟩ := List.cons.inj heq
      exact hrest.dropWhile hp
  | true =>
      obtain ⟨_, _, heq, hmate, -⟩ := h.of_blank hp htoken
      obtain ⟨rfl, rfl⟩ := List.cons.inj heq
      have hdrop := h.dropWhile hp
      rwa [List.dropWhile_cons_of_pos htoken, List.dropWhile_cons_of_pos hmate] at hdrop

theorem row_map {f : Token → Token} {tokens : List Token}
    (htrivia : ∀ token ∈ tokens, (f token).isTrivia = token.isTrivia)
    (htokens : ∀ token ∈ tokens, token.isTrivia = false → p.tokens token (f token))
    (hplaces : ∀ token ∈ tokens, p.places token.offset (f token).offset) :
    p.Row tokens (tokens.map f ++ p.beyond) := by
  induction tokens with
  | nil => exact .ended rfl
  | cons token tokens ih =>
      rw [List.forall_mem_cons] at htrivia htokens hplaces
      have hrest := ih htrivia.2 htokens.2 hplaces.2
      cases htoken : token.isTrivia with
      | false => exact .token (htokens.1 htoken) hrest
      | true =>
          exact @Row.blank p token (f token) [] [] tokens _ htoken (htrivia.1.trans htoken)
            hplaces.1 (List.forall_mem_nil _) (List.forall_mem_nil _) hrest

/-! ## Being lost -/

theorem not_lost (hbeyond : p.beyond = []) (left : ParseState) : ¬ p.Lost left :=
  fun hlost => hlost.1 hbeyond

theorem lost_of_ahead (hbeyond : p.beyond ≠ []) (hbegun : left.cursor.Begun)
    (hahead : left.cursor.ahead = []) : p.Lost left :=
  ⟨hbeyond, Cursor.past_of_ahead hbegun hahead⟩

/-- Whoever is lost stays so. -/
theorem Lost.leads (h : p.Lost left) (hleads : left.cursor.LeadsTo after.cursor) :
    p.Lost after := by
  obtain ⟨hbeyond, behind, hcursor⟩ := h
  rw [hcursor] at hleads
  obtain ⟨passed, hahead, -⟩ := hleads.passes
  refine lost_of_ahead hbeyond (hleads.begun trivial) ?_
  exact (List.append_eq_nil_iff.1 hahead.symm).2

theorem Lost.next (h : p.Lost left) : p.Lost left.next :=
  h.leads left.leadsTo_next

theorem Lost.token? (h : p.Lost left) : left.token? = none := by
  obtain ⟨-, behind, hcursor⟩ := h
  unfold ParseState.token?
  rw [hcursor]
  rfl

theorem Lost.kind? (h : p.Lost left) : left.kind? = none :=
  congrArg (Option.map Token.kind) h.token?

theorem Lost.isAt (h : p.Lost left) (kind : TokenKind) : left.isAt kind = false := by
  unfold ParseState.isAt
  rw [h.kind?]
  rfl

theorem Lost.congr (h : p.Lost left) (hcursor : after.cursor = left.cursor) : p.Lost after := by
  unfold Lost
  rw [hcursor]
  exact h

/-! ## Standing at the same place -/

theorem Beside.bounded (h : p.Beside bound bound' left right) (hlimit : left.remaining < limit)
    (hlimit' : right.remaining < limit') : p.Beside limit limit' left right :=
  { h with below := hlimit, below' := hlimit' }

theorem Abreast.bounded (h : p.Abreast bound bound' left right) (hlimit : left.remaining < limit)
    (hlimit' : right.remaining < limit') : p.Abreast limit limit' left right :=
  { h with below := hlimit, below' := hlimit' }

theorem Abreast.mono (h : p.Abreast bound bound' left right) (hle : bound ≤ limit)
    (hle' : bound' ≤ limit') : p.Abreast limit limit' left right :=
  h.bounded (Nat.lt_of_lt_of_le h.below hle) (Nat.lt_of_lt_of_le h.below' hle')

theorem Abreast.congr (h : p.Abreast bound bound' left right)
    (hcursor : after.cursor = left.cursor) (hcursor' : after'.cursor = right.cursor)
    (hreports : p.reports after.reported after'.reported) :
    p.Abreast bound bound' after after' where
  placed := by rw [hcursor]; exact h.placed
  placed' := by rw [hcursor']; exact h.placed'
  below := by unfold ParseState.remaining; rw [hcursor]; exact h.below
  below' := by unfold ParseState.remaining; rw [hcursor']; exact h.below'
  row := by rw [hcursor, hcursor']; exact h.row
  reports := hreports
  found := fun hlost => h.found (hlost.congr hcursor.symm)
  offTrivia := by unfold ParseState.token?; rw [hcursor]; exact h.offTrivia

theorem Beside.eq_past (h : p.Beside bound bound' left right) (htoken : left.token? = none) :
    p.beyond = [] ∧ right.token? = none := by
  have hahead : left.cursor.ahead = [] := by
    have hhead : left.cursor.ahead.head? = none :=
      (Cursor.token?_of_begun h.placed.begun).symm.trans htoken
    exact List.head?_eq_none_iff.1 hhead
  have hbeyond : p.beyond = [] := by
    by_contra hne
    exact h.found (lost_of_ahead hne h.placed.begun hahead)
  have hrow := h.row
  rw [hahead] at hrow
  refine ⟨hbeyond, ?_⟩
  have hnone := Cursor.token?_of_begun h.placed'.begun
  rw [hrow.of_nil, hbeyond] at hnone
  exact hnone

theorem Beside.cases (hp : p.Lawful) (h : p.Beside bound bound' left right) :
    (left.token? = none ∧ right.token? = none ∧ p.beyond = []) ∨
      (∃ token mate, left.token? = some token ∧ right.token? = some mate ∧
        p.tokens token mate) ∨
      ∃ token mate, left.token? = some token ∧ right.token? = some mate ∧
        token.isTrivia = true ∧ mate.isTrivia = true ∧ p.places token.offset mate.offset := by
  have hleft := Cursor.token?_of_begun h.placed.begun
  have hright := Cursor.token?_of_begun h.placed'.begun
  have hrow := h.row
  cases hahead : left.cursor.ahead with
  | nil =>
      have hnone : left.token? = none := by rw [hahead] at hleft; exact hleft
      exact .inl ⟨hnone, (h.eq_past hnone).2, (h.eq_past hnone).1⟩
  | cons token rest =>
      rw [hahead] at hrow hleft
      cases htoken : token.isTrivia with
      | false =>
          obtain ⟨mate, rest', hmates, htokens, -⟩ := hrow.of_token htoken
          rw [hmates] at hright
          exact .inr (.inl ⟨token, mate, hleft, hright, htokens⟩)
      | true =>
          obtain ⟨mate, rest', hmates, hmate, hplaces⟩ := hrow.of_blank hp htoken
          rw [hmates] at hright
          exact .inr (.inr ⟨token, mate, hleft, hright, htoken, hmate, hplaces⟩)

theorem Abreast.cases (hp : p.Lawful) (h : p.Abreast bound bound' left right) :
    (left.token? = none ∧ right.token? = none ∧ p.beyond = []) ∨
      ∃ token mate, left.token? = some token ∧ right.token? = some mate ∧
        p.tokens token mate := by
  rcases h.toBeside.cases hp with hnone | hsome | ⟨token, _, htoken, -, htrivia, -⟩
  · exact .inl hnone
  · exact .inr hsome
  · rw [h.offTrivia token htoken] at htrivia
    cases htrivia

theorem Abreast.kind? (hp : p.Lawful) (h : p.Abreast bound bound' left right) :
    right.kind? = left.kind? := by
  unfold ParseState.kind? Cursor.kind?
  show right.token?.map Token.kind = left.token?.map Token.kind
  rcases h.cases hp with ⟨hleft, hright, -⟩ | ⟨token, mate, hleft, hright, htokens⟩
  · rw [hleft, hright]
  · rw [hleft, hright]
    exact congrArg some (hp.kind htokens)

theorem Abreast.isAt (hp : p.Lawful) (h : p.Abreast bound bound' left right) (kind : TokenKind) :
    right.isAt kind = left.isAt kind := by
  unfold ParseState.isAt
  rw [h.kind? hp]

theorem Abreast.isSome (hp : p.Lawful) (h : p.Abreast bound bound' left right) :
    right.token?.isSome = left.token?.isSome := by
  rcases h.cases hp with ⟨hleft, hright, -⟩ | ⟨token, mate, hleft, hright, -⟩
  · rw [hleft, hright]
  · rw [hleft, hright]
    rfl

theorem Beside.offset (hp : p.Lawful) (h : p.Beside bound bound' left right) :
    p.places (left.offset p.left) (right.offset p.right) := by
  rcases h.cases hp with ⟨hleft, hright, hbeyond⟩ | ⟨token, mate, hleft, hright, htokens⟩ |
    ⟨token, mate, hleft, hright, -, -, hplaces⟩
  · have hoffset : left.offset p.left = p.left.length :=
      Cursor.offset_of_none h.placed.begun hleft
    have hoffset' : right.offset p.right = p.right.length :=
      Cursor.offset_of_none h.placed'.begun hright
    rw [hoffset, hoffset']
    exact hp.length hbeyond
  · rw [ParseState.offset_of_token? hleft, ParseState.offset_of_token? hright]
    exact hp.offset htokens
  · rw [ParseState.offset_of_token? hleft, ParseState.offset_of_token? hright]
    exact hplaces

theorem Abreast.currentStop (hp : p.Lawful) (h : p.Abreast bound bound' left right) :
    p.places (left.currentStop p.left) (right.currentStop p.right) := by
  rcases h.cases hp with ⟨hleft, hright, hbeyond⟩ | ⟨token, mate, hleft, hright, htokens⟩
  · rw [ParseState.currentStop_of_none hleft, ParseState.currentStop_of_none hright]
    exact hp.length hbeyond
  · rw [ParseState.currentStop_of_token? hleft, ParseState.currentStop_of_token? hright]
    exact hp.stop htokens

/-! ## Moving side by side -/

theorem meets_of_row (tokens mates : List Token) (hplaced : left.cursor.Placed p.left)
    (hplaced' : right.cursor.Placed p.right) (hbelow : left.remaining < bound)
    (hbelow' : right.remaining < bound') (hreports : p.reports left.reported right.reported)
    (hahead : left.cursor.ahead = tokens.dropWhile Token.isTrivia)
    (hahead' : right.cursor.ahead = mates.dropWhile Token.isTrivia)
    (hrow : (p.beyond ≠ [] ∧ tokens.dropWhile Token.isTrivia = []) ∨
      p.Row (tokens.dropWhile Token.isTrivia) (mates.dropWhile Token.isTrivia)) :
    p.Meets bound bound' True left right := by
  by_cases hlost : p.Lost left
  · exact .inl hlost
  · rcases hrow with ⟨hbeyond, hnil⟩ | hrow
    · exact .inl (lost_of_ahead hbeyond hplaced.begun (hahead.trans hnil))
    · refine .inr ⟨trivial, ⟨hplaced, hplaced', hbelow, hbelow', ?_, hreports, hlost⟩,
        Cursor.significant_of_ahead hplaced.begun hahead⟩
      rw [hahead, hahead']
      exact hrow

theorem Beside.next (hp : p.Lawful) (h : p.Beside bound bound' left right) :
    p.Meets bound bound' True left.next right.next := by
  have hrow : (p.beyond ≠ [] ∧ left.cursor.ahead.tail.dropWhile Token.isTrivia = []) ∨
      p.Row (left.cursor.ahead.tail.dropWhile Token.isTrivia)
        (right.cursor.ahead.tail.dropWhile Token.isTrivia) := by
    have hahead := h.row
    generalize left.cursor.ahead = tokens at hahead ⊢
    generalize right.cursor.ahead = mates at hahead ⊢
    cases hahead with
    | ended hrest =>
        by_cases hbeyond : p.beyond = []
        · rw [hrest, hbeyond]
          exact .inr (.ended hbeyond.symm)
        · exact .inl ⟨hbeyond, rfl⟩
    | token htokens hrest => exact (Row.token htokens hrest).dropWhile_tail hp
    | blank htoken hmate hplaces hgap hgap' hrest =>
        exact (Row.blank htoken hmate hplaces hgap hgap' hrest).dropWhile_tail hp
  exact meets_of_row _ _ (ParseState.placed_next h.placed) (ParseState.placed_next h.placed')
    (Nat.lt_of_le_of_lt left.remaining_next_le h.below)
    (Nat.lt_of_le_of_lt right.remaining_next_le h.below') h.reports
    (Cursor.ahead_next h.placed.begun) (Cursor.ahead_next h.placed'.begun) hrow

theorem Abreast.next (hp : p.Lawful) (h : p.Abreast bound bound' left right) :
    p.Meets bound bound' True left.next right.next :=
  h.toBeside.next hp

theorem Beside.next_lt (hp : p.Lawful) (h : p.Beside (bound + 1) (bound' + 1) left right)
    (htoken : left.token? = some token) : p.Meets bound bound' True left.next right.next := by
  obtain ⟨mate, hmate⟩ : ∃ mate, right.token? = some mate := by
    rcases h.cases hp with ⟨hnone, -⟩ | ⟨_, mate, -, hmate, -⟩ | ⟨_, mate, -, hmate, -⟩
    · rw [hnone] at htoken
      cases htoken
    · exact ⟨mate, hmate⟩
    · exact ⟨mate, hmate⟩
  have hless := ParseState.remaining_next_lt htoken
  have hless' := ParseState.remaining_next_lt hmate
  have hbelow := h.below
  have hbelow' := h.below'
  rcases h.next hp with hlost | ⟨-, hnext⟩
  · exact .inl hlost
  · exact .inr ⟨trivial, hnext.bounded (by omega) (by omega)⟩

/-- Behind a significant token the parses may be on blanks. -/
theorem Abreast.moveNext (h : p.Abreast bound bound' left right) :
    p.Lost left.moveNext ∨ p.Beside bound bound' left.moveNext right.moveNext := by
  by_cases hlost : p.Lost left.moveNext
  · exact .inl hlost
  · refine .inr ⟨ParseState.placed_moveNext h.placed, ParseState.placed_moveNext h.placed',
      Nat.lt_of_le_of_lt left.remaining_moveNext_le h.below,
      Nat.lt_of_le_of_lt right.remaining_moveNext_le h.below', ?_, h.reports, hlost⟩
    have hmove : left.moveNext.cursor.ahead = left.cursor.ahead.tail :=
      Cursor.ahead_moveNext h.placed.begun
    have hmove' : right.moveNext.cursor.ahead = right.cursor.ahead.tail :=
      Cursor.ahead_moveNext h.placed'.begun
    rw [hmove, hmove']
    have hrow := h.row
    have hhead := Cursor.token?_of_begun h.placed.begun
    have hsignificant := h.offTrivia
    cases hahead : left.cursor.ahead with
    | nil =>
        rw [hahead] at hrow hhead
        rw [hrow.of_nil, (h.eq_past hhead).1]
        exact .ended (h.eq_past hhead).1.symm
    | cons token rest =>
        rw [hahead] at hrow hhead
        obtain ⟨mate, rest', hmates, -, hrest⟩ := hrow.of_token (hsignificant token hhead)
        rw [hmates]
        exact hrest

/-! ## Reports side by side -/

theorem Abreast.report (hp : p.Lawful) (h : p.Abreast bound bound' left right)
    (htokens : p.tokens token mate) (finding : Finding) :
    p.Abreast bound bound' (left.report finding token.range)
      (right.report finding mate.range) :=
  h.congr (ParseState.cursor_report _ _ _) (ParseState.cursor_report _ _ _)
    (hp.report finding htokens h.reports)

theorem Abreast.reportHere (hp : p.Lawful) (h : p.Abreast bound bound' left right)
    (finding : Finding) :
    p.Abreast bound bound' (left.reportHere p.left finding)
      (right.reportHere p.right finding) := by
  rcases h.cases hp with ⟨hleft, hright, hbeyond⟩ | ⟨token, mate, hleft, hright, htokens⟩
  · have hoffset : left.offset p.left = p.left.length :=
      Cursor.offset_of_none h.placed.begun hleft
    have hoffset' : right.offset p.right = p.right.length :=
      Cursor.offset_of_none h.placed'.begun hright
    unfold ParseState.reportHere ParseState.currentRange
    rw [hleft, hright, hoffset, hoffset']
    exact h.congr (ParseState.cursor_report _ _ _) (ParseState.cursor_report _ _ _)
      (hp.reportEnd finding hbeyond h.reports)
  · unfold ParseState.reportHere ParseState.currentRange
    rw [hleft, hright]
    exact h.report hp htokens finding

/-! ## Meeting -/

theorem Abreast.meets (h : p.Abreast bound bound' left right) (hagreed : agreed) :
    p.Meets bound bound' agreed left right :=
  .inr ⟨hagreed, h⟩

variable {other : Prop}

theorem Meets.imp (h : p.Meets bound bound' agreed left right) (himp : agreed → other) :
    p.Meets bound bound' other left right :=
  Or.imp_right (And.imp_left himp) h

theorem Meets.bounded (h : p.Meets bound bound' agreed left right) (hlimit : left.remaining < limit)
    (hlimit' : right.remaining < limit') : p.Meets limit limit' agreed left right :=
  Or.imp_right (And.imp_right fun habreast => habreast.bounded hlimit hlimit') h

theorem Meets.mono (h : p.Meets bound bound' agreed left right) (hle : bound ≤ limit)
    (hle' : bound' ≤ limit') : p.Meets limit limit' agreed left right :=
  Or.imp_right (And.imp_right fun habreast => habreast.mono hle hle') h

/-- What the right side does after the parses met does not matter where the left one is lost. -/
theorem Meets.andThen (h : p.Meets bound bound' agreed left right)
    (hleads : left.cursor.LeadsTo after.cursor)
    (hrest : agreed → p.Abreast bound bound' left right → p.Meets limit limit' other after after') :
    p.Meets limit limit' other after after' := by
  rcases h with hlost | ⟨hagreed, habreast⟩
  · exact .inl (hlost.leads hleads)
  · exact hrest hagreed habreast

theorem Meets.next (hp : p.Lawful) (h : p.Meets bound bound' agreed left right) :
    p.Meets bound bound' agreed left.next right.next :=
  h.andThen left.leadsTo_next fun hagreed habreast => (habreast.next hp).imp fun _ => hagreed

end Parallel

end Manifest
