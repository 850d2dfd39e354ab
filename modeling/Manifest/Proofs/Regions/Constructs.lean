import Manifest.Proofs.Regions.Stretches

/-!
# Constructs of a scan

A scan takes over a token that stands for itself, a definition, a call, a method or an index in
one step each, and goes on with the token behind it.
-/

namespace Manifest

namespace ParseState

variable {source : List Char} {state : ParseState} {token next : Token} {rest : List Token}

theorem Faces.token?_moveNext (h : state.Faces (token :: next :: rest))
    (hplaced : state.cursor.Placed source) :
    state.moveNext.token? = some next ↔ next.offset = token.stop := by
  have hsees := h.moveNext
  obtain ⟨first, hfirst⟩ := hsees.exists_token? (List.cons_ne_nil _ _)
  have hstart : state.moveNext.offset source = token.stop :=
    hplaced.offset_moveNext h.token?
  have hoffset : first.offset = token.stop := (offset_of_token? hfirst).symm.trans hstart
  constructor
  · intro hnext
    obtain rfl := Option.some.inj (hfirst.symm.trans hnext)
    exact hoffset
  · intro hnext
    cases htrivia : first.isTrivia with
    | false => exact (hsees.faces hfirst htrivia).token?
    | true =>
        have hbehind : state.moveNext.next.offset source = next.offset :=
          (hsees.next_of_trivia hfirst htrivia).offset
        have hplacedMove := placed_moveNext hplaced
        have hstop : first.stop ≤ state.moveNext.next.offset source :=
          hplacedMove.stop_le_next hfirst
        have hcovers := hplacedMove.covers first (Cursor.mem_tokens hfirst)
        have htakes := hcovers.offset_lt
        omega

end ParseState

namespace Region

variable {source : List Char} {stops : List TokenKind} {nesting : Nesting}
  {name opening closing token next : Token} {row rest tokens : List Token} {scanning : Scanning}
  {state : ParseState} {kind : TokenKind}

/-! ## Steps -/

def wordKinds : List TokenKind :=
  [.variable, .identifier, .dot, .kwClass, .kwCase, .kwIf, .kwUnless]

theorem exists_step (hgoes : nesting.isActive = true ∨ stops.contains token.kind = false)
    (htoken : scanning.state.token? = some token) (hnesting : scanning.nesting = nesting)
    (hloud : token.isTrivia = false) (htrack : nesting.track token.kind = none)
    (hsees : (scanning.significantAt source (Manifest.scan source) stops token).state.Sees
      tokens) :
    ∃ after, scanning.step source (Manifest.scan source) stops = .again after ∧
      after.nesting = nesting ∧ after.state.Sees tokens := by
  refine ⟨_, ?_, Scanning.nesting_significantAt.trans hnesting, hsees⟩
  have hends : scanning.endsAt stops token.kind = false := by
    unfold Scanning.endsAt
    rw [hnesting]
    rcases hgoes with h | h <;> rw [h] <;> simp
  unfold Scanning.step Scanning.tokenAt
  rw [htoken]
  dsimp only
  rw [hends, hloud, hnesting, htrack]
  rfl

theorem exists_step_word (hstops : ∀ kind ∈ stops, kind ∈ runStops)
    (hword : token.kind ∈ wordKinds ∨ token.kind.category = .function)
    (hfaces : scanning.state.Faces (token :: rest)) (hnesting : scanning.nesting = nesting)
    (hsees : (scanning.significantAt source (Manifest.scan source) stops token).state.Sees
      tokens) :
    ∃ after, scanning.step source (Manifest.scan source) stops = .again after ∧
      after.nesting = nesting ∧ after.state.Sees tokens := by
  have hkind : ∀ kind : TokenKind, kind ∈ wordKinds ∨ kind.category = .function →
      kind ∉ runStops ∧ nesting.track kind = none := by
    intro kind
    cases kind <;> first | exact fun _ => ⟨by decide, rfl⟩ | exact fun h => absurd h (by decide)
  refine exists_step (.inr ?_) hfaces.token? hnesting hfaces.significant (hkind _ hword).2 hsees
  by_contra hstop
  exact (hkind _ hword).1 (hstops _ (List.contains_iff_mem.1 (by simpa using hstop)))

/-! ## Single tokens -/

/-- Where a name neither opens a block nor declares a class, the scan goes on behind it. -/
theorem state_nameAt (hfaces : scanning.state.Faces (token :: next :: rest))
    (hblock : next.kind = .leftBrace → scanning.nesting.opensBlocks stops = false)
    (hclass : token.kind = .kwClass → next.kind = .identifier →
      scanning.nesting.keepsNames = true) (scan : Scan) :
    (scanning.nameAt source scan stops token).state = scanning.state.next := by
  unfold Scanning.nameAt
  dsimp only
  split
  · rfl
  · rename_i hkeeps
    rw [hfaces.next.token?]
    dsimp only
    have hnoBlock : ¬ (next.kind = .leftBrace ∧ scanning.endsAt stops .leftBrace = false) := by
      rintro ⟨hbrace, hgoes⟩
      have hopens := hblock hbrace
      unfold Nesting.opensBlocks at hopens
      unfold Scanning.endsAt at hgoes
      revert hopens hgoes hkeeps
      cases scanning.nesting.keepsNames <;> cases scanning.nesting.isActive <;> simp
    rw [if_neg hnoBlock, if_neg fun h => hkeeps (hclass h.1 h.2)]
    rfl

theorem Alone.of_kind
    (hword : token.kind ∉ [TokenKind.identifier, .dot, .kwClass, .kwCase, .kwIf, .kwUnless])
    (hdefinition : token.kind = .variable → next.kind ≠ .equals)
    (hfunction : token.kind.category ≠ .function) (hloud : token.kind.isTrivia = false)
    (htrack : nesting.track token.kind = none)
    (hgoes : nesting.isActive = true ∨ stops.contains token.kind = false) :
    Alone source stops nesting token next := by
  simp only [List.mem_cons, List.not_mem_nil, or_false, not_or] at hword
  obtain ⟨hname, hdot, hclass, hcase, hif, hunless⟩ := hword
  exact ⟨hloud, htrack, hgoes, by simp [hcase, hif, hunless], hfunction, hdefinition,
    fun h => (hname h).elim, fun h => (hname h).elim, fun h => (h.elim hname hclass).elim,
    fun h => (hclass h).elim, fun h => (hdot h).elim⟩

theorem reads_alone (htoken : Alone source stops nesting token next) :
    (construct stops nesting next).Reads source [token] := by
  intro scanning rest hstops hplaced hnesting hfaces
  have hrow : scanning.state.Faces (token :: next :: rest) := hfaces
  refine exists_step htoken.goes hrow.token? hnesting htoken.significant htoken.untracked ?_
  have hname : token.kind = .identifier ∨ token.kind = .kwClass →
      (scanning.nameAt source (Manifest.scan source) stops token).state.Sees (next :: rest) := by
    intro hkind
    rw [state_nameAt hrow (fun hbrace => hnesting ▸ htoken.block hkind hbrace)
      (fun hclass hidentifier => hnesting ▸ htoken.declaration hclass hidentifier)]
    exact hrow.next.toSees
  have hstatement : ∀ kind, token.kind = kind → kind ∉ [TokenKind.kwCase, .kwIf, .kwUnless] ∧
      kind.category ≠ .function := by
    rintro _ rfl
    exact ⟨htoken.statement, htoken.function⟩
  unfold Scanning.significantAt
  split
  · exact hrow.next.toSees
  · rename_i hkind
    have hequals : scanning.state.next.isAt .equals = false :=
      (hrow.next.isAt _).trans (beq_eq_false_iff_ne.2 (htoken.definition hkind))
    unfold Scanning.variableAt
    dsimp only
    rw [hequals, if_neg Bool.false_ne_true]
    exact hrow.next.toSees
  · rename_i hkind
    exact ((hstatement _ hkind).2 rfl).elim
  · rename_i hkind
    exact ((hstatement _ hkind).2 rfl).elim
  · rename_i hkind
    exact ((hstatement _ hkind).2 rfl).elim
  · rename_i hkind
    unfold Scanning.wordAt
    dsimp only
    rw [if_pos hkind, Scanning.applied?_eq_none hrow (htoken.call hkind) (htoken.index hkind)]
    exact hname (.inl hkind)
  · rename_i hkind
    unfold Scanning.wordAt
    dsimp only
    rw [if_neg (by rw [hkind]; decide)]
    exact hname (.inr hkind)
  · rename_i hkind
    exact ((hstatement _ hkind).1 (by decide)).elim
  · rename_i hkind
    exact ((hstatement _ hkind).1 (by decide)).elim
  · rename_i hkind
    exact ((hstatement _ hkind).1 (by decide)).elim
  · rename_i hkind
    have hmove := hrow.moveNext
    unfold Scanning.dotAt
    dsimp only
    split
    · exact hmove
    · rename_i named hnamed
      rw [if_neg]
      · exact hmove
      · intro hmethod
        have hloud : named.isTrivia = false := Token.significant_of_name hmethod
        obtain rfl : next = named :=
          Option.some.inj ((hmove.faces hnamed hloud).token?.symm.trans hnamed)
        exact htoken.method hkind ((hrow.token?_moveNext hplaced).1 hnamed) hmethod
  · rw [if_neg htoken.function]
    exact hrow.next.toSees

theorem reads_definition {equals : Token} (hname : name.kind = .variable)
    (hequals : equals.kind = .equals) :
    (construct stops nesting next).Reads source [name, equals] := by
  intro scanning rest hstops _ hnesting hfaces
  have hrow : scanning.state.Faces (name :: equals :: next :: rest) := hfaces
  refine exists_step_word hstops (.inl (by rw [hname]; decide)) hrow hnesting ?_
  have hat : scanning.state.next.isAt .equals = true := by
    rw [hrow.next.isAt, hequals]
    rfl
  unfold Scanning.significantAt Scanning.variableAt
  rw [hname]
  dsimp only
  rw [hat]
  exact hrow.next.next.toSees

/-! ## Calls, methods and indices -/

theorem reads_noArguments (hnext : next.kind ≠ .leftParen) : (arguments next).Reads source [] := by
  intro scanning name token state rest _ hfaces
  have hrow : state.Faces (name :: next :: rest) := hfaces
  have hparen : state.next.isAt .leftParen = false :=
    (hrow.next.isAt _).trans (beq_eq_false_iff_ne.2 hnext)
  unfold Scanning.callAt
  dsimp only
  rw [hparen, if_neg Bool.false_ne_true]
  exact hrow.next

theorem reads_arguments (hopening : opening.kind = .leftParen)
    (hrow : (stretch callStops closing).Reads source row) :
    (arguments next).Reads source (opening :: (row ++ [closing])) := by
  intro scanning name token state rest hplaced hfaces
  have hinside : state.Faces (name :: opening :: (row ++ closing :: next :: rest)) := by
    simpa using hfaces
  have hparen : state.next.isAt .leftParen = true := by
    rw [hinside.next.isAt, hopening]
    rfl
  unfold Scanning.callAt
  dsimp only
  rw [if_pos hparen]
  exact (hrow.inside (by decide) (ParseState.placed_next hplaced) hinside.next).1.next

theorem reads_call (hname : name.kind = .identifier) (hopening : opening.kind = .leftParen)
    (hrow : (stretch callStops closing).Reads source row) :
    (construct stops nesting next).Reads source (name :: opening :: (row ++ [closing])) := by
  intro scanning rest hstops hplaced hnesting hfaces
  have hinside : scanning.state.Faces (name :: opening :: (row ++ closing :: next :: rest)) := by
    simpa using hfaces
  refine exists_step_word hstops (.inl (by rw [hname]; decide)) hinside hnesting ?_
  have hparen : scanning.state.next.isAt .leftParen = true := by
    rw [hinside.next.isAt, hopening]
    rfl
  unfold Scanning.significantAt Scanning.wordAt Scanning.applied?
  rw [hname]
  dsimp only
  rw [if_pos rfl, if_pos hparen]
  exact (hrow.inside (by decide) (ParseState.placed_next hplaced) hinside.next).1.next.toSees

theorem reads_function (hname : name.kind.category = .function)
    (hother : name.kind ∉ requirementKinds) (hrow : (arguments next).Reads source row) :
    (construct stops nesting next).Reads source (name :: row) := by
  intro scanning rest hstops hplaced hnesting hfaces
  refine exists_step_word hstops (.inr hname) hfaces hnesting ?_
  have hcall := hrow scanning name name scanning.state rest hplaced hfaces
  have hsignificant : scanning.significantAt source (Manifest.scan source) stops name =
      scanning.callAt source (Manifest.scan source) name scanning.state := by
    unfold Scanning.significantAt
    revert hname hother
    cases name.kind <;> first | exact fun _ _ => rfl | exact fun h => absurd h (by decide) |
      exact fun _ h => absurd h (by decide)
  rw [hsignificant]
  exact hcall.toSees

theorem reads_method {dot : Token} (hdot : dot.kind = .dot) (hadjacent : name.offset = dot.stop)
    (hname : name.kind = .identifier ∨ name.kind.category = .function)
    (hrow : (arguments next).Reads source row) :
    (construct stops nesting next).Reads source (dot :: name :: row) := by
  intro scanning rest hstops hplaced hnesting hfaces
  have hnamed : scanning.state.Faces (dot :: name :: (row ++ next :: rest)) := hfaces
  refine exists_step_word hstops (.inl (by rw [hdot]; decide)) hnamed hnesting ?_
  have htoken := (hnamed.token?_moveNext hplaced).2 hadjacent
  have hmove := hnamed.moveNext.faces htoken (Token.significant_of_name hname)
  unfold Scanning.significantAt Scanning.dotAt
  rw [hdot]
  dsimp only
  rw [htoken]
  dsimp only
  rw [if_pos hname]
  exact (hrow _ _ _ _ _ (ParseState.placed_moveNext hplaced) hmove).toSees

/-- A reference to a class takes just what a scan of its index does. -/
theorem faces_classReference {report : Bool} {reference : Node} {last : ParseState}
    (hplaced : state.cursor.Placed source)
    (hfaces : state.Faces (name :: opening :: (row ++ closing :: rest)))
    (hrow : (stretch indexStops closing).Reads source row)
    (h : state.classReference source report = (some reference, last)) :
    last.Faces (closing :: rest) := by
  obtain ⟨-, ⟨string, hstring, hkind, -⟩, rfl, hclosing⟩ := ParseState.classReference_some h
  have hindex := hfaces.next.next
  obtain ⟨behind, hbehind⟩ := List.head?_eq_some_iff.1 (hindex.head.symm.trans hstring)
  rw [hbehind] at hindex
  obtain ⟨bracket, hbracket, hclose⟩ := ParseState.token?_of_isAt hclosing
  obtain ⟨more, rfl⟩ := List.head?_eq_some_iff.1 (hindex.next.head.symm.trans hbracket)
  -- a string by itself is all that stands in the brackets, for a scan too
  have hstring' : (stretch indexStops bracket).Reads source [string] := by
    have halone : Alone source indexStops .flat string bracket :=
      .of_kind (by rw [hkind]; decide) (by rw [hkind]; exact fun h => nomatch h)
        (by rw [hkind]; decide) (by rw [hkind]; rfl) (by rw [hkind]; rfl)
        (.inr (by rw [hkind]; rfl))
    have hpart : (part indexStops .flat .flat bracket).Reads source ([string] ++ []) :=
      reads_onward (List.cons_ne_nil _ _) (reads_alone halone) reads_nothing
    exact reads_stretch hpart rfl (by rw [hclose]; rfl)
  have hplacedMove := ParseState.placed_moveNext (ParseState.placed_next hplaced)
  have hsees := hfaces.next.moveNext
  have hscan := hrow _ _ _ (by decide) hplacedMove (Nat.zero_le _) hsees
  rw [hbehind] at hsees
  have hends := hstring' _ _ _ (by decide) hplacedMove (Nat.zero_le _) hsees
  rw [← hends.unique hscan.toSees]
  exact hindex.next

/-- An index is passed over whether or not it names a class. -/
theorem applied?_index (hplaced : scanning.state.cursor.Placed source)
    (hfaces : scanning.state.Faces (name :: opening :: (row ++ closing :: rest)))
    (hcapital : startsWithCapital (name.text source) = true)
    (hopening : opening.kind = .leftBracket)
    (hrow : (stretch indexStops closing).Reads source row) :
    ∃ after, scanning.applied? source (Manifest.scan source) name = some after ∧
      after.state.Faces rest := by
  have hparen : scanning.state.next.isAt .leftParen = false := by
    rw [hfaces.next.isAt, hopening]
    rfl
  have hbracket : scanning.state.next.isAt .leftBracket = true := by
    rw [hfaces.next.isAt, hopening]
    rfl
  have hscan := (hrow.inside (by decide) (ParseState.placed_next hplaced) hfaces.next).1
  unfold Scanning.applied?
  dsimp only
  rw [hparen, if_neg Bool.false_ne_true, if_pos hbracket]
  cases hread : (if name.text source = classTypeName then
      scanning.state.classReference source false else (none, scanning.state.next)) with
  | mk reference? last =>
      cases reference? with
      | none =>
          dsimp only
          rw [if_pos hcapital]
          exact ⟨_, rfl, hscan.next⟩
      | some reference =>
          refine ⟨_, rfl, ?_⟩
          split at hread
          · exact (faces_classReference hplaced hfaces hrow hread).next
          · cases hread

theorem reads_index (hname : name.kind = .identifier)
    (hcapital : startsWithCapital (name.text source) = true)
    (hopening : opening.kind = .leftBracket)
    (hrow : (stretch indexStops closing).Reads source row) :
    (construct stops nesting next).Reads source (name :: opening :: (row ++ [closing])) := by
  intro scanning rest hstops hplaced hnesting hfaces
  have hinside : scanning.state.Faces (name :: opening :: (row ++ closing :: next :: rest)) := by
    simpa using hfaces
  refine exists_step_word hstops (.inl (by rw [hname]; decide)) hinside hnesting ?_
  obtain ⟨after, happlied, hafter⟩ := applied?_index hplaced hinside hcapital hopening hrow
  unfold Scanning.significantAt Scanning.wordAt
  rw [hname]
  dsimp only
  rw [if_pos rfl, happlied]
  exact hafter.toSees

end Region

end Manifest
