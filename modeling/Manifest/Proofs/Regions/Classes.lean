import Manifest.Proofs.Regions.Constructs

/-!
# Classes and their parameters

A class is read from its name on: its parameters, what it inherits from, and its body, as far as
these are there.  A parameter list ends on the first closing parenthesis outside of the defaults.
-/

namespace Manifest

theorem Params.stepType_goes (source : List Char) (token : Token) {read : Params}
    (h : read.open? = none) : (stepType source token read).state = read.state.next ∧
      (stepType source token read).open?.isSome = (token.kind == .variable) := by
  unfold stepType
  dsimp only
  split
  · rename_i hvariable
    rw [hvariable]
    exact ⟨rfl, rfl⟩
  · rename_i hother
    rw [beq_eq_false_iff_ne.2 hother]
    split
    · exact ⟨rfl, rfl⟩
    · exact ⟨rfl, by rw [h]; rfl⟩

namespace Region

variable {source : List Char} {stops : List TokenKind} {nesting : Nesting} {opened : Bool}
  {word name opening closing comma equals token next : Token}
  {params parent body value row rest : List Token} {read : Params} {state : ParseState}

/-! ## Parameters -/

theorem reads_noParams (hclosing : closing.kind = .rightParen) :
    (Region.params opened closing).Reads source [] := by
  intro read rest fuel _ _ hfaces hfuel
  obtain ⟨fuel, rfl⟩ := Nat.exists_eq_succ_of_ne_zero (Nat.ne_zero_of_lt hfuel)
  have hrow : read.state.Faces (closing :: rest) := hfaces
  have hdone : Params.step source (Manifest.scan source) read = .done read := by
    unfold Params.step
    rw [hrow.token?]
    exact if_pos hclosing
  rw [Nat.succ_eq_add_one, iterate_done hdone]
  exact hrow

theorem reads_paramType (htoken : token.kind ≠ .rightParen)
    (hrow : (Region.params (token.kind == .variable) closing).Reads source row) :
    (Region.params false closing).Reads source (token :: row) := by
  intro read rest fuel hplaced hopen hfaces hfuel
  obtain ⟨fuel, rfl⟩ := Nat.exists_eq_succ_of_ne_zero (Nat.ne_zero_of_lt hfuel)
  have hfirst : read.state.Faces (token :: (row ++ closing :: rest)) := hfaces
  have hnone : read.open? = none := by simpa using hopen
  have hstep : Params.step source (Manifest.scan source) read =
      .again (Params.stepType source token read) := by
    unfold Params.step
    rw [hfirst.token?]
    dsimp only
    rw [if_neg htoken, hnone]
  have hafter := Params.stepType_goes source token hnone
  rw [Nat.succ_eq_add_one, iterate_again hstep]
  refine hrow _ rest fuel ?_ hafter.2 ?_ (Nat.lt_of_succ_lt_succ hfuel)
  · rw [hafter.1]
    exact ParseState.placed_next hplaced
  · rw [hafter.1]
    exact hfirst.next

theorem step_opened (source : List Char) (scan : Scan) (hopen : read.open?.isSome = true)
    (hfaces : read.state.Faces (token :: rest)) (htoken : token.kind ≠ .rightParen) :
    Params.step source scan read = Params.stepRest source scan token read := by
  obtain ⟨opened, hsome⟩ := Option.isSome_iff_exists.1 hopen
  unfold Params.step
  rw [hfaces.token?]
  dsimp only
  rw [if_neg htoken, hsome]

theorem reads_paramComma (hcomma : comma.kind = .comma)
    (hrow : (Region.params false closing).Reads source row) :
    (Region.params true closing).Reads source (comma :: row) := by
  intro read rest fuel hplaced hopen hfaces hfuel
  obtain ⟨fuel, rfl⟩ := Nat.exists_eq_succ_of_ne_zero (Nat.ne_zero_of_lt hfuel)
  have hfirst : read.state.Faces (comma :: (row ++ closing :: rest)) := hfaces
  have hstep := step_opened source (Manifest.scan source) hopen hfirst (by rw [hcomma]; decide)
  unfold Params.stepRest at hstep
  rw [if_neg (by rw [hcomma]; decide), if_pos hcomma] at hstep
  rw [Nat.succ_eq_add_one, iterate_again hstep]
  exact hrow _ rest fuel (ParseState.placed_next hplaced) rfl hfirst.next
    (Nat.lt_of_succ_lt_succ hfuel)

theorem reads_paramToken (htoken : token.kind ∉ [TokenKind.rightParen, .equals, .comma])
    (hrow : (Region.params true closing).Reads source row) :
    (Region.params true closing).Reads source (token :: row) := by
  intro read rest fuel hplaced hopen hfaces hfuel
  obtain ⟨fuel, rfl⟩ := Nat.exists_eq_succ_of_ne_zero (Nat.ne_zero_of_lt hfuel)
  have hfirst : read.state.Faces (token :: (row ++ closing :: rest)) := hfaces
  have hother : token.kind ≠ .rightParen ∧ token.kind ≠ .equals ∧ token.kind ≠ .comma := by
    simpa using htoken
  have hstep := step_opened source (Manifest.scan source) hopen hfirst hother.1
  unfold Params.stepRest at hstep
  rw [if_neg hother.2.1, if_neg hother.2.2] at hstep
  rw [Nat.succ_eq_add_one, iterate_again hstep]
  exact hrow _ rest fuel (ParseState.placed_next hplaced) hopen hfirst.next
    (Nat.lt_of_succ_lt_succ hfuel)

theorem reads_paramDefault (hequals : equals.kind = .equals)
    (hvalue : (stretch paramDefaultStops comma).Reads source value) (hcomma : comma.kind = .comma)
    (hrow : (Region.params false closing).Reads source row) :
    (Region.params true closing).Reads source (equals :: (value ++ comma :: row)) := by
  intro read rest fuel hplaced hopen hfaces hfuel
  obtain ⟨fuel, rfl⟩ := Nat.exists_eq_succ_of_ne_zero (Nat.ne_zero_of_lt hfuel)
  have hfirst : read.state.Faces (equals :: (value ++ comma :: (row ++ closing :: rest))) := by
    simpa using hfaces
  obtain ⟨hlast, hplacedLast⟩ :=
    hvalue.here (by decide) (ParseState.placed_next hplaced) hfirst.next
  have hstep := step_opened source (Manifest.scan source) hopen hfirst (by rw [hequals]; decide)
  have hat : ((Manifest.scan source).here source paramDefaultStops read.state.next).2.isAt .comma =
      true := by
    rw [hlast.isAt, hcomma]
    rfl
  unfold Params.stepRest at hstep
  rw [if_pos hequals] at hstep
  dsimp only at hstep
  rw [if_pos hat] at hstep
  rw [Nat.succ_eq_add_one, iterate_again hstep]
  refine hrow _ rest fuel (ParseState.placed_next hplacedLast) rfl hlast.next ?_
  rw [List.length_cons, List.length_append, List.length_cons] at hfuel
  omega

theorem reads_lastDefault (hequals : equals.kind = .equals)
    (hvalue : (stretch paramDefaultStops closing).Reads source value)
    (hclosing : closing.kind = .rightParen) :
    (Region.params true closing).Reads source (equals :: value) := by
  intro read rest fuel hplaced hopen hfaces hfuel
  obtain ⟨fuel, rfl⟩ := Nat.exists_eq_succ_of_ne_zero (Nat.ne_zero_of_lt hfuel)
  have hfirst : read.state.Faces (equals :: (value ++ closing :: rest)) := hfaces
  obtain ⟨hlast, -⟩ := hvalue.here (by decide) (ParseState.placed_next hplaced) hfirst.next
  have hstep := step_opened source (Manifest.scan source) hopen hfirst (by rw [hequals]; decide)
  have hat := hlast.isAt
  rw [hclosing] at hat
  unfold Params.stepRest at hstep
  rw [if_pos hequals] at hstep
  dsimp only at hstep
  rw [hat .comma, if_neg (by decide), hat .rightParen, beq_self_eq_true, Bool.or_true,
    if_pos rfl] at hstep
  rw [Nat.succ_eq_add_one, iterate_done hstep]
  exact hlast

/-! ## Parts of a class -/

theorem reads_noParamList (hnext : next.kind ≠ .leftParen) :
    (Region.paramList next).Reads source [] := by
  intro state rest _ hfaces
  have hrow : state.Faces (next :: rest) := hfaces
  have hparen : state.isAt .leftParen = false :=
    (hrow.isAt _).trans (beq_eq_false_iff_ne.2 hnext)
  unfold ParseState.paramList
  rw [hparen]
  exact hrow

theorem reads_paramList (hopening : opening.kind = .leftParen)
    (hrow : (Region.params false closing).Reads source row) :
    (Region.paramList next).Reads source (opening :: (row ++ [closing])) := by
  intro state rest hplaced hfaces
  have hlist : state.Faces (opening :: (row ++ closing :: next :: rest)) := by
    simpa using hfaces
  have hparen : state.isAt .leftParen = true := by
    rw [hlist.isAt, hopening]
    rfl
  have hlength := hlist.next.toSees.length_le
  rw [List.length_append] at hlength
  have hread := hrow ⟨[], none, none, none, 0, state.next⟩ (next :: rest)
    (state.next.remaining + 1) (ParseState.placed_next hplaced) rfl hlist.next (by omega)
  unfold ParseState.paramList
  rw [if_pos hparen]
  exact hread.next

/-- What a class inherits from is passed over. -/
theorem Inherits.faces (source : List Char) (h : Inherits next parent)
    (hfaces : state.Faces (parent ++ next :: rest)) :
    (state.inheritance source).2.Faces (next :: rest) := by
  unfold ParseState.inheritance
  cases h with
  | nothing hnext =>
      have hrow : state.Faces (next :: rest) := hfaces
      have hword : state.isAt .kwInherits = false :=
        (hrow.isAt _).trans (beq_eq_false_iff_ne.2 hnext)
      rw [hword]
      exact hrow
  | unnamed hword hnext =>
      rename_i word
      have hrow : state.Faces (word :: next :: rest) := hfaces
      have hat : state.isAt .kwInherits = true := by
        rw [hrow.isAt, hword]
        rfl
      rw [if_pos hat]
      dsimp only
      rw [hrow.next.token?]
      dsimp only
      rw [if_neg hnext]
      exact hrow.next
  | named hword hname =>
      rename_i word name
      have hrow : state.Faces (word :: name :: next :: rest) := hfaces
      have hat : state.isAt .kwInherits = true := by
        rw [hrow.isAt, hword]
        rfl
      rw [if_pos hat]
      dsimp only
      rw [hrow.next.token?]
      dsimp only
      rw [if_pos hname]
      exact hrow.next.next

/-- A class without a body leaves the token that is found in its place. -/
theorem reads_noBlock (hnext : next.kind ≠ .leftBrace) : (Region.block next).Reads source [] := by
  intro state rest _ hsettled hfaces
  have hrow : state.Faces (next :: rest) := hfaces
  have hbrace : state.isAt .leftBrace = false :=
    (hrow.isAt _).trans (beq_eq_false_iff_ne.2 hnext)
  have hcursor : (state.reportHere source .expectedBody).cursor = state.cursor :=
    ParseState.cursor_reportHere _ _ _
  unfold ParseState.declarationBody
  rw [hbrace]
  dsimp only
  rw [if_neg Bool.false_ne_true, hrow.token?, Option.isSome_some, if_pos rfl]
  refine hrow.congr ((ParseState.cursor_next_previous ?_).trans hcursor)
  rw [hcursor]
  exact hsettled

theorem reads_block (hopening : opening.kind = .leftBrace)
    (hrow : (stretch bodyStops closing).Reads source row) :
    (Region.block next).Reads source (opening :: (row ++ [closing])) := by
  intro state rest hplaced _ hfaces
  have hinside : state.Faces (opening :: (row ++ closing :: next :: rest)) := by
    simpa using hfaces
  have hbrace : state.isAt .leftBrace = true := by
    rw [hinside.isAt, hopening]
    rfl
  unfold ParseState.declarationBody
  rw [if_pos hbrace]
  exact (hrow.inside (by decide) hplaced hinside).1.next

/-! ## Classes -/

theorem reads_classRest
    (hparams : (Region.paramList ((parent ++ body).headD next)).Reads source params)
    (hparent : Inherits (body.headD next) parent) (hbody : (Region.block next).Reads source body) :
    (Region.classRest next).Reads source (params ++ (parent ++ body)) := by
  intro state offset nameOffset name rest hplaced hfaces
  have hnext := ParseState.placed_next hplaced
  obtain ⟨hreadsParams, hsettled⟩ :=
    ParseState.reads_paramList (Scan.lays_scan source state.next.remaining) hnext
      (ParseState.settled_next hplaced) (Nat.le_refl _)
  obtain ⟨hreadsParent, hsettledParent⟩ :=
    ParseState.reads_inheritance hreadsParams.placed_after hsettled
  have hrow : state.next.Faces (params ++ ((parent ++ body) ++ next :: rest)) := by
    simpa using hfaces
  obtain ⟨behindParams, hbehindParams⟩ := exists_headD_cons (parent ++ body) next rest
  rw [hbehindParams] at hrow
  have hafterParams := hparams state.next behindParams hnext hrow
  obtain ⟨behindParent, hbehindParent⟩ := exists_headD_cons body next rest
  rw [← hbehindParams, List.append_assoc, hbehindParent] at hafterParams
  have hafterParent := hparent.faces source hafterParams
  rw [← hbehindParent] at hafterParent
  unfold ParseState.classAfterName
  exact hbody _ rest hreadsParent.placed_after hsettledParent hafterParent

theorem reads_classDecl (hword : word.kind = .kwClass) (hname : name.kind = .identifier)
    (hnesting : nesting.keepsNames = false) (hrow : (Region.classRest next).Reads source row) :
    (construct stops nesting next).Reads source (word :: name :: row) := by
  intro scanning rest hstops hplaced hsame hfaces
  have hnamed : scanning.state.Faces (word :: name :: (row ++ next :: rest)) := hfaces
  refine exists_step_word hstops (.inl (by rw [hword]; decide)) hnamed hsame ?_
  have happlied : scanning.applied? source (Manifest.scan source) word = none :=
    Scanning.applied?_eq_none hnamed (by rw [hname]; decide) (fun _ => by rw [hname]; decide) _
  rw [Scanning.significantAt_name (.inr hword) happlied]
  unfold Scanning.nameAt
  dsimp only
  rw [hsame, hnesting, if_neg Bool.false_ne_true, hnamed.next.token?]
  dsimp only
  rw [if_neg (by rw [hname]; exact fun h => nomatch h.1), if_pos ⟨hword, hname⟩]
  exact (hrow _ _ _ _ _ (ParseState.placed_next hplaced) hnamed.next.next).toSees

end Region

end Manifest
