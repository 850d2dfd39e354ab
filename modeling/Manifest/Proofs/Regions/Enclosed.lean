import Manifest.Proofs.Crossing.Scans

/-!
# What braces enclose

Every row that a region contains is read to its end, and no further.  So a case statement ends on
the brace that closes it if all of its arms have their colons, and a resource if no brace stands
in it outside of its title and its values.  Otherwise neither does: the match of the last arm runs
on over the brace, and the resource ends on a brace inside of it.
-/

namespace Manifest

namespace Region

variable {source : List Char} {region : Region} {row : List Token}

theorem Contains.ne_nil {stops : List TokenKind} {nesting : Nesting} {next : Token}
    (h : (construct stops nesting next).Contains source row) : row ≠ [] := by
  cases h <;> exact List.cons_ne_nil _ _

/-- A row is read just as far as the region that contains it. -/
theorem Contains.reads (h : region.Contains source row) : region.Reads source row := by
  induction h with
  | stretch _ hlast hstop ih => exact reads_stretch ih hlast hstop
  | nothing => exact reads_nothing
  | bracket htrack hgoes _ ih => exact reads_bracket htrack hgoes ih
  | onward hown _ ihOwn ih => exact reads_onward hown.ne_nil ihOwn ih
  | alone htoken => exact reads_alone htoken
  | definition hname hequals => exact reads_definition hname hequals
  | call hname hopening _ ih => exact reads_call hname hopening ih
  | function hname hother _ ih => exact reads_function hname hother ih
  | method hdot hadjacent hname _ ih => exact reads_method hdot hadjacent hname ih
  | index hname hcapital hopening _ ih => exact reads_index hname hcapital hopening ih
  | resource hname hopening hopens _ ih => exact reads_resource hname hopening hopens ih
  | classDecl hword hname hnesting _ ih => exact reads_classDecl hword hname hnesting ih
  | condition hword _ _ ihBranch ih => exact reads_condition hword ihBranch ih
  | caseStatement hword _ _ hclosing ihControl ih =>
      exact reads_caseStatement hword ihControl ih hclosing
  | requirement hword _ hbare ih => exact reads_requirement hword ih hbare
  | requirementList hword hopening _ _ ihNames ih =>
      exact reads_requirementList hword hopening ihNames ih
  | noArguments hnext => exact reads_noArguments hnext
  | arguments hopening _ ih => exact reads_arguments hopening ih
  | plainName htoken => exact reads_plainName htoken
  | indexedName htype htext hopening _ ih => exact reads_indexedName htype htext hopening ih
  | noName hnext => exact reads_noName hnext
  | lastName _ hnext ih => exact reads_lastName ih hnext
  | moreNames _ hcomma _ ihOwn ih => exact reads_moreNames ihOwn hcomma ih
  | bareType htype htext hnext => exact reads_bareType htype htext hnext
  | untitled htype _ ih => exact reads_untitled htype ih
  | titled htype _ hcolon _ ihTitle ih => exact reads_titled htype ihTitle hcolon ih
  | noColon htype _ hcolon _ ihTitle ih => exact reads_noColon htype ihTitle hcolon ih
  | noTitle htype htitle _ ih => exact reads_noTitle htype htitle ih
  | titleWord htoken hword => exact reads_titleWord htoken hword
  | titleList hopening _ ih => exact reads_titleList hopening ih
  | noAttributes hclosing => exact reads_noAttributes hclosing
  | attributeToken hbrace harrow _ ih => exact reads_attributeToken hbrace harrow ih
  | attributeValue harrow _ _ ihValue ih => exact reads_attributeValue harrow ihValue ih
  | classRest _ hparent _ ihParams ih => exact reads_classRest ihParams hparent ih
  | noParamList hnext => exact reads_noParamList hnext
  | paramList hopening _ ih => exact reads_paramList hopening ih
  | noParams hclosing => exact reads_noParams hclosing
  | paramType htoken _ ih => exact reads_paramType htoken ih
  | paramComma hcomma _ ih => exact reads_paramComma hcomma ih
  | paramToken htoken _ ih => exact reads_paramToken htoken ih
  | paramDefault hequals _ hcomma _ ihValue ih =>
      exact reads_paramDefault hequals ihValue hcomma ih
  | lastDefault hequals _ hclosing ih => exact reads_lastDefault hequals ih hclosing
  | noBlock hnext => exact reads_noBlock hnext
  | block hopening _ ih => exact reads_block hopening ih
  | branch _ _ ihTest ih => exact reads_branch ihTest ih
  | noAlternative helse helsif => exact reads_noAlternative helse helsif
  | bareElse hword hnext => exact reads_bareElse hword hnext
  | otherwise hword hopening _ ih => exact reads_otherwise hword hopening ih
  | elsif hword _ _ ihBranch ih => exact reads_elsif hword ihBranch ih
  | noArms => exact reads_noArms
  | arm hbegins _ hopening _ _ ihTest ihBody ih =>
      exact reads_arm hbegins ihTest hopening ihBody ih
  | bodilessArm hbegins _ hbehind _ ihTest ih => exact reads_bodilessArm hbegins ihTest hbehind ih

end Region

/-- Properly nested tokens between two braces: the second one closes the first one. -/
structure Enclosed (opening : Token) (row : List Token) (closing : Token) : Prop where
  opening : opening.kind = .leftBrace
  nested : Bracket.afterAll [] row = some []
  closing : closing.kind = .rightBrace

/-- On the way to the brace that closes the first one, a closing brace is that brace just if no
bracket is open before it. -/
theorem Enclosed.nested_iff {opening stop closing : Token} {row front back : List Token}
    (h : Enclosed opening row closing) (hsplit : row ++ [closing] = front ++ stop :: back)
    (hstop : stop.kind = .rightBrace) : Bracket.afterAll [] front = some [] ↔ back = [] := by
  rcases List.eq_nil_or_concat back with rfl | ⟨inner, last, rfl⟩
  · obtain ⟨rfl, -⟩ := List.append_inj' hsplit rfl
    exact iff_of_true h.nested rfl
  · refine iff_of_false (fun hnested => ?_) (by simp)
    have hrow : row ++ [closing] = (front ++ stop :: inner) ++ [last] := by
      simpa using hsplit
    obtain ⟨rfl, -⟩ := List.append_inj' hrow rfl
    have hnone : Bracket.after [] stop.kind = none := by
      rw [hstop]
      rfl
    have hclosed := h.nested
    rw [Bracket.afterAll_append, hnested, Option.bind_some, Bracket.afterAll, hnone] at hclosed
    cases hclosed

namespace ParseState

open Scan (onFirst)

variable {source : List Char} {state later : ParseState} {token closing : Token}
  {rest : List Token}

/-- What the parse faces is not seen from a later place. -/
theorem Faces.not_sees (h : state.Faces (token :: rest))
    (htokens : later.cursor.tokens = state.cursor.tokens)
    (hless : later.remaining < state.remaining) : ¬ later.Sees (token :: rest) := by
  intro hsees
  have hmove := h.moveNext
  have hlength : state.moveNext.remaining + 1 = state.remaining := by
    have hahead : state.moveNext.cursor.ahead = state.cursor.ahead.tail :=
      Cursor.ahead_moveNext h.begun
    have hlength : state.moveNext.cursor.ahead.length = state.cursor.ahead.length - 1 := by
      rw [hahead, List.length_tail]
    have hpos : 0 < state.cursor.ahead.length := Nat.zero_lt_of_lt hless
    unfold remaining Cursor.remaining
    omega
  have hsuffix : later.cursor.ahead <:+ state.moveNext.cursor.ahead := by
    have hall : later.cursor.ahead <:+ state.cursor.tokens := by
      rw [← htokens, Cursor.tokens_eq]
      exact List.suffix_append _ _
    have hmoved : state.moveNext.cursor.ahead <:+ state.cursor.tokens := by
      rw [← state.leadsTo_moveNext.tokens_eq, Cursor.tokens_eq]
      exact List.suffix_append _ _
    refine List.suffix_of_suffix_length_le hall hmoved ?_
    have hle : later.remaining ≤ state.moveNext.remaining := by omega
    exact hle
  have hle := (hsuffix.filter fun token => !token.isTrivia).length_le
  have hlater : (Token.significant later.cursor.ahead).length = (token :: rest).length :=
    congrArg List.length hsees.ahead
  have hmoved : (Token.significant state.moveNext.cursor.ahead).length = rest.length :=
    congrArg List.length hmove.ahead
  unfold Token.significant at hlater hmoved
  rw [List.length_cons] at hlater
  omega

/-! ## Resources -/

/-- A resource ends on a closing brace just if a region is before that brace. -/
theorem resource_faces_iff {opening : Token} {row : List Token}
    (hplaced : state.cursor.Placed source)
    (hfaces : state.Faces (opening :: (row ++ closing :: rest))) (type : List Char)
    (offset : Nat) :
    (state.resource source (Manifest.scan source) type offset).2.Faces (closing :: rest) ↔
      (Region.resource type closing).Contains source row := by
  constructor
  · intro hend
    have hready : state.Ready source (state.remaining + 1) :=
      ⟨hplaced, Nat.le_succ _, hfaces.loud⟩
    obtain ⟨read, hsees, hread⟩ := (crossed_resource (Scan.crosses_scan source _) hready
      (Nat.lt_succ_self _) type offset).ahead closing rest hend.toSees
    rwa [List.append_cancel_right (hsees.unique hfaces.next.toSees)] at hread
  · exact fun hrow => hrow.reads state offset rest hplaced hfaces.next

/-- From its opening brace on, a resource of any type ends on the brace that closes it just if a
region is between the two.  Otherwise it ends on the first closing brace outside of its title and
its values, where some bracket is still open, or it runs on. -/
theorem resource_enclosed (multiline reportGap valid : Bool) (source : List Char)
    (type : List Char) (opening closing : Token) (row rest : List Token) (state : ParseState)
    (htokens : state.cursor.tokens = (TokenStream.lex multiline source).tokens)
    (hfaces : state.Faces (opening :: (row ++ closing :: rest)))
    (henclosed : Enclosed opening row closing) :
    ∃ nodes after,
      state.resource source (Manifest.scan source) type (state.offset source) = (nodes, after) ∧
      Construct.read source reportGap valid (.resource type) state =
        .ok (.into .nothing nodes after) ∧
      (after.Faces (closing :: rest) ↔ (Region.resource type closing).Contains source row) ∧
      ∀ front stop back, row ++ [closing] = front ++ stop :: back → stop.kind = .rightBrace →
        (Region.resource type stop).Contains source front →
        after.Faces (stop :: (back ++ rest)) ∧
          (after.Faces (closing :: rest) ↔ Bracket.afterAll [] front = some []) := by
  have hplaced : state.cursor.Placed source := Cursor.placed_of_lex hfaces.begun htokens
  refine ⟨_, _, rfl, rfl, resource_faces_iff hplaced hfaces type _,
    fun front stop back hsplit hstop hfront => ?_⟩
  have hrow : row ++ closing :: rest = front ++ stop :: (back ++ rest) := by
    have hmore := congrArg (· ++ rest) hsplit
    simpa using hmore
  have hfirst := hfaces
  rw [hrow] at hfirst
  have hafter := (resource_faces_iff hplaced hfirst type (state.offset source)).2 hfront
  refine ⟨hafter, ?_⟩
  rw [henclosed.nested_iff hsplit hstop]
  constructor
  · intro hclosing
    have hlength := congrArg List.length (hafter.unique hclosing.toSees)
    rw [List.length_cons, List.length_cons, List.length_append] at hlength
    exact List.length_eq_zero_iff.1 (by omega)
  · rintro rfl
    obtain ⟨-, hlast⟩ := List.append_inj' hsplit rfl
    rw [List.cons.inj hlast |>.1]
    exact hafter

theorem faces_onFirst {text : List Char} {tokens : List Token}
    (hahead : Token.significant (onFirst text).cursor.ahead = tokens)
    (hhead : (onFirst text).token? = tokens.head?) : (onFirst text).Faces tokens :=
  ⟨⟨Cursor.begun_enter [] (TokenStream.lex false text).tokens, hahead⟩, hhead⟩

/-- The body of a resource with a list of titles, braces in a value, and parentheses behind a
name that has no value. -/
def listedTitles : List Char :=
  "\x7b ['a', 'b']: c => \x7b d => 1 \x7d, e ('f') \x7d $g".toList

def listedRow : List Token :=
  [.spelled .leftBracket 2, .loose .string 3 3, .spelled .comma 6, .loose .string 8 3,
    .spelled .rightBracket 11, .spelled .colon 12, .loose .identifier 14 1,
    .spelled .paramAssign 16, .spelled .leftBrace 19, .loose .identifier 21 1,
    .spelled .paramAssign 23, .loose .int 26 1, .spelled .rightBrace 28, .spelled .comma 29,
    .loose .identifier 31 1, .spelled .leftParen 33, .loose .string 34 3, .spelled .rightParen 37]

theorem contains_listedRow :
    (Region.resource "file".toList (.spelled .rightBrace 39)).Contains listedTitles listedRow := by
  have htitle : Region.title.Contains listedTitles
      [.spelled .leftBracket 2, .loose .string 3 3, .spelled .comma 6, .loose .string 8 3,
        .spelled .rightBracket 11] := by
    have hlist : (Region.stretch indexStops (.spelled .rightBracket 11)).Contains listedTitles
        [.loose .string 3 3, .spelled .comma 6, .loose .string 8 3] := by
      refine .stretch (.token ?_ (.token ?_ (.token ?_ .nothing))) rfl rfl <;>
        constructor <;> decide
    exact .titleList rfl hlist
  have hvalue : (Region.stretch attributeValueStops (.spelled .comma 29)).Contains listedTitles
      [.spelled .leftBrace 19, .loose .identifier 21 1, .spelled .paramAssign 23,
        .loose .int 26 1, .spelled .rightBrace 28] := by
    refine .stretch (.bracket rfl (.inr rfl) (.token ?_ (.token ?_ (.token ?_
      (.bracket rfl (.inl rfl) .nothing))))) rfl rfl <;> constructor <;> decide
  have hrest : (Region.attributes (.spelled .rightBrace 39)).Contains listedTitles
      [.spelled .comma 29, .loose .identifier 31 1, .spelled .leftParen 33, .loose .string 34 3,
        .spelled .rightParen 37] :=
    .attributeToken (by decide) (by decide) (.attributeToken (by decide) (by decide)
      (.attributeToken (by decide) (by decide) (.attributeToken (by decide) (by decide)
        (.attributeToken (by decide) (by decide) (.noAttributes rfl)))))
  exact .titled (by decide) htitle rfl
    (.attributeToken (by decide) (by decide) (.attributeValue rfl hvalue hrest))

/-- The resource ends on its own brace, behind the braces of its value. -/
theorem resource_enclosed_listedTitles :
    (onFirst listedTitles).cursor.tokens = (TokenStream.lex false listedTitles).tokens ∧
      (onFirst listedTitles).Faces (.spelled .leftBrace 0 ::
        (listedRow ++ .spelled .rightBrace 39 :: [.loose .variable 41 2])) ∧
      Enclosed (.spelled .leftBrace 0) listedRow (.spelled .rightBrace 39) ∧
      ∃ nodes after,
        (onFirst listedTitles).resource listedTitles (Manifest.scan listedTitles) "file".toList
            ((onFirst listedTitles).offset listedTitles) = (nodes, after) ∧
        Construct.read listedTitles true true (.resource "file".toList) (onFirst listedTitles) =
          .ok (.into .nothing nodes after) ∧
        after.Faces [.spelled .rightBrace 39, .loose .variable 41 2] := by
  have htokens : (onFirst listedTitles).cursor.tokens =
      (TokenStream.lex false listedTitles).tokens := (leadsTo_moveNext _).tokens_eq
  have hfaces : (onFirst listedTitles).Faces (.spelled .leftBrace 0 ::
      (listedRow ++ .spelled .rightBrace 39 :: [.loose .variable 41 2])) :=
    faces_onFirst (by decide +kernel) (by decide +kernel)
  have henclosed : Enclosed (.spelled .leftBrace 0) listedRow (.spelled .rightBrace 39) :=
    ⟨rfl, by decide, rfl⟩
  obtain ⟨nodes, after, hnodes, hread, hends, -⟩ :=
    resource_enclosed false true true listedTitles "file".toList (.spelled .leftBrace 0)
      (.spelled .rightBrace 39) listedRow [.loose .variable 41 2] (onFirst listedTitles) htokens
      hfaces henclosed
  exact ⟨htokens, hfaces, henclosed, nodes, after, hnodes, hread, hends.2 contains_listedRow⟩

def bracedAttribute : List Char :=
  "\x7b 'a': \x7b \x7d \x7d".toList

/-- The resource with braces in the place of an attribute ends before its own brace. -/
theorem resource_ends_inside :
    (onFirst bracedAttribute).cursor.tokens = (TokenStream.lex false bracedAttribute).tokens ∧
      (onFirst bracedAttribute).Faces [.spelled .leftBrace 0, .loose .string 2 3,
        .spelled .colon 5, .spelled .leftBrace 7, .spelled .rightBrace 9,
        .spelled .rightBrace 11] ∧
      Enclosed (.spelled .leftBrace 0) [.loose .string 2 3, .spelled .colon 5,
        .spelled .leftBrace 7, .spelled .rightBrace 9] (.spelled .rightBrace 11) ∧
      ((onFirst bracedAttribute).resource bracedAttribute (Manifest.scan bracedAttribute)
        "file".toList 0).2.token? = some (.spelled .rightBrace 9) ∧
      ¬ ((onFirst bracedAttribute).resource bracedAttribute (Manifest.scan bracedAttribute)
        "file".toList 0).2.Faces [.spelled .rightBrace 11] := by
  have hinside : ((onFirst bracedAttribute).resource bracedAttribute
      (Manifest.scan bracedAttribute) "file".toList 0).2.token? =
        some (.spelled .rightBrace 9) := by
    decide +kernel
  refine ⟨(leadsTo_moveNext _).tokens_eq, faces_onFirst (by decide +kernel) (by decide +kernel),
    ⟨rfl, by decide, rfl⟩, hinside, fun hfaces => ?_⟩
  have hsame := hinside.symm.trans hfaces.token?
  revert hsame
  decide

end ParseState

/-! ## Case statements -/

namespace CaseArms

variable {source : List Char} {read : CaseArms} {state : ParseState} {last : Nesting}
  {closing : Token} {unfinished rest : List Token}

theorem leads_arm (hplaced : read.state.cursor.Placed source)
    (hgoes : (read.state.token?.isNone || read.state.isAt .rightBrace) = false) :
    ((Manifest.scan source).here source caseArmStops read.state).2.cursor.LeadsTo
      (step source (Manifest.scan source) read).state.state.cursor := by
  have hcolon := Scan.placed_scan caseArmStops hplaced (Nat.le_refl _)
  unfold step
  rw [hgoes, if_neg Bool.false_ne_true]
  dsimp only
  split
  · exact .refl _
  · split
    · have hbrace := ParseState.placed_next (ParseState.placed_next hcolon)
      have hbody := ((Scan.lays_scan source _).here hbrace (Nat.lt_succ_self _) bodyStops).leads
      exact ((ParseState.leadsTo_next _).trans (ParseState.leadsTo_next _)).trans
        (hbody.trans (ParseState.leadsTo_next _))
    · exact ParseState.leadsTo_next _

/-- However many steps are taken, they lead on. -/
theorem leads_iterate (fuel : Nat) (hplaced : read.state.cursor.Placed source) :
    read.state.cursor.LeadsTo
      (iterate (step source (Manifest.scan source)) fuel read).state.cursor := by
  refine iterate_invariant
    (fun later : CaseArms => read.state.cursor.LeadsTo later.state.cursor)
    (fun later hleads => ?_) fuel read (.refl _)
  have hlater := hleads.placed hplaced
  cases hgoes : (later.state.token?.isNone || later.state.isAt .rightBrace) with
  | true =>
      unfold step
      rw [hgoes, if_pos rfl]
      exact hleads
  | false =>
      have harm := ((Scan.lays_scan source _).here hlater (Nat.lt_succ_self _) caseArmStops).leads
      exact hleads.trans (harm.trans (leads_arm hlater hgoes))

/-- The match of an arm runs on over a closing brace. -/
theorem runs_on (hplaced : state.cursor.Placed source)
    (hfaces : state.Faces (unfinished ++ closing :: rest))
    (hunfinished : (Region.part caseArmStops .flat last closing).Reads source unfinished)
    (hclosing : closing.kind = .rightBrace) :
    ¬ ∃ later : ParseState,
      ((Manifest.scan source).here source caseArmStops state).2.cursor.LeadsTo later.cursor ∧
        later.Sees (closing :: rest) := by
  rintro ⟨later, hleads, hsees⟩
  obtain ⟨met, atBrace, hreaches, -, hbrace⟩ := hunfinished (.begin state) state
    (state.offset source) rest (by decide) (Scanning.laying_begin hplaced) rfl hfaces.toSees
  have hlaying := (hreaches.laying (Scanning.laying_begin hplaced)).1
  obtain ⟨more, ending, honward, hdone⟩ := Scanning.exists_reaches caseArmStops hlaying
  have hscan := (hreaches.trans honward).scan_eq hdone hplaced (Nat.le_refl _)
  have hless : ending.state.remaining < atBrace.state.remaining := by
    cases honward with
    | here =>
        have hstop := (Scanning.ends_iff.1 hdone _ hbrace.token?).1
        rw [hclosing] at hstop
        cases hstop
    | onward htoken hstep hrest =>
        obtain ⟨hnext, hnextLess⟩ := Scanning.laying_step (Scan.lays_scan source state.remaining)
          (Nat.le_refl _) hlaying hstep
        have hle := (hrest.laying hnext).2
        omega
  have hending : ((Manifest.scan source).here source caseArmStops state).2 = ending.state :=
    congrArg Prod.snd hscan
  rw [hending] at hleads
  refine hbrace.not_sees ?_ (Nat.lt_of_le_of_lt hleads.remaining_le hless) hsees
  have hpassed := ((hreaches.trans honward).laying (Scanning.laying_begin hplaced)).1
  rw [hleads.tokens_eq, hpassed.leads.tokens_eq, hlaying.leads.tokens_eq]

/-- Arms end on a closing brace just if a region of arms is before it. -/
theorem readAll_faces_iff {arms : List Token} (hplaced : state.cursor.Placed source)
    (hfaces : state.Faces (arms ++ closing :: rest)) (hclosing : closing.kind = .rightBrace)
    (control : Node) :
    (readAll source (Manifest.scan source) control state).state.Faces (closing :: rest) ↔
      (Region.arms closing).Contains source arms := by
  constructor
  · intro hend
    have hready : state.Ready source (state.remaining + 1) :=
      ⟨hplaced, Nat.le_succ _, hfaces.loud⟩
    obtain ⟨read, hsees, hread⟩ := (crossed_readAll (Scan.crosses_scan source _) hready
      (Nat.lt_succ_self _) control).1.ahead closing rest hend.toSees
    rwa [List.append_cancel_right (hsees.unique hfaces.toSees)] at hread
  · exact fun harms => Region.faces_readAll hplaced hfaces harms.reads hclosing control

/-- Arms end on the brace behind them just if the last of them is finished. -/
theorem readAll_faces_iff_nil {finished : List Token} (hplaced : state.cursor.Placed source)
    (hfaces : state.Faces (finished ++ (unfinished ++ closing :: rest)))
    (hfinished : (Region.arms (unfinished.headD closing)).Reads source finished)
    (hunfinished : (Region.part caseArmStops .flat last closing).Reads source unfinished)
    (hclosing : closing.kind = .rightBrace) (control : Node) :
    (readAll source (Manifest.scan source) control state).state.Faces (closing :: rest) ↔
      unfinished = [] := by
  constructor
  · intro hend
    obtain ⟨behind, hbehind⟩ := Region.exists_headD_cons unfinished closing rest
    have hlength := hfaces.toSees.length_le
    rw [List.length_append, List.length_append] at hlength
    rw [hbehind] at hfaces
    obtain ⟨count, middle, hcount, hgoes, hmiddle, hplacedMiddle⟩ :=
      hfinished ⟨[control], [], state⟩ behind hplaced hfaces
    rw [← hbehind] at hmiddle
    obtain ⟨fuel, hfuel⟩ : ∃ fuel, state.remaining + 1 = fuel + 1 + count :=
      ⟨state.remaining - count, by omega⟩
    unfold readAll at hend
    rw [hfuel, hgoes (fuel + 1)] at hend
    cases hstops : (middle.state.token?.isNone || middle.state.isAt .rightBrace) with
    | true =>
        -- the loop ends on the brace at the head of what is left
        have hdone : step source (Manifest.scan source) middle = .done middle := by
          unfold step
          rw [hstops, if_pos rfl]
        rw [iterate_done hdone] at hend
        have hsame := congrArg List.length (hmiddle.unique hend.toSees)
        rw [List.length_append] at hsame
        exact List.length_eq_zero_iff.1 (by omega)
    | false =>
        refine (runs_on hplacedMiddle hmiddle hunfinished hclosing ⟨_, ?_, hend.toSees⟩).elim
        have harm := leads_arm hplacedMiddle hstops
        have hplacedArm :=
          harm.placed (Scan.placed_scan caseArmStops hplacedMiddle (Nat.le_refl _))
        unfold iterate
        cases hstep : step source (Manifest.scan source) middle with
        | again next =>
            rw [hstep] at harm hplacedArm
            exact harm.trans (leads_iterate fuel hplacedArm)
        | done ending =>
            rw [hstep] at harm
            exact harm
  · rintro rfl
    exact Region.faces_readAll hplaced hfaces hfinished hclosing control

end CaseArms

namespace ParseState

open Scan (onFirst)

/-- From its word on, a case statement with a variable for its control expression ends on the
brace that closes it just if a region of arms is between its braces.  The arms may lack bodies,
and all but the last of them their colons, as long as what they hold is closed.  The match of a
last arm without its colon runs on over the brace. -/
theorem caseStatement_enclosed (multiline reportGap valid : Bool) (source : List Char)
    (word control opening closing : Token) (row rest : List Token) (state : ParseState)
    (htokens : state.cursor.tokens = (TokenStream.lex multiline source).tokens)
    (hfaces : state.Faces (word :: control :: opening :: (row ++ closing :: rest)))
    (hcontrol : control.kind = .variable) (henclosed : Enclosed opening row closing) :
    ∃ node after,
      state.caseStatement source (Manifest.scan source) = (node, after) ∧
      Construct.read source reportGap valid .caseStatement state =
        .ok (.into .nothing [node] after) ∧
      (after.Faces (closing :: rest) ↔ (Region.arms closing).Contains source row) ∧
      ∀ finished unfinished last, row = finished ++ unfinished →
        (Region.arms (unfinished.headD closing)).Contains source finished →
        (Region.part caseArmStops .flat last closing).Contains source unfinished →
        (after.Faces (closing :: rest) ↔ unfinished = []) := by
  have hplaced : state.cursor.Placed source := Cursor.placed_of_lex hfaces.begun htokens
  have hvariable : (Region.stretch conditionStops opening).Contains source [control] := by
    have halone : Region.Alone source conditionStops .flat control opening :=
      .of_kind (by rw [hcontrol]; decide) (fun _ => by rw [henclosed.opening]; decide)
        (by rw [hcontrol]; decide) (by rw [hcontrol]; rfl) (by rw [hcontrol]; rfl)
        (.inr (by rw [hcontrol]; rfl))
    exact .whole (.alone halone) (by rw [henclosed.opening]; rfl)
  obtain ⟨hbrace, hplacedBrace⟩ :=
    hvariable.reads.here (by decide) (placed_next hplaced) hfaces.next
  have harms := placed_next hplacedBrace
  refine ⟨_, _, rfl, rfl, CaseArms.readAll_faces_iff harms hbrace.next henclosed.closing _,
    fun finished unfinished last hrow hfinished hunfinished => ?_⟩
  have hsplit := hbrace.next
  rw [hrow, List.append_assoc] at hsplit
  exact CaseArms.readAll_faces_iff_nil harms hsplit hfinished.reads hunfinished.reads
    henclosed.closing _

def looseCase : List Char :=
  ("case $x \x7b 'a': \x7b file \x7b 'b': c => \x7b \x7d \x7d \x7d 'd': " ++
    "default \x7b \x7d 'e': \x7b include f \x7d \x7d $g").toList

def looseArms : List Token :=
  [.loose .string 10 3, .spelled .colon 13, .spelled .leftBrace 15, .loose .identifier 17 4,
    .spelled .leftBrace 22, .loose .string 24 3, .spelled .colon 27, .loose .identifier 29 1,
    .spelled .paramAssign 31, .spelled .leftBrace 34, .spelled .rightBrace 36,
    .spelled .rightBrace 38, .spelled .rightBrace 40, .loose .string 42 3, .spelled .colon 45,
    .spelled .kwDefault 47, .spelled .leftBrace 55, .spelled .rightBrace 57, .loose .string 59 3,
    .spelled .colon 62, .spelled .leftBrace 64, .spelled .fnInclude 66, .loose .identifier 74 1,
    .spelled .rightBrace 76]

theorem contains_looseArms :
    (Region.arms (.spelled .rightBrace 78)).Contains looseCase looseArms := by
  have hvalue : (Region.stretch attributeValueStops (.spelled .rightBrace 38)).Contains looseCase
      [.spelled .leftBrace 34, .spelled .rightBrace 36] :=
    .stretch (.bracket rfl (.inr rfl) (.bracket rfl (.inl rfl) .nothing)) rfl rfl
  have hassigned : (Region.attributes (.spelled .rightBrace 38)).Contains looseCase
      (.spelled .paramAssign 31 :: ([.spelled .leftBrace 34, .spelled .rightBrace 36] ++ [])) :=
    .attributeValue rfl hvalue (.noAttributes rfl)
  have htitle : Region.title.Contains looseCase [.loose .string 24 3] :=
    .titleWord (by decide) (by decide)
  have hfile : (Region.stretch bodyStops (.spelled .rightBrace 40)).Contains looseCase
      [.loose .identifier 17 4, .spelled .leftBrace 22, .loose .string 24 3, .spelled .colon 27,
        .loose .identifier 29 1, .spelled .paramAssign 31, .spelled .leftBrace 34,
        .spelled .rightBrace 36, .spelled .rightBrace 38] :=
    .whole (.resource (.inl rfl) rfl rfl
      (.titled (by decide) htitle rfl (.attributeToken (by decide) (by decide) hassigned))) rfl
  have hinclude : (Region.stretch bodyStops (.spelled .rightBrace 76)).Contains looseCase
      [.spelled .fnInclude 66, .loose .identifier 74 1] :=
    .whole (.requirement (by decide)
      (.lastName (.plainName (.inr ⟨rfl, by decide⟩)) (by decide)) (by decide)) rfl
  have hdefault : (Region.stretch caseArmStops (.spelled .colon 62)).Contains looseCase
      [.spelled .kwDefault 47, .spelled .leftBrace 55, .spelled .rightBrace 57,
        .loose .string 59 3] := by
    refine .stretch (.token ?_ (.bracket rfl (.inr rfl) (.bracket rfl (.inl rfl)
      (.token ?_ .nothing)))) rfl rfl <;> constructor <;> decide
  have hfirst : (Region.stretch caseArmStops (.spelled .colon 13)).Contains looseCase
      [.loose .string 10 3] := by
    refine .whole (.alone ?_) rfl
    constructor <;> decide
  have hsecond : (Region.stretch caseArmStops (.spelled .colon 45)).Contains looseCase
      [.loose .string 42 3] := by
    refine .whole (.alone ?_) rfl
    constructor <;> decide
  exact .arm (by decide) hfirst rfl hfile
    (.bodilessArm (by decide) hsecond (by decide)
      (.arm (by decide) hdefault rfl hinclude .noArms))

/-- The case statement ends on its own brace. -/
theorem caseStatement_enclosed_looseCase :
    (onFirst looseCase).cursor.tokens = (TokenStream.lex false looseCase).tokens ∧
      (onFirst looseCase).Faces (.spelled .kwCase 0 :: .loose .variable 5 2 ::
        .spelled .leftBrace 8 ::
          (looseArms ++ .spelled .rightBrace 78 :: [.loose .variable 80 2])) ∧
      (Token.loose .variable 5 2).kind = .variable ∧
      Enclosed (.spelled .leftBrace 8) looseArms (.spelled .rightBrace 78) ∧
      ∃ node after,
        (onFirst looseCase).caseStatement looseCase (Manifest.scan looseCase) = (node, after) ∧
        Construct.read looseCase true true .caseStatement (onFirst looseCase) =
          .ok (.into .nothing [node] after) ∧
        after.Faces [.spelled .rightBrace 78, .loose .variable 80 2] := by
  have htokens : (onFirst looseCase).cursor.tokens = (TokenStream.lex false looseCase).tokens :=
    (leadsTo_moveNext _).tokens_eq
  have hfaces : (onFirst looseCase).Faces (.spelled .kwCase 0 :: .loose .variable 5 2 ::
      .spelled .leftBrace 8 ::
        (looseArms ++ .spelled .rightBrace 78 :: [.loose .variable 80 2])) :=
    faces_onFirst (by decide +kernel) (by decide +kernel)
  have henclosed : Enclosed (.spelled .leftBrace 8) looseArms (.spelled .rightBrace 78) :=
    ⟨rfl, by decide, rfl⟩
  obtain ⟨node, after, hnode, hread, hends, -⟩ :=
    caseStatement_enclosed false true true looseCase (.spelled .kwCase 0) (.loose .variable 5 2)
      (.spelled .leftBrace 8) (.spelled .rightBrace 78) looseArms [.loose .variable 80 2]
      (onFirst looseCase) htokens hfaces rfl henclosed
  exact ⟨htokens, hfaces, rfl, henclosed, node, after, hnode, hread,
    hends.2 contains_looseArms⟩

def openMatch : List Char :=
  "case $x \x7b 'a' \x7d $y".toList

/-- The match without a colon takes the closing brace and all that is behind it. -/
theorem caseStatement_runs_on :
    (onFirst openMatch).cursor.tokens = (TokenStream.lex false openMatch).tokens ∧
      (onFirst openMatch).Faces [.spelled .kwCase 0, .loose .variable 5 2, .spelled .leftBrace 8,
        .loose .string 10 3, .spelled .rightBrace 14, .loose .variable 16 2] ∧
      Enclosed (.spelled .leftBrace 8) [.loose .string 10 3] (.spelled .rightBrace 14) ∧
      ((onFirst openMatch).caseStatement openMatch (Manifest.scan openMatch)).2.token? = none ∧
      ¬ ((onFirst openMatch).caseStatement openMatch (Manifest.scan openMatch)).2.Faces
        [.spelled .rightBrace 14, .loose .variable 16 2] := by
  have hend : ((onFirst openMatch).caseStatement openMatch (Manifest.scan openMatch)).2.token? =
      none := by
    decide +kernel
  refine ⟨(leadsTo_moveNext _).tokens_eq, faces_onFirst (by decide +kernel) (by decide +kernel),
    ⟨rfl, by decide, rfl⟩, hend, fun hfaces => ?_⟩
  have hsame := hend.symm.trans hfaces.token?
  cases hsame

end ParseState

end Manifest
