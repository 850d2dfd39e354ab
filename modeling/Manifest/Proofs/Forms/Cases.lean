import Manifest.Parse.Construct
import Manifest.Proofs.Forms.Facing
import Manifest.Proofs.Parsing.Branches

/-!
# Case statements that are written out

A case statement is its word, a control expression, and arms in braces.  An arm is a match with a
colon and a block.  All of these are plain runs, so that a colon or a brace inside of one is
enclosed in brackets of its own, and the three kinds of scans that alternate stop in their places.
-/

namespace Manifest

/-! ## Forms -/

structure ArmForm where
  test : List Token
  colon : Token
  opening : Token
  body : List Token
  closing : Token

/-- A case statement as it is written, without its blanks. -/
structure CaseForm where
  word : Token
  control : List Token
  opening : Token
  arms : List ArmForm
  closing : Token

namespace ArmForm

def tokens (form : ArmForm) : List Token :=
  form.test ++ form.colon :: form.opening :: (form.body ++ [form.closing])

structure WellFormed (form : ArmForm) : Prop where
  test : PassableRun [.colon] [] form.test
  colon : form.colon.kind = .colon
  opening : form.opening.kind = .leftBrace
  body : PlainRun [] form.body
  closing : form.closing.kind = .rightBrace

/-- The stretches of an arm: the match up to its colon, and the block up to its brace. -/
def Shown (form : ArmForm) (parts : Node × Node) : Prop :=
  parts.1.Stretches (form.test.headD form.colon) form.colon ∧
    parts.2.Stretches (form.body.headD form.closing) form.closing

end ArmForm

namespace CaseForm

def tokens (form : CaseForm) : List Token :=
  form.word :: (form.control ++ form.opening ::
    (form.arms.flatMap ArmForm.tokens ++ [form.closing]))

structure WellFormed (form : CaseForm) : Prop where
  word : form.word.kind = .kwCase
  control : PassableRun [.leftBrace] [] form.control
  opening : form.opening.kind = .leftBrace
  arms : ∀ arm ∈ form.arms, arm.WellFormed
  closing : form.closing.kind = .rightBrace

/-- The links of `count` arms whose parts are children in a row, from an index on. -/
def armLinks (first count : Nat) : List (Link × Link) :=
  (List.range' first count 2).map fun index => (.child index, .child (index + 1))

/-- The node of a case statement: it takes all of the form, and its children are the control
expression and then the two parts of each arm. -/
def Shown (form : CaseForm) (node : Node) : Prop :=
  ∃ control arms,
    node = ⟨form.word.offset, some form.closing.stop,
      .caseStmt (some (.child 0)) (armLinks 1 arms.length),
      control :: arms.flatMap fun arm => [arm.1, arm.2]⟩ ∧
    node.endOffset = form.closing.stop ∧
    control.Stretches (form.control.headD form.opening) form.opening ∧
    List.Forall₂ ArmForm.Shown form.arms arms

end CaseForm

/-! ## Arms -/

namespace CaseArms

open CaseForm (armLinks)

variable {source : List Char} {state : ParseState} {rest : List Token}

theorem reads_arm {form : ArmForm} (hplaced : state.cursor.Placed source)
    (hfaces : state.Faces (form.tokens ++ rest)) (hform : form.WellFormed) (parts : List Node)
    (links : List (Link × Link)) :
    ∃ arm after,
      step source (Manifest.scan source) ⟨parts, links, state⟩ =
        .again ⟨parts ++ [arm.1, arm.2],
          links ++ [(.child parts.length, .child (parts.length + 1))], after⟩ ∧
      form.Shown arm ∧ after.Faces rest ∧ after.reported = state.reported ∧
      after.cursor.Placed source := by
  have hfirst : state.Faces (form.test ++ form.colon ::
      (form.opening :: (form.body ++ form.closing :: rest))) := by
    simpa [ArmForm.tokens] using hfaces
  have htestRun : PassableRun caseArmStops [] form.test := hform.test
  have htest := Scan.passes_here hplaced hfirst htestRun (by decide)
    (show caseArmStops.contains form.colon.kind = true by rw [hform.colon]; rfl)
  have hbody : PassableRun bodyStops [] form.body := hform.body.passable_closing .brace
  have hblock := Scan.passes_here (ParseState.placed_next (ParseState.placed_next htest.placed))
    htest.faces.next.next hbody (by decide)
    (show bodyStops.contains form.closing.kind = true by rw [hform.closing]; rfl)
  refine ⟨(_, _), _, ?_, ⟨htest.stretches, hblock.stretches⟩, hblock.faces.next,
    hblock.reported.trans htest.reported, ParseState.placed_next hblock.placed⟩
  -- The match does not begin with the brace that ends the arms, as no bracket closes outside.
  have hbegins : (form.test.headD form.colon).kind ≠ .rightBrace := by
    intro hkind
    have hcloses : Bracket.closedBy? (form.test.headD form.colon).kind = none :=
      hform.test.closedBy?_headD (by rw [hform.colon]; rfl)
    rw [hkind] at hcloses
    cases hcloses
  have hsome : state.token? = some (form.test.headD form.colon) := hfirst.token?_headD
  have hbrace : state.isAt .rightBrace = false := by
    unfold ParseState.isAt ParseState.kind? Cursor.kind?
    rw [show state.cursor.token? = _ from hsome]
    exact beq_eq_false_iff_ne.2 fun hkind => hbegins (Option.some.inj hkind)
  have hopening : ((Manifest.scan source).here source caseArmStops state).2.next.isAt .leftBrace =
      true := by
    rw [htest.faces.next.isAt, hform.opening]
    rfl
  have hcolon := htest.faces.token?
  unfold step
  dsimp only
  rw [hsome, hbrace, hcolon, hopening]
  simp

theorem reads_arms {forms : List ArmForm} (hplaced : state.cursor.Placed source)
    (hfaces : state.Faces (forms.flatMap ArmForm.tokens ++ rest))
    (hforms : ∀ form ∈ forms, form.WellFormed) (parts : List Node) (links : List (Link × Link)) :
    ∃ arms after,
      GoesOn (step source (Manifest.scan source)) forms.length ⟨parts, links, state⟩
        ⟨parts ++ arms.flatMap fun arm => [arm.1, arm.2],
          links ++ armLinks parts.length arms.length, after⟩ ∧
      List.Forall₂ ArmForm.Shown forms arms ∧ after.Faces rest ∧
      after.reported = state.reported := by
  induction forms generalizing state parts links with
  | nil =>
      refine ⟨[], state, ?_, .nil, hfaces, rfl⟩
      rw [List.flatMap_nil, List.append_nil, List.length_nil]
      exact (List.append_nil links).symm ▸ .refl _ _
  | cons form forms ih =>
      obtain ⟨hform, hothers⟩ := List.forall_mem_cons.1 hforms
      rw [List.flatMap_cons, List.append_assoc] at hfaces
      obtain ⟨arm, between, hstep, hshown, hbetween, hreported, hplacedBetween⟩ :=
        reads_arm hplaced hfaces hform parts links
      obtain ⟨arms, after, hgoes, hshownAll, hafter, hreportedAll⟩ :=
        ih hplacedBetween hbetween hothers (parts ++ [arm.1, arm.2])
          (links ++ [(.child parts.length, .child (parts.length + 1))])
      refine ⟨arm :: arms, after, ?_, .cons hshown hshownAll, hafter,
        hreportedAll.trans hreported⟩
      have hlinks : armLinks parts.length (arms.length + 1) =
          (.child parts.length, .child (parts.length + 1)) ::
            armLinks (parts.length + 2) arms.length := rfl
      rw [List.length_append, List.append_assoc, List.append_assoc] at hgoes
      rw [List.length_cons, List.length_cons, hlinks, Nat.add_comm]
      exact (goesOn_again hstep).trans hgoes

theorem reads_form {form : CaseForm} (hplaced : state.cursor.Placed source)
    (hfaces : state.Faces (form.arms.flatMap ArmForm.tokens ++ form.closing :: rest))
    (hform : form.WellFormed) (control : Node) :
    ∃ arms after,
      readAll source (Manifest.scan source) control state =
        ⟨control :: arms.flatMap fun arm => [arm.1, arm.2], armLinks 1 arms.length, after⟩ ∧
      List.Forall₂ ArmForm.Shown form.arms arms ∧ after.Faces (form.closing :: rest) ∧
      after.reported = state.reported := by
  obtain ⟨arms, after, hgoes, hshown, hafter, hreported⟩ :=
    reads_arms hplaced hfaces hform.arms [control] []
  have hdone : step source (Manifest.scan source)
      ⟨control :: arms.flatMap fun arm => [arm.1, arm.2], armLinks 1 arms.length, after⟩ =
        .done ⟨control :: arms.flatMap fun arm => [arm.1, arm.2], armLinks 1 arms.length,
          after⟩ := by
    have hat : after.isAt .rightBrace = true := by
      rw [hafter.isAt, hform.closing]
      rfl
    unfold step
    exact if_pos (by simp [hat])
  have hlength := hfaces.toSees.length_le
  have harms : 1 * form.arms.length ≤ (form.arms.flatMap ArmForm.tokens).length := by
    refine Token.length_flatMap_ge (fun arm => ?_) _
    simp only [ArmForm.tokens, List.length_append, List.length_cons]
    omega
  rw [List.length_append, List.length_cons] at hlength
  exact ⟨arms, after, hgoes.iterate_eq hdone (by omega), hshown, hafter, hreported⟩

end CaseArms

/-! ## Case statements -/

namespace ParseState

variable {source : List Char} {state : ParseState} {form : CaseForm} {rest : List Token}

theorem reads_caseForm (hplaced : state.cursor.Placed source)
    (hfaces : state.Faces (form.tokens ++ rest)) (hform : form.WellFormed) :
    ∃ node after,
      state.caseStatement source (Manifest.scan source) = (node, after) ∧ form.Shown node ∧
      after.Faces (form.closing :: rest) ∧ after.reported = state.reported := by
  have hword : state.Faces (form.word :: (form.control ++ form.opening ::
      (form.arms.flatMap ArmForm.tokens ++ form.closing :: rest))) := by
    simpa [CaseForm.tokens] using hfaces
  have hcontrolRun : PassableRun conditionStops [] form.control := hform.control
  have hcontrol := Scan.passes_here (placed_next hplaced) hword.next hcontrolRun (by decide)
    (show conditionStops.contains form.opening.kind = true by rw [hform.opening]; rfl)
  obtain ⟨arms, after, hread, hshown, hafter, hreported⟩ :=
    CaseArms.reads_form (placed_next hcontrol.placed) hcontrol.faces.next hform
      ((Manifest.scan source).here source conditionStops state.next).1
  have hlays := Scan.lays_scan source (state.next.remaining + 1)
  have hreads := CaseArms.reads_readAll hlays (Nat.lt_succ_self _)
    (hlays.here (placed_next hplaced) (Nat.lt_succ_self _) conditionStops).reads
  have hends : ∀ child ∈ ((Manifest.scan source).here source conditionStops state.next).1 ::
      arms.flatMap fun arm => [arm.1, arm.2], child.endOffset ≤ form.closing.stop := by
    intro child hchild
    have hclosing : after.offset source = form.closing.offset := hafter.offset
    have hrange : form.closing.offset ≤ form.closing.stop := form.closing.range.start_le_stop
    rw [hread] at hreads
    have hend : child.endOffset ≤ after.offset source := hreads.laid.2.2 child hchild
    omega
  have hnode : state.caseStatement source (Manifest.scan source) =
      (⟨form.word.offset, some form.closing.stop,
        .caseStmt (some (.child 0)) (CaseForm.armLinks 1 arms.length),
        ((Manifest.scan source).here source conditionStops state.next).1 ::
          arms.flatMap fun arm => [arm.1, arm.2]⟩, after) := by
    unfold caseStatement
    dsimp only
    rw [hread, hword.offset]
    dsimp only
    rw [hafter.token?]
    rfl
  refine ⟨_, after, hnode, ⟨_, arms, rfl, ?_, hcontrol.stretches, hshown⟩, hafter,
    hreported.trans hcontrol.reported⟩
  refine Node.endOffset_eq_of_ownEnd rfl ?_
  rw [Node.endOffset_eq, Node.endOffsetOf_le_iff]
  exact ⟨Int.le_refl _, hends⟩

end ParseState

namespace Construct

/-- From its word on, with blanks anywhere in what is written, a case statement is read as one
node that takes all of it: the control expression up to the opening brace, and for each arm, in
their order, the match up to its colon and the block up to its brace.  Nothing is reported, and
the parse is left on the closing brace. -/
theorem read_caseForm (multiline reportGap valid : Bool) (source : List Char) (form : CaseForm)
    (rest : List Token) (state : ParseState)
    (htokens : state.cursor.tokens = (TokenStream.lex multiline source).tokens)
    (hfaces : state.Faces (form.tokens ++ rest)) (hform : form.WellFormed) :
    ∃ node after,
      state.caseStatement source (Manifest.scan source) = (node, after) ∧
      Construct.read source reportGap valid .caseStatement state =
        .ok (.into .nothing [node] after) ∧
      form.Shown node ∧ after.Faces (form.closing :: rest) ∧ after.reported = state.reported := by
  have hplaced : state.cursor.Placed source := Cursor.placed_of_lex hfaces.begun htokens
  obtain ⟨node, after, hnode, hshown, hafter, hreported⟩ :=
    ParseState.reads_caseForm hplaced hfaces hform
  refine ⟨node, after, hnode, ?_, hshown, hafter, hreported⟩
  unfold Construct.read
  dsimp only
  rw [hnode]

/-- A case statement with a call for its control expression, and colons and braces inside of a
match. -/
def writtenCase : List Char :=
  "case f($a) \x7b [/b/, \x7b c: 1 \x7d], e::f: \x7b $g \x7d # d\n default: \x7b \x7d \x7d $h"
    |>.toList

def writtenArms : CaseForm where
  word := .spelled .kwCase 0
  control := [.loose .identifier 5 1, .spelled .leftParen 6, .loose .variable 7 2,
    .spelled .rightParen 9]
  opening := .spelled .leftBrace 11
  arms :=
    [⟨[.spelled .leftBracket 13, .loose .regexp 14 3, .spelled .comma 17, .spelled .leftBrace 19,
        .loose .identifier 21 1, .spelled .colon 22, .loose .int 24 1, .spelled .rightBrace 26,
        .spelled .rightBracket 27, .spelled .comma 28, .loose .identifier 30 4],
      .spelled .colon 34, .spelled .leftBrace 36, [.loose .variable 38 2],
      .spelled .rightBrace 41⟩,
    ⟨[.spelled .kwDefault 48], .spelled .colon 55, .spelled .leftBrace 57, [],
      .spelled .rightBrace 59⟩]
  closing := .spelled .rightBrace 61

def onCase : ParseState :=
  (ParseState.ofTokens (TokenStream.lex false writtenCase).tokens).moveNext

/-- Both arms are read, and the parse is left on the last brace. -/
theorem read_caseForm_writtenArms :
    onCase.cursor.tokens = (TokenStream.lex false writtenCase).tokens ∧
      onCase.Faces (writtenArms.tokens ++ [.loose .variable 63 2]) ∧ writtenArms.WellFormed ∧
      ∃ node after,
        onCase.caseStatement writtenCase (Manifest.scan writtenCase) = (node, after) ∧
        Construct.read writtenCase true true .caseStatement onCase =
          .ok (.into .nothing [node] after) ∧
        writtenArms.Shown node ∧
        after.Faces (writtenArms.closing :: [.loose .variable 63 2]) ∧
        after.reported = onCase.reported := by
  have htokens : onCase.cursor.tokens = (TokenStream.lex false writtenCase).tokens :=
    (ParseState.leadsTo_moveNext _).tokens_eq
  have hbegun : onCase.cursor.Begun :=
    Cursor.begun_enter [] (TokenStream.lex false writtenCase).tokens
  have hfaces : onCase.Faces (writtenArms.tokens ++ [.loose .variable 63 2]) :=
    ⟨⟨hbegun, by decide +kernel⟩, by decide +kernel⟩
  have harms : ∀ arm ∈ writtenArms.arms, arm.WellFormed := by
    refine List.forall_mem_cons.2 ⟨?_, List.forall_mem_singleton.2 ?_⟩
    · exact ⟨⟨⟨by decide, by decide, by decide⟩, by decide⟩, by decide, by decide,
        ⟨by decide, by decide, by decide⟩, by decide⟩
    · exact ⟨⟨⟨by decide, by decide, by decide⟩, by decide⟩, by decide, by decide,
        ⟨by decide, by decide, by decide⟩, by decide⟩
  have hform : writtenArms.WellFormed :=
    ⟨by decide, ⟨⟨by decide, by decide, by decide⟩, by decide⟩, by decide, harms, by decide⟩
  exact ⟨htokens, hfaces, hform,
    read_caseForm false true true writtenCase writtenArms [.loose .variable 63 2] onCase htokens
      hfaces hform⟩

end Construct

end Manifest
