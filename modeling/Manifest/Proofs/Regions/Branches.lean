import Manifest.Proofs.Forms.Conditions
import Manifest.Proofs.Regions.Constructs

/-!
# Conditions and case statements

A condition is read up to the last token of its last branch, and a case statement up to the brace
behind its arms.  An arm need not have a body, as long as it has its colon.
-/

namespace Manifest

namespace Region

variable {source : List Char} {stops : List TokenKind} {nesting : Nesting} {allowsElsif : Bool}
  {word opening closing colon next : Token}
  {test body branch more control arms row rest : List Token} {state : ParseState}

/-! ## Branches -/

theorem reads_branch (htest : (stretch conditionStops opening).Reads source test)
    (hbody : (stretch bodyStops closing).Reads source body) :
    (Region.branch closing).Reads source (test ++ opening :: body) := by
  intro state rest hplaced hfaces
  have htested : state.next.Faces (test ++ opening :: (body ++ closing :: rest)) := by
    simpa using hfaces
  obtain ⟨hbrace, hplacedBrace⟩ :=
    htest.here (by decide) (ParseState.placed_next hplaced) htested
  exact hbody.here (by decide) (ParseState.placed_next hplacedBrace) hbrace.next

/-- Where no further branch follows, the token that was looked at is left. -/
theorem reads_noAlternative (helse : next.kind ≠ .kwElse)
    (helsif : allowsElsif = true → next.kind ≠ .kwElsif) :
    (alternative allowsElsif next).Reads source [] := by
  intro read rest fuel _ hsettled hfaces hfuel
  obtain ⟨fuel, rfl⟩ := Nat.exists_eq_succ_of_ne_zero (Nat.ne_zero_of_lt hfuel)
  have hrow : read.state.Faces (next :: rest) := hfaces
  have hdone : Branches.step source (Manifest.scan source) allowsElsif read =
      .done { read with state := read.state.previous } := by
    have hkind : read.state.kind? = some next.kind := hrow.kind?
    unfold Branches.step
    rw [hkind]
    split
    · rename_i h
      exact (helse (Option.some.inj h)).elim
    · rename_i h
      cases allowsElsif with
      | true => exact (helsif rfl (Option.some.inj h)).elim
      | false => rfl
    · rfl
  rw [Nat.succ_eq_add_one, iterate_done hdone]
  exact hrow.congr (ParseState.cursor_next_previous hsettled)

theorem reads_bareElse (hword : word.kind = .kwElse) (hnext : next.kind ≠ .leftBrace) :
    (alternative allowsElsif next).Reads source [word] := by
  intro read rest fuel _ hsettled hfaces hfuel
  obtain ⟨fuel, rfl⟩ := Nat.exists_eq_succ_of_ne_zero (Nat.ne_zero_of_lt hfuel)
  have hrow : read.state.Faces (word :: next :: rest) := hfaces
  have hkind : read.state.kind? = some .kwElse := hrow.kind?.trans (congrArg some hword)
  have hbrace : read.state.next.isAt .leftBrace = false :=
    (hrow.next.isAt _).trans (beq_eq_false_iff_ne.2 hnext)
  have hdone : Branches.step source (Manifest.scan source) allowsElsif read =
      .done { read with state := read.state.next.previous } := by
    unfold Branches.step
    rw [hkind]
    dsimp only
    rw [hbrace, if_neg Bool.false_ne_true]
  rw [Nat.succ_eq_add_one, iterate_done hdone]
  exact hrow.next.congr (ParseState.cursor_next_previous hsettled.next)

theorem reads_otherwise (hword : word.kind = .kwElse) (hopening : opening.kind = .leftBrace)
    (hbody : (stretch bodyStops closing).Reads source body) :
    (alternative allowsElsif next).Reads source (word :: opening :: (body ++ [closing])) := by
  intro read rest fuel hplaced _ hfaces hfuel
  obtain ⟨fuel, rfl⟩ := Nat.exists_eq_succ_of_ne_zero (Nat.ne_zero_of_lt hfuel)
  have hblock : read.state.Faces (word :: opening :: (body ++ closing :: next :: rest)) := by
    simpa using hfaces
  have hkind : read.state.kind? = some .kwElse := hblock.kind?.trans (congrArg some hword)
  have hbrace : read.state.next.isAt .leftBrace = true := by
    rw [hblock.next.isAt, hopening]
    rfl
  have hlast := (hbody.here (by decide) (ParseState.placed_next (ParseState.placed_next hplaced))
    hblock.next.next).1
  have hdone : ∃ last, Branches.step source (Manifest.scan source) allowsElsif read = .done last ∧
      last.state = ((Manifest.scan source).here source bodyStops read.state.next.next).2 := by
    unfold Branches.step
    rw [hkind]
    dsimp only
    rw [if_pos hbrace]
    exact ⟨_, rfl, rfl⟩
  obtain ⟨last, hdone, hstate⟩ := hdone
  rw [Nat.succ_eq_add_one, iterate_done hdone, hstate]
  exact hlast.next

theorem reads_elsif (hword : word.kind = .kwElsif)
    (hbranch : (Region.branch closing).Reads source branch)
    (hmore : (alternative true next).Reads source more) :
    (alternative true next).Reads source (word :: (branch ++ closing :: more)) := by
  intro read rest fuel hplaced _ hfaces hfuel
  obtain ⟨fuel, rfl⟩ := Nat.exists_eq_succ_of_ne_zero (Nat.ne_zero_of_lt hfuel)
  have hrow : read.state.Faces (word :: (branch ++ closing :: (more ++ next :: rest))) := by
    simpa using hfaces
  have hkind : read.state.kind? = some .kwElsif := hrow.kind?.trans (congrArg some hword)
  obtain ⟨hlast, hplacedLast⟩ := hbranch read.state _ hplaced hrow.next
  have hstep : ∃ after, Branches.step source (Manifest.scan source) true read = .again after ∧
      after.state = (read.state.branch source (Manifest.scan source)).2.next := by
    unfold Branches.step
    rw [hkind]
    exact ⟨_, rfl, rfl⟩
  obtain ⟨after, hstep, hafter⟩ := hstep
  rw [Nat.succ_eq_add_one, iterate_again hstep]
  refine hmore after rest fuel ?_ ?_ ?_ ?_
  · rw [hafter]
    exact ParseState.placed_next hplacedLast
  · rw [hafter]
    exact ParseState.settled_next hplacedLast
  · rw [hafter]
    exact hlast.next
  · rw [List.length_cons, List.length_append, List.length_cons] at hfuel
    omega

theorem reads_condition (hword : word.kind = .kwIf ∨ word.kind = .kwUnless)
    (hbranch : (Region.branch closing).Reads source branch)
    (hmore : (alternative (word.kind != .kwUnless) next).Reads source more) :
    (construct stops nesting next).Reads source (word :: (branch ++ closing :: more)) := by
  intro scanning rest hstops hplaced hnesting hfaces
  have hrow : scanning.state.Faces (word :: (branch ++ closing :: (more ++ next :: rest))) := by
    simpa using hfaces
  have hwords : word.kind ∈ wordKinds := by
    rcases hword with h | h <;> rw [h] <;> decide
  refine exists_step_word hstops (.inl hwords) hrow hnesting ?_
  obtain ⟨hlast, hplacedLast⟩ := hbranch scanning.state _ hplaced hrow.next
  have hlength := hlast.next.toSees.length_le
  rw [List.length_append] at hlength
  have hcondition : (scanning.state.condition source (Manifest.scan source)
      (word.kind != .kwUnless)).2.next.Faces (next :: rest) :=
    hmore ⟨[], none, (scanning.state.branch source (Manifest.scan source)).2.next⟩ rest
      ((scanning.state.branch source (Manifest.scan source)).2.next.remaining + 1)
      (ParseState.placed_next hplacedLast) (ParseState.settled_next hplacedLast) hlast.next
      (by omega)
  unfold Scanning.significantAt
  rcases hword with h | h <;> rw [h] at hcondition ⊢ <;> exact hcondition.toSees

/-! ## Arms -/

theorem reads_noArms : (Region.arms next).Reads source [] := by
  intro read rest hplaced hfaces
  exact ⟨0, read, Nat.le_refl _, .refl _ _, hfaces, hplaced⟩

/-- The match of an arm is read up to its colon, if it does not begin with a closing brace. -/
theorem arm_step {read : CaseArms} (hplaced : read.state.cursor.Placed source)
    (hfaces : read.state.Faces (test ++ colon :: rest))
    (hbegins : (test.headD colon).kind ≠ .rightBrace)
    (htest : (stretch caseArmStops colon).Reads source test) :
    ∃ last : ParseState, last.Faces (colon :: rest) ∧ last.cursor.Placed source ∧
      ∃ after : CaseArms, CaseArms.step source (Manifest.scan source) read = .again after ∧
        after.state = if last.next.isAt .leftBrace then
          ((Manifest.scan source).here source bodyStops last.next.next).2.next else last.next := by
  obtain ⟨hlast, hplacedLast⟩ := htest.here (by decide) hplaced hfaces
  have hhead := hfaces.token?_headD
  have hbrace : read.state.isAt .rightBrace = false := by
    unfold ParseState.isAt ParseState.kind? Cursor.kind?
    rw [show read.state.cursor.token? = _ from hhead]
    exact beq_eq_false_iff_ne.2 fun h => hbegins (Option.some.inj h)
  refine ⟨_, hlast, hplacedLast, ?_⟩
  unfold CaseArms.step
  simp only [hhead, hbrace, hlast.token?, Option.isNone_some, Bool.or_self, Bool.false_eq_true,
    if_false]
  split
  · exact ⟨_, rfl, rfl⟩
  · exact ⟨_, rfl, rfl⟩

theorem reads_arm (hbegins : (test.headD colon).kind ≠ .rightBrace)
    (htest : (stretch caseArmStops colon).Reads source test) (hopening : opening.kind = .leftBrace)
    (hbody : (stretch bodyStops closing).Reads source body)
    (hrow : (Region.arms next).Reads source row) :
    (Region.arms next).Reads source
      (test ++ colon :: opening :: (body ++ closing :: row)) := by
  intro read rest hplaced hfaces
  have hfirst : read.state.Faces
      (test ++ colon :: opening :: (body ++ closing :: (row ++ next :: rest))) := by
    simpa using hfaces
  obtain ⟨last, hlast, hplacedLast, after, hstep, hafter⟩ :=
    arm_step hplaced hfirst hbegins htest
  have hbrace : last.next.isAt .leftBrace = true := by
    rw [hlast.next.isAt, hopening]
    rfl
  rw [if_pos hbrace] at hafter
  obtain ⟨hend, hplacedEnd⟩ := hbody.here (by decide)
    (ParseState.placed_next (ParseState.placed_next hplacedLast)) hlast.next.next
  obtain ⟨count, ending, hcount, hgoes, hfacesEnding, hplacedEnding⟩ := hrow after rest
    (by rw [hafter]; exact ParseState.placed_next hplacedEnd) (by rw [hafter]; exact hend.next)
  refine ⟨1 + count, ending, ?_, (goesOn_again hstep).trans hgoes, hfacesEnding, hplacedEnding⟩
  simp only [List.length_append, List.length_cons]
  omega

theorem reads_bodilessArm (hbegins : (test.headD colon).kind ≠ .rightBrace)
    (htest : (stretch caseArmStops colon).Reads source test)
    (hbehind : (row.headD next).kind ≠ .leftBrace) (hrow : (Region.arms next).Reads source row) :
    (Region.arms next).Reads source (test ++ colon :: row) := by
  intro read rest hplaced hfaces
  have hfirst : read.state.Faces (test ++ colon :: (row ++ next :: rest)) := by
    simpa using hfaces
  obtain ⟨last, hlast, hplacedLast, after, hstep, hafter⟩ :=
    arm_step hplaced hfirst hbegins htest
  have hbrace : last.next.isAt .leftBrace = false := by
    have hnext := hlast.next
    obtain ⟨behind, heq⟩ := exists_headD_cons row next rest
    rw [heq] at hnext
    exact (hnext.isAt _).trans (beq_eq_false_iff_ne.2 hbehind)
  rw [hbrace, if_neg Bool.false_ne_true] at hafter
  obtain ⟨count, ending, hcount, hgoes, hfacesEnding, hplacedEnding⟩ := hrow after rest
    (by rw [hafter]; exact ParseState.placed_next hplacedLast) (by rw [hafter]; exact hlast.next)
  refine ⟨1 + count, ending, ?_, (goesOn_again hstep).trans hgoes, hfacesEnding, hplacedEnding⟩
  simp only [List.length_append, List.length_cons]
  omega

/-- The arms of a case statement end on the first token behind them that is a closing brace. -/
theorem faces_readAll (hplaced : state.cursor.Placed source)
    (hfaces : state.Faces (arms ++ closing :: rest))
    (harms : (Region.arms closing).Reads source arms)
    (hclosing : closing.kind = .rightBrace) (control : Node) :
    (CaseArms.readAll source (Manifest.scan source) control state).state.Faces
      (closing :: rest) := by
  have hlength := hfaces.toSees.length_le
  rw [List.length_append] at hlength
  obtain ⟨count, after, hcount, hgoes, hafter, -⟩ :=
    harms ⟨[control], [], state⟩ rest hplaced hfaces
  have hdone : CaseArms.step source (Manifest.scan source) after = .done after := by
    have hbrace : after.state.isAt .rightBrace = true := by
      rw [hafter.isAt, hclosing]
      rfl
    unfold CaseArms.step
    rw [hbrace, Bool.or_true, if_pos rfl]
  unfold CaseArms.readAll
  rw [hgoes.iterate_eq hdone (by omega)]
  exact hafter

theorem reads_caseStatement (hword : word.kind = .kwCase)
    (hcontrol : (stretch conditionStops opening).Reads source control)
    (harms : (Region.arms closing).Reads source arms) (hclosing : closing.kind = .rightBrace) :
    (construct stops nesting next).Reads source
      (word :: (control ++ opening :: (arms ++ [closing]))) := by
  intro scanning rest hstops hplaced hnesting hfaces
  have hrow : scanning.state.Faces
      (word :: (control ++ opening :: (arms ++ closing :: next :: rest))) := by
    simpa using hfaces
  refine exists_step_word hstops (.inl (by rw [hword]; decide)) hrow hnesting ?_
  obtain ⟨hbrace, hplacedBrace⟩ :=
    hcontrol.here (by decide) (ParseState.placed_next hplaced) hrow.next
  have hlast := faces_readAll (ParseState.placed_next hplacedBrace) hbrace.next harms hclosing
    ((Manifest.scan source).here source conditionStops scanning.state.next).1
  unfold Scanning.significantAt
  rw [hword]
  exact hlast.next.toSees

end Region

end Manifest
