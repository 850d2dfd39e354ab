import Manifest.Proofs.Crossing.Constructs
import Manifest.Proofs.Regions.Branches

/-!
# Conditions and case statements that a scan has come over

A condition takes the braces of each of its branches.  Of a case statement that ends on a brace,
each arm has its colon.
-/

namespace Manifest

open Region

variable {source : List Char} {bound : Nat} {scan : Scan} {token next : Token}
  {rest : List Token} {state : ParseState} {allowElsif : Bool}

/-! ## Branches -/

theorem ParseState.crossed_branch (hscan : scan.Crosses source bound)
    (hready : state.Ready source bound) (htoken : state.token? = some token) :
    Crossed source bound Region.branch state.next (state.branch source scan).2 := by
  have hnext := hready.next
  have hbound := hready.remaining_next_lt htoken
  obtain ⟨htest, hle⟩ := hscan.here conditionStops (by decide) hnext.placed hbound
  have hnextLe := (scan.here source conditionStops state.next).2.remaining_next_le
  obtain ⟨hbody, -⟩ := hscan.here bodyStops (by decide) htest.ready.next.placed
    (Nat.lt_of_le_of_lt (Nat.le_trans hnextLe hle) hbound)
  refine ⟨hbody.ready, fun closing rest hsees => ?_⟩
  obtain ⟨body, behind, hbehind, hfirst, hbodyRow⟩ := (hbody.ahead closing rest hsees).first
  obtain ⟨opening, hopening⟩ := htest.ready.exists_faces hfirst
  obtain ⟨test, htested, htestRow⟩ := htest.ahead opening _ hopening.toSees
  rw [← hbehind] at htested
  exact ⟨test ++ opening :: body, by simpa using htested, .branch htestRow hbodyRow⟩

namespace Branches

variable {read after : Branches}

theorem crossed_again (hscan : scan.Crosses source bound) (hready : read.state.Ready source bound)
    (hstep : step source scan allowElsif read = .again after) :
    (after.state.Ready source bound ∧ after.state.cursor.Settled) ∧
      after.state.remaining < read.state.remaining ∧
      ∀ last, Crossed source bound (alternative allowElsif) after.state last →
        Crossed source bound (alternative allowElsif) read.state last := by
  unfold step at hstep
  split at hstep
  · dsimp only at hstep
    split at hstep <;> cases hstep
  · rename_i hkind
    obtain ⟨word, hword, hwordKind⟩ := Option.map_eq_some_iff.1 hkind
    split at hstep
    · rename_i hallows
      dsimp only at hstep
      obtain rfl := Progress.again.inj hstep
      have hbranch := ParseState.crossed_branch hscan hready hword
      have hless := ParseState.remaining_next_lt hword
      have hle := (ParseState.reads_branch hscan.lays hready.placed
        (hready.remaining_next_lt hword)).2.1.remaining_le
      refine ⟨⟨hbranch.ready.next, ParseState.settled_next hbranch.ready.placed⟩,
        Nat.lt_of_le_of_lt hle hless, fun last hcrossed =>
          ⟨hcrossed.ready, fun next rest hsees => ?_⟩⟩
      obtain ⟨more, behind, hbehind, hfirst, hmore⟩ := (hcrossed.ahead next rest hsees).first
      obtain ⟨closing, hclosing⟩ := hbranch.ready.exists_faces hfirst
      obtain ⟨branch, hbranched, hbranchRow⟩ := hbranch.ahead closing _ hclosing.toSees
      rw [← hbehind] at hbranched
      subst hallows
      exact ⟨word :: (branch ++ closing :: more),
        by simpa using (hready.faces hword hbranched).toSees, .elsif hwordKind hbranchRow hmore⟩
    · cases hstep
  · cases hstep

/-- The last step takes the block behind `else` with it, and else goes back by one token. -/
theorem crossed_done (hscan : scan.Crosses source bound) (hready : read.state.Ready source bound)
    (hsettled : read.state.cursor.Settled)
    (hstep : step source scan allowElsif read = .done after) :
    Crossed source bound (alternative allowElsif) read.state after.state.next := by
  have hback : ∀ {state : ParseState}, state.Ready source bound → state.cursor.Settled →
      state.previous.next.Ready source bound ∧ ∀ {tokens : List Token},
        state.previous.next.Sees tokens → state.Sees tokens := fun hready hsettled =>
    have hcursor := ParseState.cursor_next_previous hsettled
    ⟨hready.congr hcursor, fun hsees => ⟨hready.placed.begun, hcursor ▸ hsees.ahead⟩⟩
  -- where no branch follows, nothing is read
  have hnothing : (∀ token, read.state.token? = some token → token.kind ≠ .kwElse) →
      (allowElsif = true → ∀ token, read.state.token? = some token → token.kind ≠ .kwElsif) →
      Crossed source bound (alternative allowElsif) read.state read.state.previous.next := by
    intro helse helsif
    obtain ⟨hprevious, hsees⟩ := hback hready hsettled
    refine ⟨hprevious, fun next rest hnext => ⟨[], hsees hnext, .noAlternative ?_ fun h => ?_⟩⟩
    · exact helse next (hready.loud.faces (hsees hnext)).token?
    · exact helsif h next (hready.loud.faces (hsees hnext)).token?
  unfold step at hstep
  split at hstep
  · rename_i hkind
    obtain ⟨word, hword, hwordKind⟩ := Option.map_eq_some_iff.1 hkind
    have hless := ParseState.remaining_next_lt hword
    dsimp only at hstep
    split at hstep
    · rename_i hat
      obtain rfl := Progress.done.inj hstep
      have hbound : read.state.next.next.remaining < bound :=
        Nat.lt_of_le_of_lt read.state.next.remaining_next_le (hready.remaining_next_lt hword)
      obtain ⟨hbody, -⟩ := hscan.here bodyStops (by decide) hready.next.next.placed hbound
      refine ⟨hbody.ready.next, fun next rest hsees => ?_⟩
      obtain ⟨closing, hclosing⟩ := hbody.ready.exists_faces hsees
      obtain ⟨body, hbehind, hbodyRow⟩ := hbody.ahead closing _ hclosing.toSees
      obtain ⟨opening, hopening, hblock⟩ :=
        ParseState.faces_of_isAt hready.next.placed.begun hat rfl hbehind
      exact ⟨word :: opening :: (body ++ [closing]),
        by simpa using (hready.faces hword hblock.toSees).toSees,
        .otherwise hwordKind hopening hbodyRow⟩
    · rename_i hat
      obtain rfl := Progress.done.inj hstep
      obtain ⟨hprevious, hsees⟩ := hback hready.next hsettled.next
      refine ⟨hprevious, fun next rest hnext => ?_⟩
      have hfaces := hready.next.loud.faces (hsees hnext)
      refine ⟨[word], (hready.faces hword hfaces.toSees).toSees, .bareElse hwordKind fun h => ?_⟩
      rw [hfaces.isAt, h] at hat
      exact hat rfl
  · rename_i hkind
    split at hstep
    · cases hstep
    · rename_i hallows
      obtain rfl := Progress.done.inj hstep
      refine hnothing (fun token htoken h => ?_) fun h => (hallows h).elim
      have hother : read.state.kind? = some token.kind := congrArg (Option.map Token.kind) htoken
      rw [hkind, h] at hother
      cases hother
  · rename_i helse helsif
    obtain rfl := Progress.done.inj hstep
    have hother : ∀ token, read.state.token? = some token → read.state.kind? = some token.kind :=
      fun token htoken => congrArg (Option.map Token.kind) htoken
    exact hnothing (fun token htoken h => helse (by rw [hother token htoken, h]))
      fun _ token htoken h => helsif (by rw [hother token htoken, h])

theorem crossed_readAll (hscan : scan.Crosses source bound) (hready : state.Ready source bound)
    (hsettled : state.cursor.Settled) :
    Crossed source bound (alternative allowElsif) state
      (readAll source scan allowElsif state).state.next :=
  crossed_iterate
    (fun read : Branches => read.state.Ready source bound ∧ read.state.cursor.Settled)
    Branches.state (fun read => read.state.next) (fun _ => alternative allowElsif)
    (fun _ _ hread hstep => crossed_again hscan hread.1 hstep)
    (fun _ _ hread hstep => crossed_done hscan hread.1 hread.2 hstep) (state.remaining + 1)
    ⟨[], none, state⟩ ⟨hready, hsettled⟩ (Nat.lt_succ_self _)

end Branches

theorem ParseState.exists_of_condition (hscan : scan.Crosses source bound)
    (hready : state.Ready source bound) (htoken : state.token? = some token)
    (hend : (state.condition source scan allowElsif).2.next.Sees (next :: rest)) :
    ∃ branch closing more, state.Faces (token :: (branch ++ closing :: (more ++ next :: rest))) ∧
      (Region.branch closing).Contains source branch ∧
      (alternative allowElsif next).Contains source more := by
  have hbranch := crossed_branch hscan hready htoken
  have hmore : Crossed source bound (alternative allowElsif) (state.branch source scan).2.next
      (state.condition source scan allowElsif).2.next :=
    Branches.crossed_readAll hscan hbranch.ready.next (settled_next hbranch.ready.placed)
  obtain ⟨more, behind, hbehind, hfirst, hmoreRow⟩ := (hmore.ahead next rest hend).first
  obtain ⟨closing, hclosing⟩ := hbranch.ready.exists_faces hfirst
  obtain ⟨branch, hbranched, hbranchRow⟩ := hbranch.ahead closing _ hclosing.toSees
  rw [← hbehind] at hbranched
  exact ⟨branch, closing, more, hready.faces htoken hbranched, hbranchRow, hmoreRow⟩

/-! ## Arms -/

namespace CaseArms

variable {read after : CaseArms}

theorem crossed_again (hscan : scan.Crosses source bound) (hready : read.state.Ready source bound)
    (hbound : read.state.remaining < bound) (hstep : step source scan read = .again after) :
    (after.state.Ready source bound ∧ after.state.remaining < bound) ∧
      after.state.remaining < read.state.remaining ∧
      ∀ last, Crossed source bound Region.arms after.state last →
        Crossed source bound Region.arms read.state last := by
  obtain ⟨htest, hle⟩ := hscan.here caseArmStops (by decide) hready.placed hbound
  unfold step at hstep
  split at hstep
  · cases hstep
  · rename_i hgoes
    have hbegins : ∀ {row : List Token} {colon : Token} {rest : List Token},
        read.state.Sees (row ++ colon :: rest) → (row.headD colon).kind ≠ .rightBrace := by
      intro row colon rest hsees h
      obtain ⟨behind, hbehind⟩ := exists_headD_cons row colon rest
      rw [hbehind] at hsees
      have hat := (hready.loud.faces hsees).isAt .rightBrace
      rw [h] at hat
      rw [hat] at hgoes
      exact hgoes (by simp)
    dsimp only at hstep
    generalize scan.here source caseArmStops read.state = arm at htest hle hstep
    split at hstep
    · cases hstep
    · rename_i hcolon
      obtain ⟨colon, hcolon⟩ :=
        Option.ne_none_iff_exists'.1 (fun h : arm.2.token? = none => hcolon (by rw [h]; rfl))
      have hless := ParseState.remaining_next_lt hcolon
      have hbrace := htest.ready.next
      split at hstep
      · rename_i hat
        obtain rfl := Progress.again.inj hstep
        have hbraceLe := arm.2.next.remaining_next_le
        obtain ⟨hbody, hbodyLe⟩ :=
          hscan.here bodyStops (by decide) hbrace.next.placed (by omega)
        generalize scan.here source bodyStops arm.2.next.next = block at hbody hbodyLe
        have hlastLe := block.2.remaining_next_le
        have hafter : block.2.next.remaining < read.state.remaining := by omega
        refine ⟨⟨hbody.ready.next, Nat.lt_trans hafter hbound⟩, hafter, fun last hcrossed =>
          ⟨hcrossed.ready, fun next rest hsees => ?_⟩⟩
        obtain ⟨row, behind, hbehind, hfirst, hrow⟩ := (hcrossed.ahead next rest hsees).first
        obtain ⟨closing, hclosing⟩ := hbody.ready.exists_faces hfirst
        obtain ⟨body, hbodied, hbodyRow⟩ := hbody.ahead closing _ hclosing.toSees
        obtain ⟨opening, hopening, hblock⟩ :=
          ParseState.faces_of_isAt hbrace.placed.begun hat rfl hbodied
        have harm := htest.ready.faces hcolon hblock.toSees
        obtain ⟨test, htested, htestRow⟩ := htest.ahead colon _ harm.toSees
        rw [← hbehind] at htested
        exact ⟨test ++ colon :: opening :: (body ++ closing :: row), by simpa using htested,
          .arm (hbegins htested) htestRow hopening hbodyRow hrow⟩
      · rename_i hat
        obtain rfl := Progress.again.inj hstep
        have hafter : arm.2.next.remaining < read.state.remaining :=
          Nat.lt_of_lt_of_le hless hle
        refine ⟨⟨hbrace, Nat.lt_trans hafter hbound⟩, hafter, fun last hcrossed =>
          ⟨hcrossed.ready, fun next rest hsees => ?_⟩⟩
        obtain ⟨row, behind, hbehind, hfirst, hrow⟩ := (hcrossed.ahead next rest hsees).first
        have hfaces := hbrace.loud.faces hfirst
        have harm := htest.ready.faces hcolon hfirst
        obtain ⟨test, htested, htestRow⟩ := htest.ahead colon _ harm.toSees
        rw [← hbehind] at htested
        refine ⟨test ++ colon :: row, by simpa using htested,
          .bodilessArm (hbegins htested) htestRow (fun h => ?_) hrow⟩
        rw [hfaces.isAt, h] at hat
        exact hat rfl

/-- The arms end on a closing brace, if they come to a token at all. -/
theorem crossed_done (hscan : scan.Crosses source bound) (hready : read.state.Ready source bound)
    (hbound : read.state.remaining < bound) (hstep : step source scan read = .done after) :
    Crossed source bound Region.arms read.state after.state ∧
      ∀ token, after.state.token? = some token → token.kind = .rightBrace := by
  unfold step at hstep
  split at hstep
  · rename_i hends
    obtain rfl := Progress.done.inj hstep
    refine ⟨⟨hready, fun next rest hsees => ⟨[], hsees, .noArms⟩⟩, fun token htoken => ?_⟩
    rw [htoken] at hends
    obtain ⟨other, hother, hkind⟩ :=
      ParseState.token?_of_isAt (show read.state.isAt .rightBrace = true by simpa using hends)
    rwa [Option.some.inj (htoken.symm.trans hother)]
  · obtain ⟨htest, -⟩ := hscan.here caseArmStops (by decide) hready.placed hbound
    dsimp only at hstep
    split at hstep
    · rename_i hcolon
      have hnone := Option.isNone_iff_eq_none.1 hcolon
      obtain rfl := Progress.done.inj hstep
      refine ⟨⟨htest.ready, fun next rest hsees => (hsees.token?_ne_none hnone).elim⟩,
        fun token htoken => nomatch hnone.symm.trans htoken⟩
    · split at hstep <;> cases hstep

theorem crossed_readAll (hscan : scan.Crosses source bound) (hready : state.Ready source bound)
    (hbound : state.remaining < bound) (control : Node) :
    Crossed source bound Region.arms state (readAll source scan control state).state ∧
      ∀ token, (readAll source scan control state).state.token? = some token →
        token.kind = .rightBrace := by
  have hbegin : state.Ready source bound ∧ state.remaining < bound := ⟨hready, hbound⟩
  constructor
  · exact crossed_iterate
      (fun read : CaseArms => read.state.Ready source bound ∧ read.state.remaining < bound)
      CaseArms.state CaseArms.state (fun _ => Region.arms)
      (fun _ _ hread hstep => crossed_again hscan hread.1 hread.2 hstep)
      (fun _ _ hread hstep => (crossed_done hscan hread.1 hread.2 hstep).1) (state.remaining + 1)
      ⟨[control], [], state⟩ hbegin (Nat.lt_succ_self _)
  · obtain ⟨last, hlast, hstep⟩ := iterate_ends
      (fun read : CaseArms => read.state.Ready source bound ∧ read.state.remaining < bound)
      (fun read => read.state.remaining)
      (fun _ _ hread hstep =>
        let ⟨hnext, hless, _⟩ := crossed_again hscan hread.1 hread.2 hstep
        ⟨hnext, hless⟩)
      (state.remaining + 1) ⟨[control], [], state⟩ hbegin (Nat.lt_succ_self _)
    exact (crossed_done hscan hlast.1 hlast.2 hstep).2

end CaseArms

/-- A case statement takes its control expression and its arms, with the braces around them. -/
theorem ParseState.exists_of_caseStatement (hscan : scan.Crosses source bound)
    (hready : state.Ready source bound) (htoken : state.token? = some token)
    (hend : (state.caseStatement source scan).2.next.Sees (next :: rest)) :
    ∃ control opening arms closing,
      state.Faces (token :: (control ++ opening :: (arms ++ closing :: next :: rest))) ∧
      (stretch conditionStops opening).Contains source control ∧
      (Region.arms closing).Contains source arms ∧ closing.kind = .rightBrace := by
  obtain ⟨hcontrol, hle⟩ := hscan.here conditionStops (by decide) hready.next.placed
    (hready.remaining_next_lt htoken)
  have hless := hready.remaining_next_lt htoken
  have hnextLe := (scan.here source conditionStops state.next).2.remaining_next_le
  obtain ⟨harms, hkind⟩ := CaseArms.crossed_readAll hscan hcontrol.ready.next (by omega)
    (scan.here source conditionStops state.next).1
  have hlast : (CaseArms.readAll source scan (scan.here source conditionStops state.next).1
      (scan.here source conditionStops state.next).2.next).state.next.Sees (next :: rest) := hend
  obtain ⟨closing, hclosing⟩ := harms.ready.exists_faces hlast
  obtain ⟨arms, behind, hbehind, hfirst, harmsRow⟩ := (harms.ahead closing _ hclosing.toSees).first
  obtain ⟨opening, hopening⟩ := hcontrol.ready.exists_faces hfirst
  obtain ⟨control, hcontrolled, hcontrolRow⟩ := hcontrol.ahead opening _ hopening.toSees
  rw [← hbehind] at hcontrolled
  exact ⟨control, opening, arms, closing, hready.faces htoken hcontrolled, hcontrolRow, harmsRow,
    hkind closing hclosing.token?⟩

end Manifest
