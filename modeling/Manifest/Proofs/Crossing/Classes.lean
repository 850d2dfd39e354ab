import Manifest.Proofs.Crossing.Constructs
import Manifest.Proofs.Regions.Classes

/-!
# Classes that a scan has come over

A class takes its parameters, what it inherits from, and its body, as far as these are there.
What is behind it says which of them are.
-/

namespace Manifest

open Region

variable {source : List Char} {bound : Nat} {scan : Scan} {token : Token} {state : ParseState}

/-! ## Parameters -/

namespace Params

variable {read after : Params}

theorem crossed_stepRest (hscan : scan.Crosses source bound)
    (hready : read.state.Ready source bound) (htoken : read.state.token? = some token)
    (hparen : token.kind ≠ .rightParen) (hopen : read.open?.isSome = true)
    (hstep : stepRest source scan token read = .again after) :
    after.state.Ready source bound ∧ after.state.remaining < read.state.remaining ∧
      ∀ last, Crossed source bound (Region.params after.open?.isSome) after.state last →
        Crossed source bound (Region.params true) read.state last := by
  have hless := ParseState.remaining_next_lt htoken
  unfold stepRest at hstep
  split at hstep
  · rename_i hequals
    have hbound := hready.remaining_next_lt htoken
    obtain ⟨hvalue, hle⟩ := hscan.here paramDefaultStops (by decide) hready.next.placed hbound
    have hstretch := hscan.lays.here hready.next.placed hbound paramDefaultStops
    dsimp only at hstep
    split at hstep
    · rename_i hat
      obtain rfl := Progress.again.inj hstep
      have hnextLe := (scan.here source paramDefaultStops read.state.next).2.remaining_next_le
      refine ⟨hvalue.ready.next, Nat.lt_of_le_of_lt (Nat.le_trans hnextLe hle) hless,
        fun last hcrossed => ⟨hcrossed.ready, fun next rest hsees => ?_⟩⟩
      obtain ⟨row, hbehind, hrow⟩ := hcrossed.ahead next rest hsees
      obtain ⟨comma, hcomma, hfaces⟩ :=
        ParseState.faces_of_isAt hvalue.ready.placed.begun hat rfl hbehind
      obtain ⟨value, hdefault, hcontains⟩ := hvalue.ahead comma _ hfaces.toSees
      exact ⟨token :: (value ++ comma :: row),
        by simpa using (hready.faces htoken hdefault).toSees,
        .paramDefault hequals hcontains hcomma hrow⟩
    · rename_i hcomma
      split at hstep
      · cases hstep
      · rename_i hend
        -- the default has ended on one of its stop tokens
        obtain ⟨stop, hstop⟩ := Option.ne_none_iff_exists'.1
          (fun h : (scan.here source paramDefaultStops read.state.next).2.token? = none =>
            hend (by rw [h]; rfl))
        have hkind := hstretch.stopped stop hstop
        obtain ⟨behind, hfaces⟩ := ParseState.exists_faces_of_token? hvalue.ready.placed.begun hstop
          (hvalue.ready.loud stop hstop)
        rw [hfaces.isAt] at hcomma hend
        rcases List.mem_cons.1 (List.contains_iff_mem.1 hkind) with h | h
        · exact (hcomma (by rw [h]; rfl)).elim
        · exact (hend (by rw [List.mem_singleton.1 h]; simp)).elim
  · rename_i hequals
    split at hstep
    · rename_i hcomma
      obtain rfl := Progress.again.inj hstep
      exact ⟨hready.next, hless, fun last hcrossed =>
        hcrossed.cons hready htoken fun _ _ => .paramComma hcomma⟩
    · rename_i hcomma
      obtain rfl := Progress.again.inj hstep
      refine ⟨hready.next, hless, fun last hcrossed =>
        hcrossed.cons hready htoken fun _ _ hrow => ?_⟩
      rw [show ({ read with state := read.state.next } : Params).open?.isSome = true from hopen]
        at hrow
      exact .paramToken (by simp [hparen, hequals, hcomma]) hrow

theorem crossed_again (hscan : scan.Crosses source bound) (hready : read.state.Ready source bound)
    (hstep : step source scan read = .again after) :
    after.state.Ready source bound ∧ after.state.remaining < read.state.remaining ∧
      ∀ last, Crossed source bound (Region.params after.open?.isSome) after.state last →
        Crossed source bound (Region.params read.open?.isSome) read.state last := by
  unfold step at hstep
  split at hstep
  · cases hstep
  · rename_i token htoken
    split at hstep
    · cases hstep
    · rename_i hparen
      split at hstep
      · rename_i hnone
        obtain rfl := Progress.again.inj hstep
        obtain ⟨hstate, hopen⟩ := stepType_goes source token hnone
        rw [hstate, hopen, hnone]
        exact ⟨hready.next, ParseState.remaining_next_lt htoken, fun last hcrossed =>
          hcrossed.cons hready htoken fun _ _ => .paramType hparen⟩
      · rename_i opened hsome
        rw [hsome]
        exact crossed_stepRest hscan hready htoken hparen (by rw [hsome]; rfl) hstep

theorem crossed_done (hscan : scan.Crosses source bound) (hready : read.state.Ready source bound)
    (hstep : step source scan read = .done after) :
    Crossed source bound (Region.params read.open?.isSome) read.state after.state := by
  unfold step at hstep
  split at hstep
  · rename_i hnone
    obtain rfl := Progress.done.inj hstep
    exact ⟨hready, fun next rest hsees => (hsees.token?_ne_none hnone).elim⟩
  · rename_i token htoken
    split at hstep
    · rename_i hparen
      obtain rfl := Progress.done.inj hstep
      refine ⟨hready, fun next rest hsees => ⟨[], hsees, .noParams ?_⟩⟩
      rwa [Option.some.inj ((hready.loud.faces hsees).token?.symm.trans htoken)]
    · split at hstep
      · cases hstep
      · rename_i opened hsome
        rw [hsome]
        unfold stepRest at hstep
        split at hstep
        · rename_i hequals
          obtain ⟨hvalue, -⟩ := hscan.here paramDefaultStops (by decide) hready.next.placed
            (hready.remaining_next_lt htoken)
          dsimp only at hstep
          split at hstep
          · cases hstep
          · split at hstep
            · rename_i hend
              obtain rfl := Progress.done.inj hstep
              refine ⟨hvalue.ready, fun next rest hsees => ?_⟩
              obtain ⟨value, hdefault, hcontains⟩ := hvalue.ahead next rest hsees
              have hfaces := hvalue.ready.loud.faces hsees
              refine ⟨token :: value, (hready.faces htoken hdefault).toSees,
                .lastDefault hequals hcontains ?_⟩
              rw [hfaces.token?, hfaces.isAt] at hend
              simpa using hend
            · cases hstep
        · split at hstep <;> cases hstep

theorem crossed_readAll (hscan : scan.Crosses source bound) (hready : state.Ready source bound) :
    Crossed source bound (Region.params false) state.next (readAll source scan state).state :=
  crossed_iterate (fun read : Params => read.state.Ready source bound) Params.state Params.state
    (fun read => Region.params read.open?.isSome)
    (fun _ _ hready hstep => crossed_again hscan hready hstep)
    (fun _ _ hready hstep => crossed_done hscan hready hstep) (state.next.remaining + 1)
    ⟨[], none, none, none, 0, state.next⟩ hready.next (Nat.lt_succ_self _)

end Params

/-! ## Parts of a class -/

namespace ParseState

theorem crossed_paramList (hscan : scan.Crosses source bound) (hready : state.Ready source bound) :
    Crossed source bound Region.paramList state (state.paramList source scan).2 := by
  unfold paramList
  split
  · rename_i hat
    have hread := Params.crossed_readAll hscan hready
    refine ⟨hread.ready.next, fun next rest hsees => ?_⟩
    obtain ⟨closing, hfaces⟩ := hread.ready.exists_faces hsees
    obtain ⟨row, hbehind, hrow⟩ := hread.ahead closing _ hfaces.toSees
    obtain ⟨opening, hopening, hlist⟩ := faces_of_isAt hready.placed.begun hat rfl hbehind
    exact ⟨opening :: (row ++ [closing]), by simpa using hlist.toSees, .paramList hopening hrow⟩
  · rename_i hat
    refine ⟨hready, fun next rest hsees => ⟨[], hsees, .noParamList fun h => ?_⟩⟩
    rw [(hready.loud.faces hsees).isAt, h] at hat
    exact hat rfl

theorem exists_inherits (hready : state.Ready source bound) :
    (state.inheritance source).2.Ready source bound ∧
      ∀ next rest, (state.inheritance source).2.Sees (next :: rest) →
        ∃ parent, state.Sees (parent ++ next :: rest) ∧ Inherits next parent := by
  unfold inheritance
  split
  · rename_i hat
    obtain ⟨word, hword, hkind⟩ := token?_of_isAt hat
    dsimp only
    split
    · rename_i name hname
      split
      · rename_i hnameKind
        refine ⟨hready.next.next, fun next rest hsees => ⟨[word, name], ?_, .named hkind hnameKind⟩⟩
        exact (hready.faces hword (hready.next.faces hname hsees).toSees).toSees
      · rename_i hother
        refine ⟨hready.next, fun next rest hsees => ?_⟩
        obtain rfl := Option.some.inj ((hready.next.loud.faces hsees).token?.symm.trans hname)
        exact ⟨[word], (hready.faces hword hsees).toSees, .unnamed hkind hother⟩
    · rename_i hnone
      exact ⟨hready.next, fun next rest hsees => (hsees.token?_ne_none hnone).elim⟩
  · rename_i hat
    refine ⟨hready, fun next rest hsees => ⟨[], hsees, .nothing fun h => ?_⟩⟩
    rw [(hready.loud.faces hsees).isAt, h] at hat
    exact hat rfl

/-- The body of a class, or nothing where the token in its place is left. -/
theorem ahead_declarationBody {next : Token} {rest : List Token}
    (hscan : scan.Crosses source bound) (hready : state.Ready source bound)
    (hsettled : state.cursor.Settled)
    (hend : (state.declarationBody source scan).2.next.Sees (next :: rest)) :
    (Region.block next).Ahead source state (next :: rest) := by
  unfold declarationBody at hend
  split at hend
  · rename_i hat
    obtain ⟨opening, closing, row, hopening, hfaces, hrow⟩ :=
      hscan.inside (by decide) hready.placed hready.bounded hat rfl hend
    exact ⟨opening :: (row ++ [closing]), by simpa using hfaces.toSees, .block hopening hrow⟩
  · rename_i hat
    have hcursor : (state.reportHere source .expectedBody).cursor = state.cursor :=
      cursor_reportHere _ _ _
    dsimp only at hend
    split at hend
    · have hback : (state.reportHere source .expectedBody).previous.next.cursor = state.cursor := by
        rw [← hcursor]
        exact cursor_next_previous (by rw [hcursor]; exact hsettled)
      have hsees : state.Sees (next :: rest) := ⟨hready.placed.begun, by
        rw [← hback]
        exact hend.ahead⟩
      refine ⟨[], hsees, .noBlock fun h => ?_⟩
      rw [(hready.loud.faces hsees).isAt, h] at hat
      exact hat rfl
    · rename_i hnone
      obtain ⟨current, hcurrent⟩ :=
        exists_token?_of_next (by rw [hcursor]; exact hready.placed.begun) hend
      have hsome : state.token? = some current :=
        (congrArg Cursor.token? hcursor).symm.trans hcurrent
      rw [hsome] at hnone
      exact (hnone rfl).elim

/-! ## Classes -/

theorem ahead_classAfterName {next : Token} {rest : List Token} {name : List Char}
    {offset nameOffset : Nat} (hscan : scan.Crosses source bound)
    (hready : state.Ready source bound)
    (hend : (state.classAfterName source scan offset nameOffset name).2.next.Sees
      (next :: rest)) : (Region.classRest next).Ahead source state.next (next :: rest) := by
  have hnext := hready.next
  obtain ⟨hreads, hsettled⟩ := reads_paramList hscan.lays hnext.placed
    (settled_next hready.placed) hnext.bounded
  have hparams := crossed_paramList hscan hnext
  obtain ⟨-, hsettledParent⟩ := reads_inheritance hreads.placed_after hsettled
  obtain ⟨hparentReady, hparent⟩ := exists_inherits hparams.ready
  unfold classAfterName at hend
  dsimp only at hend
  obtain ⟨body, behindParent, hbehindParent, hbody, hbodyRow⟩ :=
    (ahead_declarationBody hscan hparentReady hsettledParent hend).first
  obtain ⟨parent, hparentSees, hinherits⟩ := hparent _ _ hbody
  rw [← hbehindParent, ← List.append_assoc] at hparentSees
  obtain ⟨behind, hbehind⟩ := exists_headD_cons (parent ++ body) next rest
  rw [hbehind] at hparentSees
  obtain ⟨params, hsees, hparamsRow⟩ := hparams.ahead _ _ hparentSees
  rw [← hbehind] at hsees
  exact ⟨params ++ (parent ++ body), by simpa using hsees,
    .classRest hparamsRow hinherits hbodyRow⟩

end ParseState

end Manifest
