import Manifest.Proofs.Crossing.Basic
import Manifest.Proofs.Regions.Constructs

/-!
# Constructs that a scan has come over

What is behind a definition, a call, a method or an index says where these end, and with that
which tokens belong to them.  A token that none of them takes stands for itself.
-/

namespace Manifest

namespace Scanning

open Region

variable {source : List Char} {bound : Nat} {scan : Scan} {stops : List TokenKind}
  {nesting : Nesting} {name token next : Token} {tokens rest : List Token} {scanning : Scanning}
  {state last : ParseState} {report : Bool} {reference : Node}

/-! ## Definitions and calls -/

theorem ahead_variableAt (hready : scanning.state.Ready source bound)
    (htoken : scanning.state.token? = some token) (hkind : token.kind = .variable)
    (hgoes : nesting.isActive = true ∨ stops.contains token.kind = false)
    (hend : (scanning.variableAt source token).state.Sees (next :: rest)) :
    (construct stops nesting next).Ahead source scanning.state (next :: rest) := by
  unfold variableAt at hend
  dsimp only at hend
  split at hend
  · rename_i hat
    obtain ⟨equals, hequals, hfaces⟩ :=
      ParseState.faces_of_isAt hready.next.placed.begun hat rfl hend
    exact ⟨[token, equals], (hready.faces htoken hfaces.toSees).toSees, .definition hkind hequals⟩
  · rename_i hat
    have hfaces := hready.next.loud.faces hend
    have hequals : next.kind ≠ .equals := by
      intro h
      rw [hfaces.isAt, h] at hat
      exact hat rfl
    refine ⟨[token], (hready.faces htoken hend).toSees, .alone ?_⟩
    exact .of_kind (by rw [hkind]; decide) (fun _ => hequals) (by rw [hkind]; decide)
      (by rw [hkind]; rfl) (by rw [hkind]; rfl) hgoes

theorem ahead_callAt (hscan : scan.Crosses source bound) (hplaced : state.cursor.Placed source)
    (hbound : state.remaining ≤ bound) (htoken : state.token? = some name)
    (hend : (scanning.callAt source scan token state).state.Sees (next :: rest)) :
    (arguments next).Ahead source state.next (next :: rest) := by
  have hless := ParseState.remaining_next_lt htoken
  unfold callAt at hend
  dsimp only at hend
  split at hend
  · rename_i hat
    obtain ⟨opening, closing, row, hopening, hfaces, hrow⟩ :=
      hscan.inside (by decide) (ParseState.placed_next hplaced) (by omega) hat rfl hend
    exact ⟨opening :: (row ++ [closing]), by simpa using hfaces.toSees, .arguments hopening hrow⟩
  · rename_i hat
    have hfaces := (ParseState.loud_next hplaced.begun).faces hend
    refine ⟨[], hend, .noArguments fun h => ?_⟩
    rw [hfaces.isAt, h] at hat
    exact hat rfl

theorem ahead_dotAt (hscan : scan.Crosses source bound)
    (hready : scanning.state.Ready source bound) (htoken : scanning.state.token? = some token)
    (hkind : token.kind = .dot)
    (hgoes : nesting.isActive = true ∨ stops.contains token.kind = false)
    (hend : (scanning.dotAt source scan).state.Sees (next :: rest)) :
    (construct stops nesting next).Ahead source scanning.state (next :: rest) := by
  have hbegun := hready.placed.begun
  have hloud := hready.loud token htoken
  have hmove := ParseState.placed_moveNext hready.placed
  unfold dotAt at hend
  dsimp only at hend
  split at hend
  · rename_i hnone
    exact (hend.token?_ne_none hnone).elim
  · rename_i named hnamed
    split at hend
    · rename_i hname
      obtain ⟨row, hsees, hrow⟩ := ahead_callAt hscan hmove
        (Nat.le_trans scanning.state.remaining_moveNext_le hready.bounded) hnamed hend
      have hfaces := ParseState.faces_of_next hmove.begun hnamed
        (Token.significant_of_name hname) hsees
      have hadjacent : named.offset = token.stop :=
        (ParseState.offset_of_token? hnamed).symm.trans (hready.placed.offset_moveNext htoken)
      exact ⟨token :: named :: row,
        (ParseState.faces_of_moveNext hbegun htoken hloud hfaces.toSees).toSees,
        .method hkind hadjacent hname hrow⟩
    · rename_i hname
      have hsees : scanning.state.moveNext.Sees (next :: rest) := hend
      have hfaces := ParseState.faces_of_moveNext hbegun htoken hloud hsees
      refine ⟨[token], hfaces.toSees, .alone ?_⟩
      exact
        { significant := hloud
          untracked := by rw [hkind]; rfl
          goes := hgoes
          statement := by rw [hkind]; decide
          function := by rw [hkind]; decide
          definition := fun h => nomatch hkind.symm.trans h
          call := fun h => nomatch hkind.symm.trans h
          index := fun h => nomatch hkind.symm.trans h
          block := fun h => h.elim (fun h => nomatch hkind.symm.trans h)
            fun h => nomatch hkind.symm.trans h
          declaration := fun h => nomatch hkind.symm.trans h
          method := fun _ hadjacent hmethod => by
            have hsame := (hfaces.token?_moveNext hready.placed).2 hadjacent
            obtain rfl := Option.some.inj (hnamed.symm.trans hsame)
            exact hname hmethod }

/-! ## Indices -/

/-- A reference to a class is its type with a string in brackets. -/
theorem exists_of_classReference (hready : state.Ready source bound)
    (htoken : state.token? = some name)
    (h : state.classReference source report = (some reference, last))
    (hend : last.next.Sees tokens) :
    ∃ opening string closing, opening.kind = .leftBracket ∧
      state.Faces (name :: opening :: ([string] ++ closing :: tokens)) ∧
      (stretch indexStops closing).Contains source [string] := by
  obtain ⟨hopening, ⟨string, hstring, hkind, -⟩, rfl, hclosing⟩ :=
    ParseState.classReference_some h
  obtain ⟨closing, hclosingKind, hlast⟩ :=
    ParseState.faces_of_isAt hready.next.next.next.placed.begun hclosing rfl hend
  have hindex := hready.next.next.faces hstring hlast.toSees
  obtain ⟨opening, hopeningKind, hfirst⟩ :=
    ParseState.faces_of_isAt hready.next.placed.begun hopening rfl hindex.toSees
  refine ⟨opening, string, closing, hopeningKind, hready.faces htoken hfirst.toSees, ?_⟩
  refine .whole (.alone ?_) (by rw [hclosingKind]; rfl)
  exact .of_kind (by rw [hkind]; decide) (by rw [hkind]; exact fun h => nomatch h)
    (by rw [hkind]; decide) (by rw [hkind]; rfl) (by rw [hkind]; rfl) (.inr (by rw [hkind]; rfl))

theorem ahead_applied? {after : Scanning} (hscan : scan.Crosses source bound)
    (hready : scanning.state.Ready source bound) (htoken : scanning.state.token? = some token)
    (hkind : token.kind = .identifier)
    (happlied : scanning.applied? source scan token = some after)
    (hend : after.state.Sees (next :: rest)) :
    (construct stops nesting next).Ahead source scanning.state (next :: rest) := by
  have hless := hready.remaining_next_lt htoken
  -- what stands between brackets behind the name, as a scan has it
  have hinside : ∀ {kind : TokenKind} {stops : List TokenKind},
      (∀ kind ∈ stops, kind.isTrivia = false) → kind.isTrivia = false →
      scanning.state.next.isAt kind = true →
      (scan.inside source stops scanning.state.next).2.next.Sees (next :: rest) →
      ∃ opening closing row, opening.kind = kind ∧ scanning.state.Sees
        (token :: opening :: (row ++ [closing]) ++ next :: rest) ∧
        (stretch stops closing).Contains source row := by
    intro kind stops hstops hkind hat hend
    obtain ⟨opening, closing, row, hopening, hfaces, hrow⟩ :=
      hscan.inside hstops hready.next.placed (Nat.le_of_lt hless) hat hkind hend
    refine ⟨opening, closing, row, hopening, ?_, hrow⟩
    simpa using (hready.faces htoken hfaces.toSees).toSees
  unfold applied? at happlied
  dsimp only at happlied
  split at happlied
  · rename_i hat
    obtain rfl := Option.some.inj happlied
    obtain ⟨opening, closing, row, hopening, hsees, hrow⟩ := hinside (by decide) rfl hat hend
    exact ⟨_, hsees, .call hkind hopening hrow⟩
  · split at happlied
    · rename_i hat
      split at happlied
      · rename_i reference last hread
        obtain rfl := Option.some.inj happlied
        split at hread
        · rename_i htype
          have hlast : last.next.Sees (next :: rest) := hend
          obtain ⟨opening, string, closing, hopening, hfaces, hrow⟩ :=
            exists_of_classReference hready htoken hread hlast
          exact ⟨token :: opening :: ([string] ++ [closing]), hfaces.toSees,
            .index hkind (by rw [htype]; decide) hopening hrow⟩
        · cases hread
      · split at happlied
        · rename_i hcapital
          obtain rfl := Option.some.inj happlied
          obtain ⟨opening, closing, row, hopening, hsees, hrow⟩ := hinside (by decide) rfl hat hend
          exact ⟨_, hsees, .index hkind hcapital hopening hrow⟩
        · cases happlied
    · cases happlied

theorem kind_of_applied?_none (hfaces : scanning.state.next.Faces (next :: rest))
    (happlied : scanning.applied? source scan token = none) :
    next.kind ≠ .leftParen ∧
      (startsWithCapital (token.text source) = true → next.kind ≠ .leftBracket) := by
  unfold applied? at happlied
  dsimp only at happlied
  split at happlied
  · cases happlied
  · rename_i hparen
    refine ⟨fun h => hparen ((hfaces.isAt _).trans (by rw [h]; rfl)), fun hcapital hbracket => ?_⟩
    rw [if_pos ((hfaces.isAt _).trans (by rw [hbracket]; rfl))] at happlied
    split at happlied
    · cases happlied
    · rw [if_pos hcapital] at happlied
      cases happlied

end Scanning

end Manifest
