import Manifest.Proofs.Crossing.Constructs
import Manifest.Proofs.Regions.Requirements

/-!
# Requirements that a scan has come over

The names of a requirement are told apart one by one, and what is behind the last one says where
they end.
-/

namespace Manifest

open Region

variable {source : List Char} {bound : Nat} {scan : Scan} {stops : List TokenKind}
  {nesting : Nesting} {token type next : Token} {tokens rest : List Token} {state : ParseState}
  {kind : TokenKind}

namespace RequirementNames

variable {read after : RequirementNames} {last : ParseState} {names : List Node}

/-! ## Single names -/

/-- From a name on, the parse goes on with a later token, and whatever tokens are behind that, the
name is before them. -/
structure Names (source : List Char) (read : RequirementNames) (last : ParseState) : Prop where
  leads : read.state.cursor.LeadsTo last.cursor
  ahead : ∀ token rest, last.next.Sees (token :: rest) →
    Region.name.Ahead source read.state (token :: rest)

/-- The type of class references stands for itself, and no more names are read. -/
structure EndsBare (source : List Char) (read : RequirementNames) (last : ParseState) : Prop where
  type : ∃ type, read.state.token? = some type ∧ type.kind = .identifier ∧
    type.text source = classTypeName
  cursor : last.cursor = read.state.next.cursor
  unindexed : last.isAt .leftBracket = false

theorem names_token (hready : read.state.Ready source bound)
    (htoken : read.state.token? = some token)
    (hkind : token.kind = .string ∨ token.kind = .identifier ∧ token.text source ≠ classTypeName) :
    Names source read read.state where
  leads := .refl _
  ahead := fun _ _ hsees =>
    ⟨[token], (hready.faces htoken hsees).toSees, .plainName hkind⟩

theorem ofClassType_cases (hscan : scan.Crosses source bound)
    (hready : read.state.Ready source bound) (htype : read.state.token? = some type)
    (hkind : type.kind = .identifier) (htext : type.text source = classTypeName) :
    (∃ names last, ofClassType source scan read = afterName names last ∧
      Names source read last) ∨
    ∃ names last, ofClassType source scan read = .done ⟨names, last⟩ ∧
      EndsBare source read last := by
  have hless := hready.remaining_next_lt htype
  have hleads := (ParseState.reads_classReference hready.placed true).leads
  unfold ofClassType
  dsimp only
  cases hread : read.state.classReference source true with
  | mk reference? failed =>
      rw [hread] at hleads
      cases reference? with
      | some reference =>
          refine .inl ⟨_, failed, rfl, read.state.leadsTo_next.trans hleads,
            fun token rest hsees => ?_⟩
          obtain ⟨opening, string, closing, hopening, hfaces, hrow⟩ :=
            Scanning.exists_of_classReference hready htype hread hsees
          exact ⟨type :: opening :: ([string] ++ [closing]), hfaces.toSees,
            .indexedName hkind htext hopening hrow⟩
      | none =>
          dsimp only
          -- the parse goes back to the bracket
          generalize hback : ParseState.next { failed with cursor := read.state.cursor } = bracket
          have hcursor : bracket.cursor = read.state.next.cursor := by
            rw [← hback]
            rfl
          have hremaining : bracket.remaining = read.state.next.remaining :=
            congrArg Cursor.remaining hcursor
          have hbracket : bracket.cursor.Placed source := by
            rw [hcursor]
            exact hready.next.placed
          split
          · rename_i hat
            have hindex := hscan.lays.inside hbracket
              (Nat.lt_of_le_of_lt bracket.remaining_moveNext_le (by omega)) indexStops
            have hway : read.state.cursor.LeadsTo bracket.moveNext.cursor := by
              refine read.state.leadsTo_next.trans ?_
              rw [← hcursor]
              exact bracket.leadsTo_moveNext
            refine .inl ⟨_, _, rfl, hway.trans hindex.leads, fun token rest hsees => ?_⟩
            obtain ⟨opening, closing, row, hopening, hfaces, hrow⟩ :=
              hscan.inside (by decide) hbracket (by omega) hat rfl hsees
            have hbehind := hready.faces htype (hfaces.congr hcursor.symm).toSees
            exact ⟨type :: opening :: (row ++ [closing]), by simpa using hbehind.toSees,
              .indexedName hkind htext hopening hrow⟩
          · rename_i hat
            exact .inr ⟨_, bracket, rfl, ⟨type, htype, hkind, htext⟩, hcursor, by simpa using hat⟩

theorem step_cases (hscan : scan.Crosses source bound)
    (hready : read.state.Ready source bound) :
    (∃ names last, step source scan read = afterName names last ∧ Names source read last) ∨
    (∃ names last, step source scan read = .done ⟨names, last⟩ ∧ EndsBare source read last) ∨
    step source scan read = .done read ∧
      ∀ token, read.state.token? = some token → token.kind ∉ requirementNameKinds := by
  unfold step
  cases htoken : read.state.token? with
  | none => exact .inr (.inr ⟨rfl, fun token h => nomatch h⟩)
  | some token =>
      dsimp only
      split
      · rename_i hstring
        exact .inl ⟨_, read.state, rfl, names_token hready htoken (.inl hstring)⟩
      · rename_i hstring
        split
        · rename_i hname
          split
          · rename_i htext
            rcases ofClassType_cases hscan hready htoken hname htext with h | h
            · exact .inl h
            · exact .inr (.inl h)
          · rename_i htext
            exact .inl ⟨_, read.state, rfl, names_token hready htoken (.inr ⟨hname, htext⟩)⟩
        · rename_i hname
          refine .inr (.inr ⟨rfl, fun other hother => ?_⟩)
          obtain rfl := Option.some.inj hother
          simp [requirementNameKinds, hstring, hname]

/-! ## Rows of names -/

theorem Names.again (h : Names source read last) (hready : read.state.Ready source bound)
    (hstep : afterName names last = .again after) :
    after.state.Ready source bound ∧ after.state.remaining < read.state.remaining ∧
      ∀ place, Crossed source bound Region.names after.state place →
        Crossed source bound Region.names read.state place := by
  have hlast := h.leads.placed hready.placed
  have hle : last.remaining ≤ read.state.remaining := h.leads.remaining_le
  have hnext : last.next.Ready source bound :=
    ⟨ParseState.placed_next hlast, Nat.le_trans last.remaining_next_le (Nat.le_trans hle
      hready.bounded), ParseState.loud_next hlast.begun⟩
  unfold afterName at hstep
  dsimp only at hstep
  split at hstep
  · rename_i hat
    obtain rfl := Progress.again.inj hstep
    obtain ⟨comma, hcomma, hkind⟩ := ParseState.token?_of_isAt hat
    have hless := ParseState.remaining_next_lt hcomma
    have hnextLe := last.remaining_next_le
    refine ⟨hnext.next, show last.next.next.remaining < read.state.remaining by omega,
      fun place hcrossed => ⟨hcrossed.ready, fun next rest hsees => ?_⟩⟩
    obtain ⟨row, hbehind, hrow⟩ := hcrossed.ahead next rest hsees
    obtain ⟨own, hown, hname⟩ := h.ahead comma _ (hnext.faces hcomma hbehind).toSees
    exact ⟨own ++ comma :: row, by simpa using hown, .moreNames hname hkind hrow⟩
  · cases hstep

theorem Names.done (h : Names source read last) (hready : read.state.Ready source bound)
    (hstep : afterName names last = .done after) :
    Crossed source bound Region.names read.state after.state := by
  have hlast := h.leads.placed hready.placed
  have hloud := ParseState.loud_next hlast.begun
  unfold afterName at hstep
  dsimp only at hstep
  split at hstep
  · cases hstep
  · rename_i hat
    obtain rfl := Progress.done.inj hstep
    refine ⟨⟨ParseState.placed_next hlast, Nat.le_trans (Nat.le_trans last.remaining_next_le
      h.leads.remaining_le) hready.bounded, hloud⟩, fun next rest hsees => ?_⟩
    have hfaces : last.next.Faces (next :: rest) := hloud.faces hsees
    obtain ⟨own, hown, hname⟩ := h.ahead next rest hsees
    refine ⟨own, hown, .lastName hname fun h => ?_⟩
    rw [hfaces.isAt, h] at hat
    exact hat rfl

theorem EndsBare.crossed (h : EndsBare source read last) (hready : read.state.Ready source bound) :
    Crossed source bound Region.names read.state last := by
  obtain ⟨type, htype, hkind, htext⟩ := h.type
  have hlast : last.Ready source bound := hready.next.congr h.cursor
  refine ⟨hlast, fun next rest hsees => ?_⟩
  have hfaces := hlast.loud.faces hsees
  have hnext := hfaces.congr h.cursor.symm
  refine ⟨[type], (hready.faces htype hnext.toSees).toSees, .bareType hkind htext fun h' => ?_⟩
  have hat := hfaces.isAt .leftBracket
  rw [h.unindexed, h'] at hat
  cases hat

/-- What is read for names are names. -/
theorem crossed_readAll (hscan : scan.Crosses source bound) (hready : state.Ready source bound) :
    Crossed source bound Region.names state (readAll source scan state).state := by
  refine crossed_iterate (fun read : RequirementNames => read.state.Ready source bound)
    RequirementNames.state RequirementNames.state (fun _ => Region.names)
    (fun read after hready hstep => ?_) (fun read last hready hstep => ?_)
    (state.remaining + 1) ⟨[], state⟩ hready (Nat.lt_succ_self _)
  · rcases step_cases hscan hready with
      ⟨names, last, hread, hnames⟩ | ⟨names, last, hread, -⟩ | ⟨hread, -⟩
    · exact hnames.again hready (hread.symm.trans hstep)
    · cases hread.symm.trans hstep
    · cases hread.symm.trans hstep
  · rcases step_cases hscan hready with
      ⟨names, place, hread, hnames⟩ | ⟨names, place, hread, hbare⟩ | ⟨hread, hkind⟩
    · exact hnames.done hready (hread.symm.trans hstep)
    · obtain rfl := Progress.done.inj (hread.symm.trans hstep)
      exact hbare.crossed hready
    · obtain rfl := Progress.done.inj (hread.symm.trans hstep)
      exact ⟨hready, fun next rest hsees =>
        ⟨[], hsees, .noName (hkind next (hready.loud.faces hsees).token?)⟩⟩

end RequirementNames

/-! ## Requirements -/

namespace ParseState

variable {word : Token} {names : List Node} {consumed : Bool} {last : ParseState}

theorem isTrivia_of_listClosing? {opening : TokenKind} (h : listClosing? opening = some kind) :
    kind.isTrivia = false := by
  revert h
  cases opening <;> rintro ⟨⟩ <;> rfl

/-- The names of a list, and what is left before the bracket that closes it. -/
theorem exists_of_bracketedNames (hscan : scan.Crosses source bound)
    (hready : state.Ready source bound) (hbound : state.next.remaining < bound)
    (hkind : kind.isTrivia = false)
    (hend : (state.bracketedNames source scan kind).2.next.Sees (next :: rest)) :
    ∃ names row closing, state.next.Sees (names ++ (row ++ closing :: next :: rest)) ∧
      (Region.names (row.headD closing)).Contains source names ∧
      (stretch [kind] closing).Contains source row := by
  have hnames := RequirementNames.crossed_readAll hscan hready.next
  have hle :=
    (RequirementNames.reads_readAll hscan.lays hready.next.bounded hready.next.placed).remaining_le
  unfold bracketedNames at hend
  dsimp only at hend
  split at hend
  · have hstops : ∀ stop ∈ [kind], stop.isTrivia = false := by simpa using hkind
    obtain ⟨closing, hahead⟩ :=
      hscan.closing hstops hnames.ready.placed (by omega) (Nat.le_refl _) hend
    obtain ⟨row, behind, hbehind, hsees, hrow⟩ := hahead.first
    obtain ⟨names, hsees, hcontains⟩ := hnames.ahead _ _ hsees
    rw [← hbehind] at hsees
    exact ⟨names, row, closing, hsees, hcontains, hrow⟩
  · rename_i hstops
    obtain ⟨closing, hclosing⟩ := exists_token?_of_next hnames.ready.placed.begun hend
    have hat : (RequirementNames.readAll source scan state.next).state.isAt kind = true := by
      rw [hclosing] at hstops
      simpa using hstops
    obtain ⟨closing, hclosingKind, hfaces⟩ := faces_of_isAt hnames.ready.placed.begun hat hkind hend
    obtain ⟨names, hsees, hcontains⟩ := hnames.ahead _ _ hfaces.toSees
    exact ⟨names, [], closing, hsees, hcontains, .stretch .nothing rfl (by simp [hclosingKind])⟩

/-- A requirement takes its names, and the brackets around them if there are any. -/
theorem ahead_requirementNames (hscan : scan.Crosses source bound)
    (hready : state.Ready source bound) (hword : state.token? = some word)
    (hkind : word.kind ∈ requirementKinds)
    (hread : state.requirementNames source scan = (names, consumed, last))
    (hend : (if consumed then last.next else last).Sees (next :: rest)) :
    (construct stops nesting next).Ahead source state (next :: rest) := by
  have hless := hready.remaining_next_lt hword
  have hbare : ∀ row, state.next.Sees (row ++ next :: rest) →
      (Region.names next).Contains source row →
      (∀ kind, state.next.kind? = some kind → listClosing? kind = none) →
      (construct stops nesting next).Ahead source state (next :: rest) := by
    intro row hsees hrow hnone
    obtain ⟨behind, hbehind⟩ := exists_headD_cons row next rest
    have hfirst := hsees
    rw [hbehind] at hfirst
    exact ⟨word :: row, (hready.faces hword hsees).toSees,
      .requirement hkind hrow (hnone _ (hready.next.loud.faces hfirst).kind?)⟩
  unfold requirementNames at hread
  dsimp only at hread
  split at hread
  · rename_i hnone
    obtain ⟨-, rfl, rfl⟩ := hread
    exact (hend.token?_ne_none (Option.map_eq_none_iff.1 hnone)).elim
  · rename_i kind hfollowing
    have hsame : ∀ other, state.next.kind? = some other → other = kind := fun other hother =>
      Option.some.inj (hother.symm.trans hfollowing)
    split at hread
    · rename_i hname
      obtain ⟨-, rfl, rfl⟩ := hread
      obtain ⟨row, hsees, hrow⟩ :=
        (RequirementNames.crossed_readAll hscan hready.next).ahead next rest hend
      refine hbare row hsees hrow fun other hother => ?_
      obtain rfl := hsame other hother
      revert hname
      cases other <;> first | exact fun _ => rfl | exact fun h => absurd h (by decide)
    · rename_i hname
      split at hread
      · rename_i hnone
        obtain ⟨-, rfl, rfl⟩ := hread
        refine hbare [] hend (.noName fun h => hname ?_) fun other hother => ?_
        · have hfaces := hready.next.loud.faces hend
          rw [← hsame _ hfaces.kind?]
          simpa using h
        · rw [hsame other hother]
          exact hnone
      · rename_i closing hclosing
        obtain ⟨-, rfl, rfl⟩ := hread
        split at hend
        · obtain ⟨opening, hopening, hopeningKind⟩ := Option.map_eq_some_iff.1 hfollowing
          have hbracket := remaining_next_lt hopening
          obtain ⟨names, row, bracket, hsees, hnames, hrow⟩ :=
            exists_of_bracketedNames hscan hready.next (by omega)
              (isTrivia_of_listClosing? hclosing) hend
          have hall := hready.faces hword (hready.next.faces hopening hsees).toSees
          rw [← hopeningKind] at hclosing
          exact ⟨word :: opening :: (names ++ (row ++ [bracket])), by simpa using hall.toSees,
            .requirementList hkind hclosing hnames hrow⟩
        · rename_i hnone
          exact (hend.token?_ne_none (by simpa using hnone)).elim

end ParseState

theorem Scanning.ahead_requirementAt {scanning : Scanning} (hscan : scan.Crosses source bound)
    (hready : scanning.state.Ready source bound) (htoken : scanning.state.token? = some token)
    (hkind : token.kind ∈ requirementKinds)
    (hend : (scanning.requirementAt source scan token).state.Sees (next :: rest)) :
    (construct stops nesting next).Ahead source scanning.state (next :: rest) := by
  unfold requirementAt ParseState.requirementAt at hend
  cases hread : scanning.state.requirementNames source scan with
  | mk names last =>
      rcases last with ⟨consumed, last⟩
      refine ParseState.ahead_requirementNames hscan hready htoken hkind hread ?_
      rw [hread] at hend
      revert hend
      cases consumed <;> exact id

end Manifest
