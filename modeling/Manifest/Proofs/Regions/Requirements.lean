import Manifest.Proofs.Forms.Requirements
import Manifest.Proofs.Regions.Constructs

/-!
# Requirements and their names

The names of a requirement are read one by one, each with its index, and what is left in the
brackets of a list is passed over as a stretch.
-/

namespace Manifest

namespace Region

variable {source : List Char} {stops : List TokenKind} {nesting : Nesting}
  {word opening closing token type comma next : Token} {own names row rest : List Token}
  {state : ParseState} {kind : TokenKind}

/-! ## Single names -/

theorem reads_plainName (htoken : token.kind = .string ∨
    token.kind = .identifier ∧ token.text source ≠ classTypeName) :
    Region.name.Reads source [token] := by
  intro state names rest hplaced hfaces
  have hrow : state.Faces (token :: rest) := hfaces
  unfold RequirementNames.step
  dsimp only
  rw [hrow.token?]
  dsimp only
  rcases htoken with hstring | ⟨hkind, htext⟩
  · rw [if_pos hstring]
    exact ⟨_, state, rfl, hrow.next, hplaced⟩
  · rw [if_neg (by rw [hkind]; decide), if_pos hkind, if_neg htext]
    exact ⟨_, state, rfl, hrow.next, hplaced⟩

theorem reads_indexedName (htype : type.kind = .identifier)
    (htext : type.text source = classTypeName) (hopening : opening.kind = .leftBracket)
    (hrow : (stretch indexStops closing).Reads source row) :
    Region.name.Reads source (type :: opening :: (row ++ [closing])) := by
  intro state names rest hplaced hfaces
  have hinside : state.Faces (type :: opening :: (row ++ closing :: rest)) := by
    simpa using hfaces
  unfold RequirementNames.step
  dsimp only
  rw [hinside.token?]
  dsimp only
  rw [if_neg (by rw [htype]; decide), if_pos htype, if_pos htext]
  unfold RequirementNames.ofClassType
  dsimp only
  have hplacedLast := (ParseState.reads_classReference hplaced true).placed_after
  cases hread : state.classReference source true with
  | mk reference? failed =>
      rw [hread] at hplacedLast
      cases reference? with
      | some reference =>
          exact ⟨_, failed, rfl, (faces_classReference hplaced hinside hrow hread).next,
            hplacedLast⟩
      | none =>
          dsimp only
          -- the parse goes back to the bracket
          have hbracket : (ParseState.next { failed with cursor := state.cursor }).Faces
              (opening :: (row ++ closing :: rest)) := hinside.next.congr rfl
          have hat : (ParseState.next { failed with cursor := state.cursor }).isAt .leftBracket =
              true := by
            rw [hbracket.isAt, hopening]
            rfl
          rw [if_pos hat]
          have hplacedBracket :
              (ParseState.next { failed with cursor := state.cursor }).cursor.Placed source :=
            ParseState.placed_next hplaced
          obtain ⟨hlast, hplacedIndex⟩ := hrow.inside (by decide) hplacedBracket hbracket
          exact ⟨_, _, rfl, hlast.next, hplacedIndex⟩

/-! ## Rows of names -/

theorem reads_noName (hnext : next.kind ∉ requirementNameKinds) :
    (Region.names next).Reads source [] := by
  intro read rest fuel hplaced hfaces hfuel
  obtain ⟨fuel, rfl⟩ := Nat.exists_eq_succ_of_ne_zero (Nat.ne_zero_of_lt hfuel)
  have hrow : read.state.Faces (next :: rest) := hfaces
  have hdone : RequirementNames.step source (Manifest.scan source) read = .done read := by
    refine RequirementNames.step_of_end hrow (fun token htoken => ?_) _
    obtain rfl := Option.some.inj htoken
    simpa using hnext
  rw [Nat.succ_eq_add_one, iterate_done hdone]
  exact ⟨hrow, hplaced⟩

theorem reads_lastName (hown : Region.name.Reads source own) (hnext : next.kind ≠ .comma) :
    (Region.names next).Reads source own := by
  intro read rest fuel hplaced hfaces hfuel
  obtain ⟨fuel, rfl⟩ := Nat.exists_eq_succ_of_ne_zero (Nat.ne_zero_of_lt hfuel)
  obtain ⟨more, last, hstep, hlast, hplacedLast⟩ := hown read.state read.names _ hplaced hfaces
  have hend : RequirementNames.afterName more last = .done ⟨more, last.next⟩ := by
    refine RequirementNames.afterName_of_end hlast (fun token htoken => ?_)
    obtain rfl := Option.some.inj htoken
    exact hnext
  rw [Nat.succ_eq_add_one, iterate_done (hstep.trans hend)]
  exact ⟨hlast, ParseState.placed_next hplacedLast⟩

theorem reads_moreNames (hown : Region.name.Reads source own) (hcomma : comma.kind = .comma)
    (hrow : (Region.names next).Reads source row) :
    (Region.names next).Reads source (own ++ comma :: row) := by
  intro read rest fuel hplaced hfaces hfuel
  obtain ⟨fuel, rfl⟩ := Nat.exists_eq_succ_of_ne_zero (Nat.ne_zero_of_lt hfuel)
  have hname : read.state.Faces (own ++ comma :: (row ++ next :: rest)) := by
    simpa using hfaces
  obtain ⟨more, last, hstep, hlast, hplacedLast⟩ := hown read.state read.names _ hplaced hname
  rw [Nat.succ_eq_add_one,
    iterate_again (hstep.trans (RequirementNames.afterName_of_comma hlast hcomma))]
  refine hrow _ _ _ (ParseState.placed_next (ParseState.placed_next hplacedLast)) hlast.next ?_
  rw [List.length_append, List.length_cons] at hfuel
  omega

/-- The type of class references ends the names if it has no index. -/
theorem reads_bareType (htype : type.kind = .identifier) (htext : type.text source = classTypeName)
    (hnext : next.kind ≠ .leftBracket) : (Region.names next).Reads source [type] := by
  intro read rest fuel hplaced hfaces hfuel
  obtain ⟨fuel, rfl⟩ := Nat.exists_eq_succ_of_ne_zero (Nat.ne_zero_of_lt hfuel)
  have hrow : read.state.Faces (type :: next :: rest) := hfaces
  have hread : read.state.classReference source true =
      read.state.next.malformedReference source true := by
    have hbracket : read.state.next.isAt .leftBracket = false :=
      (hrow.next.isAt _).trans (beq_eq_false_iff_ne.2 hnext)
    unfold ParseState.classReference
    dsimp only
    rw [hbracket]
    rfl
  have hback : ∀ failed : ParseState,
      (ParseState.next { failed with cursor := read.state.cursor }).Faces (next :: rest) :=
    fun failed => hrow.next.congr rfl
  have hbracket : ∀ failed : ParseState,
      (ParseState.next { failed with cursor := read.state.cursor }).isAt .leftBracket = false :=
    fun failed => ((hback failed).isAt _).trans (beq_eq_false_iff_ne.2 hnext)
  have hdone : ∃ failed : ParseState, RequirementNames.step source (Manifest.scan source) read =
      .done ⟨read.names, ParseState.next { failed with cursor := read.state.cursor }⟩ := by
    unfold RequirementNames.step
    rw [hrow.token?]
    dsimp only
    rw [if_neg (by rw [htype]; decide), if_pos htype, if_pos htext]
    unfold RequirementNames.ofClassType
    rw [hread]
    unfold ParseState.malformedReference
    dsimp only
    rw [hbracket]
    exact ⟨_, rfl⟩
  obtain ⟨failed, hdone⟩ := hdone
  rw [Nat.succ_eq_add_one, iterate_done hdone]
  exact ⟨hback failed, ParseState.placed_next hplaced⟩

/-! ## Requirements -/

theorem requirementNames_bare (hplaced : state.cursor.Placed source)
    (hfaces : state.Faces (word :: (names ++ next :: rest)))
    (hnames : (Region.names next).Reads source names)
    (hbare : ParseState.listClosing? (names.headD next).kind = none) :
    (state.requirementNames source (Manifest.scan source)).2.1 = false ∧
      (state.requirementNames source (Manifest.scan source)).2.2.Faces (next :: rest) := by
  have hrow := hfaces.next
  have hlength := hrow.toSees.length_le
  rw [List.length_append] at hlength
  obtain ⟨hread, -⟩ := hnames ⟨[], state.next⟩ rest (state.next.remaining + 1)
    (ParseState.placed_next hplaced) hrow (by omega)
  have hkind : state.next.kind? = some (names.headD next).kind :=
    congrArg (Option.map Token.kind) hrow.token?_headD
  unfold ParseState.requirementNames
  dsimp only
  rw [hkind]
  dsimp only
  split
  · exact ⟨rfl, hread⟩
  · rename_i hother
    rw [hbare]
    -- no name stands there, so the row of names is empty
    obtain ⟨behind, hbehind⟩ := exists_headD_cons names next rest
    rw [hbehind] at hrow
    have hdone : RequirementNames.step source (Manifest.scan source) ⟨[], state.next⟩ =
        .done ⟨[], state.next⟩ := by
      refine RequirementNames.step_of_end hrow (fun token htoken => ?_) _
      obtain rfl := Option.some.inj htoken
      simpa using hother
    rw [iterate_done hdone] at hread
    exact ⟨rfl, hread⟩

theorem category_of_requirement {kind : TokenKind} (h : kind ∈ requirementKinds) :
    kind.category = .function := by
  revert h
  cases kind <;> decide

theorem reads_requirement (hword : word.kind ∈ requirementKinds)
    (hnames : (Region.names next).Reads source names)
    (hbare : ParseState.listClosing? (names.headD next).kind = none) :
    (construct stops nesting next).Reads source (word :: names) := by
  intro scanning rest hstops hplaced hnesting hfaces
  have hrow : scanning.state.Faces (word :: (names ++ next :: rest)) := hfaces
  obtain ⟨hconsumed, hlast⟩ := requirementNames_bare hplaced hrow hnames hbare
  refine exists_step_word hstops (.inr (category_of_requirement hword)) hrow hnesting ?_
  rw [Scanning.significantAt_requirement hword]
  unfold Scanning.requirementAt ParseState.requirementAt
  dsimp only
  rw [hconsumed]
  exact hlast.toSees

theorem scan_of_stop {offset : Nat} (hplaced : state.cursor.Placed source)
    (hoffset : offset ≤ state.offset source) (htoken : state.token? = some token)
    (hstop : stops.contains token.kind = true) :
    (Manifest.scan source offset stops state).2 = state := by
  have hdone : (Scanning.begin state).Ends source stops := by
    refine Scanning.ends_iff.2 fun other hother => ?_
    obtain rfl := Option.some.inj (htoken.symm.trans hother)
    exact ⟨hstop, rfl⟩
  rw [(Scanning.Reaches.here (Scanning.begin state)).scan_eq hdone hplaced hoffset]
  rfl

/-- What is left in the brackets of a list is passed over, up to the token that closes them. -/
theorem requirementNames_list (hplaced : state.cursor.Placed source)
    (hfaces : state.Faces (word :: opening :: (names ++ (row ++ closing :: rest))))
    (hopening : ParseState.listClosing? opening.kind = some kind)
    (hnames : (Region.names (row.headD closing)).Reads source names)
    (hrow : (stretch [kind] closing).Reads source row) :
    (state.requirementNames source (Manifest.scan source)).2.1 = true ∧
      (state.requirementNames source (Manifest.scan source)).2.2.Faces (closing :: rest) := by
  have hkinds : requirementNameKinds.contains opening.kind = false ∧
      ∀ stop ∈ [kind], stop ∈ runStops := by
    revert hopening
    cases opening.kind <;> rintro ⟨⟩ <;> decide
  obtain ⟨behind, hbehind⟩ := exists_headD_cons row closing rest
  have hlist := hfaces.next.next
  have hlength := hlist.toSees.length_le
  rw [List.length_append] at hlength
  rw [hbehind] at hlist
  obtain ⟨hread, hplacedRead⟩ := hnames ⟨[], state.next.next⟩ behind
    (state.next.next.remaining + 1) (ParseState.placed_next (ParseState.placed_next hplaced)) hlist
    (by omega)
  rw [← hbehind] at hread
  have hrest := (hrow.here hkinds.2 hplacedRead hread).1
  have hkind : state.next.kind? = some opening.kind := hfaces.next.kind?
  have hbracketed : (state.next.bracketedNames source (Manifest.scan source) kind).2.Faces
      (closing :: rest) := by
    unfold ParseState.bracketedNames RequirementNames.readAll
    dsimp only
    split
    · exact hrest
    · rename_i hends
      -- the names end on the closing bracket, where a scan would end as well
      have hfirst := hread.token?_headD
      rw [hfirst, Option.isSome_some, Bool.and_true, Bool.not_eq_true, Bool.not_eq_false'] at hends
      obtain ⟨stop, hstop, hstopKind⟩ := ParseState.token?_of_isAt hends
      have hcontains : [kind].contains stop.kind = true := by
        rw [hstopKind]
        exact List.contains_iff_mem.2 (List.mem_singleton_self _)
      have hsame := scan_of_stop hplacedRead (Nat.le_refl _) hstop hcontains
      unfold Scan.here at hrest
      rwa [hsame] at hrest
  unfold ParseState.requirementNames
  dsimp only
  rw [hkind]
  dsimp only
  rw [hkinds.1, if_neg Bool.false_ne_true, hopening]
  dsimp only
  rw [hbracketed.token?]
  exact ⟨rfl, hbracketed⟩

theorem reads_requirementList (hword : word.kind ∈ requirementKinds)
    (hopening : ParseState.listClosing? opening.kind = some kind)
    (hnames : (Region.names (row.headD closing)).Reads source names)
    (hrow : (stretch [kind] closing).Reads source row) :
    (construct stops nesting next).Reads source
      (word :: opening :: (names ++ (row ++ [closing]))) := by
  intro scanning rest hstops hplaced hnesting hfaces
  have hlist : scanning.state.Faces
      (word :: opening :: (names ++ (row ++ closing :: next :: rest))) := by
    simpa using hfaces
  obtain ⟨hconsumed, hlast⟩ := requirementNames_list hplaced hlist hopening hnames hrow
  refine exists_step_word hstops (.inr (category_of_requirement hword)) hlist hnesting ?_
  rw [Scanning.significantAt_requirement hword]
  unfold Scanning.requirementAt ParseState.requirementAt
  dsimp only
  rw [hconsumed]
  exact hlast.next.toSees

end Region

end Manifest
