import Manifest.Proofs.Forms.Resources
import Manifest.Proofs.Regions.Constructs

/-!
# Resources and their bodies

The body of a resource is read one token at a time, but for its title and its values, so it ends
on the first closing brace outside of these.  Without a title or a colon it is a stretch.
-/

namespace Manifest

namespace Region

variable {source : List Char} {stops : List TokenKind} {nesting : Nesting} {type : List Char}
  {name opening closing colon arrow token next : Token} {own title value row rest : List Token}

/-! ## Attributes -/

theorem reads_noAttributes (hclosing : closing.kind = .rightBrace) :
    (attributes closing).Reads source [] := by
  intro read rest fuel _ hfaces hfuel
  obtain ⟨fuel, rfl⟩ := Nat.exists_eq_succ_of_ne_zero (Nat.ne_zero_of_lt hfuel)
  have hrow : read.state.Faces (closing :: rest) := hfaces
  have hdone : ResourceAttributes.step source (Manifest.scan source) read = .done read := by
    unfold ResourceAttributes.step
    rw [hrow.token?]
    exact if_pos hclosing
  rw [Nat.succ_eq_add_one, iterate_done hdone]
  exact hrow

/-- Any token but a closing brace or an arrow is passed over, brackets like the others. -/
theorem reads_attributeToken (hbrace : token.kind ≠ .rightBrace)
    (harrow : token.kind ≠ .paramAssign) (hrow : (attributes closing).Reads source row) :
    (attributes closing).Reads source (token :: row) := by
  intro read rest fuel hplaced hfaces hfuel
  obtain ⟨fuel, rfl⟩ := Nat.exists_eq_succ_of_ne_zero (Nat.ne_zero_of_lt hfuel)
  have htoken : read.state.Faces (token :: (row ++ closing :: rest)) := hfaces
  have hstep : ∃ after, ResourceAttributes.step source (Manifest.scan source) read =
      .again after ∧ after.state = read.state.next := by
    unfold ResourceAttributes.step
    rw [htoken.token?]
    dsimp only
    rw [if_neg hbrace, if_neg harrow]
    split
    · exact ⟨_, rfl, rfl⟩
    · exact ⟨_, rfl, rfl⟩
  obtain ⟨after, hstep, hafter⟩ := hstep
  rw [Nat.succ_eq_add_one, iterate_again hstep]
  refine hrow after rest fuel ?_ ?_ (Nat.lt_of_succ_lt_succ hfuel)
  · rw [hafter]
    exact ParseState.placed_next hplaced
  · rw [hafter]
    exact htoken.next

theorem reads_attributeValue (harrow : arrow.kind = .paramAssign)
    (hvalue : (stretch attributeValueStops (row.headD closing)).Reads source value)
    (hrow : (attributes closing).Reads source row) :
    (attributes closing).Reads source (arrow :: (value ++ row)) := by
  intro read rest fuel hplaced hfaces hfuel
  obtain ⟨fuel, rfl⟩ := Nat.exists_eq_succ_of_ne_zero (Nat.ne_zero_of_lt hfuel)
  have harrowed : read.state.Faces (arrow :: (value ++ (row ++ closing :: rest))) := by
    simpa using hfaces
  obtain ⟨behind, hbehind⟩ := exists_headD_cons row closing rest
  have hinside := harrowed.next
  rw [hbehind] at hinside
  obtain ⟨hlast, hplacedLast⟩ := hvalue.here (by decide) (ParseState.placed_next hplaced) hinside
  rw [← hbehind] at hlast
  have hstep : ∃ after, ResourceAttributes.step source (Manifest.scan source) read =
      .again after ∧ after.state =
        ((Manifest.scan source).here source attributeValueStops read.state.next).2 := by
    unfold ResourceAttributes.step
    rw [harrowed.token?]
    dsimp only
    rw [if_neg (by rw [harrow]; decide), if_pos harrow]
    exact ⟨_, rfl, rfl⟩
  obtain ⟨after, hstep, hafter⟩ := hstep
  rw [← hafter] at hlast hplacedLast
  rw [Nat.succ_eq_add_one, iterate_again hstep]
  refine hrow after rest fuel hplacedLast hlast ?_
  rw [List.length_cons, List.length_append] at hfuel
  omega

/-- The body of a resource ends where its attributes do. -/
theorem faces_resourceBody {state : ParseState} (hplaced : state.cursor.Placed source)
    (hfaces : state.next.Faces (row ++ closing :: rest))
    (hrow : (attributes closing).Reads source row) (type : List Char) (offset : Nat)
    (title? : Option Node) :
    (state.resourceBody source (Manifest.scan source) type offset title?).2.Faces
      (closing :: rest) := by
  have hlength := hfaces.toSees.length_le
  rw [List.length_append] at hlength
  have hread := hrow ⟨[], none, none, state.next⟩ rest (state.next.remaining + 1)
    (ParseState.placed_next hplaced) hfaces (by omega)
  unfold ParseState.resourceBody ResourceAttributes.readAll
  dsimp only
  rw [ResourceAttributes.state_close]
  exact hread

/-! ## Titles -/

theorem reads_titleWord (htoken : token.kind ∈ titleKinds) (hword : token.kind ≠ .leftBracket) :
    Region.title.Reads source [token] := by
  intro state rest type hplaced hfaces
  have hrow : state.Faces (token :: rest) := hfaces
  have hform : (TitleForm.word token).WellFormed := by
    have hkinds : ∀ kind ∈ titleKinds, kind ≠ .leftBracket →
        kind ∈ [TokenKind.string, .identifier, .kwDefault, .variable] := by decide
    exact hkinds _ htoken hword
  have hshown : ∃ node, state.resourceTitle source (Manifest.scan source) type token =
      (some node, state) ∧ (TitleForm.word token).Shown source type node :=
    ParseState.resourceTitle_word hform (Manifest.scan source) type
  obtain ⟨node, htitle, -⟩ := hshown
  exact ⟨token, node, state, hrow.token?, htitle, hrow.next, hplaced⟩

theorem reads_titleList (hopening : opening.kind = .leftBracket)
    (hrow : (stretch indexStops closing).Reads source row) :
    Region.title.Reads source (opening :: (row ++ [closing])) := by
  intro state rest type hplaced hfaces
  have hlist : state.Faces (opening :: (row ++ closing :: rest)) := by simpa using hfaces
  have hoffset : opening.offset ≤ state.moveNext.offset source := by
    have hstart : state.offset source = opening.offset := hlist.offset
    rw [← hstart]
    exact state.leadsTo_moveNext.offset_le hplaced
  have hplacedMove := ParseState.placed_moveNext hplaced
  have hlast := hrow state.moveNext opening.offset rest (by decide) hplacedMove hoffset
    hlist.moveNext
  refine ⟨opening, (Manifest.scan source opening.offset indexStops state.moveNext).1, _,
    hlist.token?, ?_, hlast.next, Scan.placed_scan _ hplacedMove hoffset⟩
  unfold ParseState.resourceTitle
  rw [hopening]

/-! ## Resources -/

theorem reads_untitled (htype : startsWithCapital type = true)
    (hrow : (attributes closing).Reads source row) :
    (resource type closing).Reads source row := by
  intro state offset rest hplaced hfaces
  unfold ParseState.resource
  rw [if_pos htype]
  exact faces_resourceBody hplaced hfaces hrow type offset none

theorem resource_of_title {state : ParseState} (htype : startsWithCapital type = false)
    (hplaced : state.cursor.Placed source) (htitle : Region.title.Reads source title)
    (hfaces : state.next.Faces (title ++ rest)) (offset : Nat) :
    ∃ (node : Node) (last : ParseState), last.next.Faces rest ∧ last.cursor.Placed source ∧
      (state.resource source (Manifest.scan source) type offset).2 =
        if last.next.isAt .colon then
          (last.next.resourceBody source (Manifest.scan source) type offset (some node)).2
        else if last.next.token?.isSome then
          ((last.next.reportHere source .missingTitleColon).restOfBody source
            (Manifest.scan source)).2
        else last.next.reportHere source .missingTitleColon := by
  obtain ⟨token, node, last, htoken, hread, hlast, hplacedLast⟩ :=
    htitle state.next rest type (ParseState.placed_next hplaced) hfaces
  refine ⟨node, last, hlast, hplacedLast, ?_⟩
  unfold ParseState.resource
  rw [if_neg (by rw [htype]; decide)]
  dsimp only
  rw [htoken]
  dsimp only
  rw [hread]
  dsimp only
  split
  · rfl
  · split <;> rfl

theorem reads_titled (htype : startsWithCapital type = false)
    (htitle : Region.title.Reads source title) (hcolon : colon.kind = .colon)
    (hrow : (attributes closing).Reads source row) :
    (resource type closing).Reads source (title ++ colon :: row) := by
  intro state offset rest hplaced hfaces
  have htitled : state.next.Faces (title ++ colon :: (row ++ closing :: rest)) := by
    simpa using hfaces
  obtain ⟨node, last, hlast, hplacedLast, hread⟩ :=
    resource_of_title htype hplaced htitle htitled offset
  have hat : last.next.isAt .colon = true := by
    rw [hlast.isAt, hcolon]
    rfl
  rw [hread, if_pos hat]
  exact faces_resourceBody (ParseState.placed_next hplacedLast) hlast.next hrow type offset _

/-- What is left of a body is read as a stretch, whatever was reported before. -/
theorem faces_restOfBody {state reported : ParseState} (hplaced : state.cursor.Placed source)
    (hfaces : state.Faces (row ++ closing :: rest))
    (hrow : (stretch bodyStops closing).Reads source row)
    (hcursor : reported.cursor = state.cursor) :
    (reported.restOfBody source (Manifest.scan source)).2.Faces (closing :: rest) := by
  have hplacedReported : reported.cursor.Placed source := by rwa [hcursor]
  exact (hrow.here (by decide) hplacedReported (hfaces.congr hcursor)).1

theorem reads_noColon (htype : startsWithCapital type = false)
    (htitle : Region.title.Reads source title) (hcolon : (row.headD closing).kind ≠ .colon)
    (hrow : (stretch bodyStops closing).Reads source row) :
    (resource type closing).Reads source (title ++ row) := by
  intro state offset rest hplaced hfaces
  have htitled : state.next.Faces (title ++ (row ++ closing :: rest)) := by
    simpa using hfaces
  obtain ⟨node, last, hlast, hplacedLast, hread⟩ :=
    resource_of_title htype hplaced htitle htitled offset
  have hhead := hlast.token?_headD
  have hat : last.next.isAt .colon = false := by
    unfold ParseState.isAt ParseState.kind? Cursor.kind?
    rw [show last.next.cursor.token? = _ from hhead]
    exact beq_eq_false_iff_ne.2 fun h => hcolon (Option.some.inj h)
  rw [hread, hat, if_neg Bool.false_ne_true, hhead, Option.isSome_some, if_pos rfl]
  exact faces_restOfBody (ParseState.placed_next hplacedLast) hlast hrow
    (ParseState.cursor_reportHere _ _ _)

theorem reads_noTitle (htype : startsWithCapital type = false)
    (htitle : (row.headD closing).kind ∉ titleKinds)
    (hrow : (stretch bodyStops closing).Reads source row) :
    (resource type closing).Reads source row := by
  intro state offset rest hplaced hfaces
  have hnone : state.next.resourceTitle source (Manifest.scan source) type (row.headD closing) =
      (none, state.next) := by
    unfold ParseState.resourceTitle
    revert htitle
    cases (row.headD closing).kind <;>
      first | exact fun _ => rfl | exact fun h => absurd h (by decide)
  unfold ParseState.resource
  rw [if_neg (by rw [htype]; decide)]
  dsimp only
  rw [hfaces.token?_headD]
  dsimp only
  rw [hnone]
  exact faces_restOfBody (ParseState.placed_next hplaced) hfaces hrow
    (ParseState.cursor_report _ _ _)

theorem reads_resource (hname : name.kind = .identifier ∨ name.kind = .kwClass)
    (hopening : opening.kind = .leftBrace) (hopens : nesting.opensBlocks stops = true)
    (hrow : (resource (name.text source) closing).Reads source row) :
    (construct stops nesting next).Reads source (name :: opening :: (row ++ [closing])) := by
  intro scanning rest hstops hplaced hnesting hfaces
  have hinside : scanning.state.Faces (name :: opening :: (row ++ closing :: next :: rest)) := by
    simpa using hfaces
  have hword : name.kind ∈ wordKinds := by
    rcases hname with h | h <;> rw [h] <;> decide
  refine exists_step_word hstops (.inl hword) hinside hnesting ?_
  have hkeeps : scanning.nesting.keepsNames = false ∧
      scanning.endsAt stops .leftBrace = false := by
    unfold Nesting.opensBlocks at hopens
    unfold Scanning.endsAt
    rw [hnesting]
    revert hopens
    cases nesting.keepsNames <;> cases nesting.isActive <;> simp
  have happlied : scanning.applied? source (Manifest.scan source) name = none :=
    Scanning.applied?_eq_none hinside (by rw [hopening]; decide)
      (fun _ => by rw [hopening]; decide) _
  rw [Scanning.significantAt_name hname happlied,
    Scanning.nameAt_of_leftBrace hinside.next.token? hopening hkeeps.2 hkeeps.1 rfl]
  exact (hrow _ _ _ (ParseState.placed_next hplaced) hinside.next.next).next.toSees

end Region

end Manifest
