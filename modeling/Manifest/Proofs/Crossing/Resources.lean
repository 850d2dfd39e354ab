import Manifest.Proofs.Crossing.Constructs
import Manifest.Proofs.Regions.Resources

/-!
# Resources that a scan has come over

A resource ends on a closing brace, if it ends at all.  What is before that brace is a title with
its attributes, or a stretch.
-/

namespace Manifest

open Region

variable {source : List Char} {bound : Nat} {scan : Scan} {token : Token} {state last : ParseState}

/-! ## Attributes -/

namespace ResourceAttributes

variable {read after : ResourceAttributes}

theorem crossed_again (hscan : scan.Crosses source bound) (hready : read.state.Ready source bound)
    (hstep : step source scan read = .again after) :
    after.state.Ready source bound ∧ after.state.remaining < read.state.remaining ∧
      ∀ last, Crossed source bound Region.attributes after.state last →
        Crossed source bound Region.attributes read.state last := by
  unfold step at hstep
  split at hstep
  · cases hstep
  · rename_i token htoken
    have hless := ParseState.remaining_next_lt htoken
    split at hstep
    · cases hstep
    · rename_i hbrace
      dsimp only at hstep
      -- any token but an arrow is passed over by itself
      have hover : token.kind ≠ .paramAssign → read.state.next.Ready source bound ∧
          read.state.next.remaining < read.state.remaining ∧
          ∀ last, Crossed source bound Region.attributes read.state.next last →
            Crossed source bound Region.attributes read.state last :=
        fun harrow => ⟨hready.next, hless, fun last hcrossed =>
          hcrossed.cons hready htoken fun _ _ => .attributeToken hbrace harrow⟩
      split at hstep
      · rename_i harrow
        obtain rfl := Progress.again.inj hstep
        have hbound := hready.remaining_next_lt htoken
        obtain ⟨hvalue, hle⟩ :=
          hscan.here attributeValueStops (by decide) hready.next.placed hbound
        refine ⟨hvalue.ready, Nat.lt_of_le_of_lt hle hless, fun last hcrossed =>
          ⟨hcrossed.ready, fun next rest hsees => ?_⟩⟩
        obtain ⟨row, behind, hbehind, hfirst, hrow⟩ := (hcrossed.ahead next rest hsees).first
        obtain ⟨value, hsees, hstretch⟩ := hvalue.ahead _ _ hfirst
        rw [← hbehind] at hsees
        exact ⟨token :: (value ++ row), by simpa using (hready.faces htoken hsees).toSees,
          .attributeValue harrow hstretch hrow⟩
      · rename_i harrow
        split at hstep
        · obtain rfl := Progress.again.inj hstep
          exact hover harrow
        · obtain rfl := Progress.again.inj hstep
          exact hover harrow

theorem crossed_done (hready : read.state.Ready source bound)
    (hstep : step source scan read = .done after) :
    Crossed source bound Region.attributes read.state after.state := by
  unfold step at hstep
  split at hstep
  · rename_i hnone
    obtain rfl := Progress.done.inj hstep
    exact ⟨hready, fun next rest hsees => (hsees.token?_ne_none hnone).elim⟩
  · rename_i token htoken
    split at hstep
    · rename_i hbrace
      obtain rfl := Progress.done.inj hstep
      refine ⟨hready, fun next rest hsees => ⟨[], hsees, .noAttributes ?_⟩⟩
      rwa [Option.some.inj ((hready.loud.faces hsees).token?.symm.trans htoken)]
    · dsimp only at hstep
      split at hstep
      · cases hstep
      · split at hstep <;> cases hstep

theorem crossed_readAll (hscan : scan.Crosses source bound) (hready : state.Ready source bound) :
    Crossed source bound Region.attributes state.next (readAll source scan state).state := by
  unfold readAll
  dsimp only
  rw [state_close]
  exact crossed_iterate (fun read : ResourceAttributes => read.state.Ready source bound)
    ResourceAttributes.state ResourceAttributes.state (fun _ => Region.attributes)
    (fun _ _ hready hstep => crossed_again hscan hready hstep)
    (fun _ _ hready hstep => crossed_done hready hstep) (state.next.remaining + 1)
    ⟨[], none, none, state.next⟩ hready.next (Nat.lt_succ_self _)

end ResourceAttributes

/-! ## Titles -/

namespace ParseState

variable {type : List Char} {title : Node}

theorem resourceTitle_none (h : state.resourceTitle source scan type token = (none, last)) :
    last = state ∧ token.kind ∉ titleKinds := by
  unfold resourceTitle at h
  split at h
  · split at h <;> cases h
  · cases h
  · cases h
  · cases h
  · cases h
  · rename_i hstring hname hdefault hvariable hbracket
    obtain ⟨-, rfl⟩ := h
    refine ⟨rfl, ?_⟩
    simpa [titleKinds] using ⟨hstring, hname, hdefault, hvariable, hbracket⟩

theorem resourceTitle_some (hscan : scan.Crosses source bound) (hready : state.Ready source bound)
    (htoken : state.token? = some token)
    (h : state.resourceTitle source scan type token = (some title, last)) :
    last.Ready source bound ∧ ∀ next rest, last.next.Sees (next :: rest) →
      Region.title.Ahead source state (next :: rest) := by
  have hword : token.kind ∈ titleKinds → token.kind ≠ .leftBracket → last = state →
      last.Ready source bound ∧ ∀ next rest, last.next.Sees (next :: rest) →
        Region.title.Ahead source state (next :: rest) := by
    rintro hkind hother rfl
    exact ⟨hready, fun next rest hsees =>
      ⟨[token], (hready.faces htoken hsees).toSees, .titleWord hkind hother⟩⟩
  unfold resourceTitle at h
  split at h
  · rename_i hkind
    split at h <;> obtain ⟨-, rfl⟩ := h <;>
      exact hword (by rw [hkind]; decide) (by rw [hkind]; decide) rfl
  · rename_i hkind
    obtain ⟨-, rfl⟩ := h
    exact hword (by rw [hkind]; decide) (by rw [hkind]; decide) rfl
  · rename_i hkind
    obtain ⟨-, rfl⟩ := h
    exact hword (by rw [hkind]; decide) (by rw [hkind]; decide) rfl
  · rename_i hkind
    obtain ⟨-, rfl⟩ := h
    exact hword (by rw [hkind]; decide) (by rw [hkind]; decide) rfl
  · rename_i hkind
    obtain ⟨-, rfl⟩ := h
    have hmove := placed_moveNext hready.placed
    have hless : state.moveNext.remaining < bound :=
      Nat.lt_of_lt_of_le (Cursor.remaining_moveNext_lt htoken) hready.bounded
    have hoffset : token.offset ≤ state.moveNext.offset source := by
      have hstart : state.offset source = token.offset := offset_of_token? htoken
      rw [← hstart]
      exact state.leadsTo_moveNext.offset_le hready.placed
    refine ⟨hscan.lays.ready (by decide) hmove hless hoffset, fun next rest hsees => ?_⟩
    obtain ⟨closing, row, hbehind, hrow⟩ := hscan.closing (by decide) hmove hless hoffset hsees
    have hfaces := faces_of_moveNext hready.placed.begun htoken (hready.loud token htoken) hbehind
    exact ⟨token :: (row ++ [closing]), by simpa using hfaces.toSees, .titleList hkind hrow⟩
  · cases h

/-! ## Resources -/

theorem crossed_restOfBody {reported : ParseState} (hscan : scan.Crosses source bound)
    (hready : state.Ready source bound) (hbound : state.remaining < bound)
    (hcursor : reported.cursor = state.cursor) :
    Crossed source bound (.stretch bodyStops) state (reported.restOfBody source scan).2 := by
  have hreported := hready.congr hcursor
  have hremaining : reported.remaining = state.remaining := congrArg Cursor.remaining hcursor
  obtain ⟨hrest, -⟩ := hscan.here bodyStops (by decide) hreported.placed (by omega)
  refine ⟨hrest.ready, fun next rest hsees => ?_⟩
  obtain ⟨row, hbehind, hrow⟩ := hrest.ahead next rest hsees
  exact ⟨row, ⟨hready.placed.begun, by rw [← hcursor]; exact hbehind.ahead⟩, hrow⟩

theorem crossed_resource (hscan : scan.Crosses source bound) (hready : state.Ready source bound)
    (hbound : state.remaining < bound) (type : List Char) (offset : Nat) :
    Crossed source bound (Region.resource type) state.next
      (state.resource source scan type offset).2 := by
  have hnext := hready.next
  have hle := state.remaining_next_le
  unfold resource
  split
  · rename_i htype
    have hread := ResourceAttributes.crossed_readAll hscan hready
    refine ⟨hread.ready, fun closing rest hsees => ?_⟩
    obtain ⟨row, hbehind, hrow⟩ := hread.ahead closing rest hsees
    exact ⟨row, hbehind, .untitled htype hrow⟩
  · rename_i htype
    have htype : startsWithCapital type = false := by simpa using htype
    dsimp only
    split
    · rename_i hnone
      exact ⟨hnext, fun closing rest hsees => (hsees.token?_ne_none hnone).elim⟩
    · rename_i token htoken
      split
      · rename_i last hread
        obtain ⟨rfl, hkind⟩ := resourceTitle_none hread
        have hrest := crossed_restOfBody hscan hnext (Nat.lt_of_le_of_lt hle hbound)
          (cursor_report .unexpectedResourceTitle token.range state.next)
        refine ⟨hrest.ready, fun closing rest hsees => ?_⟩
        obtain ⟨row, behind, hbehind, hfirst, hrow⟩ := (hrest.ahead closing rest hsees).first
        have hhead := (hnext.loud.faces hfirst).token?
        obtain rfl := Option.some.inj (hhead.symm.trans htoken)
        exact ⟨row, hbehind ▸ hfirst, .noTitle htype hkind hrow⟩
      · rename_i title last hread
        obtain ⟨hlast, htitle⟩ := resourceTitle_some hscan hnext htoken hread
        have hmove := state.next.remaining_moveNext_le
        have hleads := (reads_resourceTitle type hscan.lays hnext.placed htoken (by omega)).1
        rw [hread] at hleads
        have hlastLe : last.remaining ≤ state.next.remaining := hleads.remaining_le
        have hcolonLe := last.remaining_next_le
        have hcolon := hlast.next
        split
        · rename_i hat
          have hbody := ResourceAttributes.crossed_readAll hscan hcolon
          refine ⟨hbody.ready, fun closing rest hsees => ?_⟩
          obtain ⟨row, hbehind, hrow⟩ := hbody.ahead closing rest hsees
          obtain ⟨colon, hkind, hfaces⟩ := faces_of_isAt hcolon.placed.begun hat rfl hbehind
          obtain ⟨own, hown, hcontains⟩ := htitle colon _ hfaces.toSees
          exact ⟨own ++ colon :: row, by simpa using hown, .titled htype hcontains hkind hrow⟩
        · rename_i hat
          split
          · have hrest := crossed_restOfBody hscan hcolon (by omega)
              (cursor_reportHere source .missingTitleColon last.next)
            refine ⟨hrest.ready, fun closing rest hsees => ?_⟩
            obtain ⟨row, behind, hbehind, hfirst, hrow⟩ := (hrest.ahead closing rest hsees).first
            obtain ⟨own, hown, hcontains⟩ := htitle _ _ hfirst
            rw [← hbehind] at hown
            refine ⟨own ++ row, by simpa using hown, .noColon htype hcontains (fun h => ?_) hrow⟩
            rw [(hcolon.loud.faces hfirst).isAt, h] at hat
            exact hat rfl
          · rename_i hnone
            have hend : last.next.token? = none := by simpa using hnone
            have hcursor := cursor_reportHere source .missingTitleColon last.next
            refine ⟨hcolon.congr hcursor, fun closing rest hsees => (hsees.token?_ne_none ?_).elim⟩
            exact (congrArg Cursor.token? hcursor).trans hend

end ParseState

end Manifest
