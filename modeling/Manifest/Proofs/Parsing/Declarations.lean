import Manifest.Parse.Declaration
import Manifest.Proofs.Parsing.Resources

/-!
# Declarations are laid out

Parameters follow one another in their list: a parameter begins with its type, and the
type with the first token behind the parameter before.  Then come what a class inherits
from, and the body.
-/

namespace Manifest

open Node (Laid Fits)

variable {source : List Char} {bound : Nat} {scan : Scan} {first state after : ParseState}
  {start : Int} {token : Token}

namespace Params

/-- The parameters that are closed end before the type of the one that is open, and that one
ends with the token under the cursor at the latest. -/
structure Ordered (source : List Char) (first : ParseState) (start : Int) (read : Params) :
    Prop where
  placed : first.cursor.Placed source
  leads : first.cursor.LeadsTo read.state.cursor
  untyped : read.open? = none → read.type? = none →
    Laid start read.params (read.state.offset source)
  typed : ∀ type, read.open? = none → read.type? = some type →
    Laid start read.params type.start ∧ type.start ≤ read.state.offset source
  noDefault : read.open? = none → read.default? = none
  opened : ∀ opened, read.open? = some opened →
    Laid start read.params opened.type.start ∧ opened.type.start ≤ opened.token.offset ∧
    opened.token.offset + (opened.token.text source).length ≤ read.state.currentStop source ∧
    ∀ default, read.default? = some default →
      Fits (opened.token.offset + (opened.token.text source).length : Nat) default
        (read.state.currentStop source)

variable {read : Params}

theorem Ordered.placed_state (h : Ordered source first start read) :
    read.state.cursor.Placed source :=
  h.leads.placed h.placed

theorem fits_param {opened : OpenParam} {default? : Option Node} {stop : Int}
    (htype : opened.type.start ≤ opened.token.offset)
    (htoken : (opened.token.offset + (opened.token.text source).length : Nat) ≤ stop)
    (hdefault : ∀ default, default? = some default →
      Fits (opened.token.offset + (opened.token.text source).length : Nat) default stop) :
    Fits opened.type.start (param source opened default?) stop := by
  have hname : Fits (opened.token.offset : Int)
      (Node.plainDefinition opened.token.offset (opened.token.text source))
      (opened.token.offset + (opened.token.text source).length : Nat) :=
    Node.fits_leaf (Int.natCast_nonneg _) (Int.le_refl _)
  have hrest : Laid (opened.token.offset + (opened.token.text source).length : Nat)
      default?.toList stop := by
    cases default? with
    | none => exact Node.laid_nil htoken
    | some default => exact (hdefault default rfl).laid
  have hchildren := ((hname.from (Int.ofNat_le.2 htype)).laid).append hrest
  exact Node.fits_enclosing rfl hchildren

theorem Ordered.close (h : Ordered source first start read) :
    Laid start (read.close source).params (read.state.currentStop source) := by
  have hstop := ParseState.offset_le_currentStop h.placed_state
  unfold Params.close
  dsimp only
  cases hopen : read.open? with
  | some opened =>
      obtain ⟨hlaid, htype, hend, hdefault⟩ := h.opened opened hopen
      exact hlaid.concat (fits_param htype (Int.ofNat_le.2 hend) hdefault)
  | none =>
      cases htype : read.type? with
      | none => exact (h.untyped hopen htype).upTo (Int.ofNat_le.2 hstop)
      | some type =>
          obtain ⟨hlaid, hle⟩ := h.typed type hopen htype
          exact hlaid.upTo (by omega)

theorem Ordered.comma (h : Ordered source first start read) :
    Ordered source first start { read.close source with state := read.state.next } where
  placed := h.placed
  leads := h.leads.trans read.state.leadsTo_next
  untyped := fun _ _ =>
    h.close.upTo (Int.ofNat_le.2 (ParseState.currentStop_le_next h.placed_state))
  typed := fun _ _ htype => by cases htype
  noDefault := fun _ => rfl
  opened := fun _ hopen => by cases hopen

theorem Ordered.onward (h : Ordered source first start read) {opened : OpenParam}
    (hopen : read.open? = some opened) :
    Ordered source first start { read with state := read.state.next } := by
  have hnext := ParseState.currentStop_le_next h.placed_state
  have hlater := ParseState.offset_le_currentStop (ParseState.placed_next h.placed_state)
  have hle : read.state.currentStop source ≤ read.state.next.currentStop source :=
    Nat.le_trans hnext hlater
  refine ⟨h.placed, h.leads.trans read.state.leadsTo_next, fun hnone => ?_,
    fun _ hnone => ?_, fun hnone => ?_, fun other hother => ?_⟩
  · rw [hopen] at hnone
    cases hnone
  · rw [hopen] at hnone
    cases hnone
  · rw [hopen] at hnone
    cases hnone
  · obtain ⟨hlaid, htype, hend, hdefault⟩ := h.opened other hother
    exact ⟨hlaid, htype, Nat.le_trans hend hle,
      fun default hsome => (hdefault default hsome).upTo (Int.ofNat_le.2 hle)⟩

theorem Ordered.type_start (h : Ordered source first start read) (hopen : read.open? = none)
    (htoken : read.state.token? = some token) :
    let type := (read.type?.map fun type => type.cover token.range).getD token.range
    Laid start read.params type.start ∧ type.start ≤ token.offset := by
  have hoffset : read.state.offset source = token.offset := ParseState.offset_of_token? htoken
  cases htype : read.type? with
  | none =>
      have hlaid := h.untyped hopen htype
      rw [hoffset] at hlaid
      exact ⟨hlaid, Nat.le_refl _⟩
  | some type =>
      obtain ⟨hlaid, hle⟩ := h.typed type hopen htype
      rw [hoffset] at hle
      have hcover : (type.cover token.range).start = type.start := by
        show min type.start token.range.start = type.start
        exact Nat.min_eq_left hle
      show Laid start read.params (type.cover token.range).start ∧
        (type.cover token.range).start ≤ token.offset
      rw [hcover]
      exact ⟨hlaid, hle⟩

theorem ordered_stepType (h : Ordered source first start read) (hopen : read.open? = none)
    (htoken : read.state.token? = some token) :
    Ordered source first start (stepType source token read) := by
  have hplaced := h.placed_state
  have hoffset : read.state.offset source = token.offset := ParseState.offset_of_token? htoken
  have hstop : token.stop ≤ read.state.next.offset source := hplaced.stop_le_next htoken
  have hrange : token.offset ≤ token.stop := token.range.start_le_stop
  have hleads := h.leads.trans read.state.leadsTo_next
  unfold stepType
  dsimp only
  split
  · have hlength := hplaced.length_text htoken
    have hlater := ParseState.offset_le_currentStop (ParseState.placed_next hplaced)
    have htype : Laid start read.params (read.type?.getD (TextRange.empty token.offset)).start ∧
        (read.type?.getD (TextRange.empty token.offset)).start ≤ token.offset := by
      cases htype : read.type? with
      | none =>
          have hlaid := h.untyped hopen htype
          rw [hoffset] at hlaid
          exact ⟨hlaid, Nat.le_refl _⟩
      | some type =>
          obtain ⟨hlaid, hle⟩ := h.typed type hopen htype
          exact ⟨hlaid, by rw [← hoffset]; exact hle⟩
    refine ⟨h.placed, hleads, fun hnone => (Option.some_ne_none _ hnone).elim,
      fun _ hnone => (Option.some_ne_none _ hnone).elim,
      fun hnone => (Option.some_ne_none _ hnone).elim, fun opened hopened => ?_⟩
    obtain rfl := Option.some.inj hopened
    refine ⟨htype.1, htype.2, by dsimp only; omega, fun default hdefault => ?_⟩
    dsimp only at hdefault
    rw [h.noDefault hopen] at hdefault
    cases hdefault
  · split
    · exact h.comma
    · obtain ⟨hlaid, hle⟩ := h.type_start hopen htoken
      refine ⟨h.placed, hleads, fun _ hnone => (Option.some_ne_none _ hnone).elim,
        fun type _ htype => ?_,
        fun _ => h.noDefault hopen, fun opened hopened => ?_⟩
      · obtain rfl := Option.some.inj htype
        exact ⟨hlaid, by dsimp only at hle ⊢; omega⟩
      · dsimp only at hopened
        rw [hopen] at hopened
        cases hopened

theorem Ordered.default (h : Ordered source first start read) {opened : OpenParam}
    (hopen : read.open? = some opened) {default : Node}
    (hdefault : read.state.next.Stretch source (read.state.next.offset source)
      paramDefaultStops (default, after)) :
    Ordered source first start { read with default? := some default, state := after } := by
  have hnext := ParseState.currentStop_le_next h.placed_state
  have hle : read.state.next.offset source ≤ after.offset source :=
    hdefault.leads.offset_le hdefault.placed
  have hafter := ParseState.offset_le_currentStop (hdefault.leads.placed hdefault.placed)
  dsimp only at hafter
  refine ⟨h.placed, h.leads.trans (read.state.leadsTo_next.trans hdefault.leads),
    fun hnone => ?_, fun _ hnone => ?_, fun hnone => ?_, fun other hother => ?_⟩
  · rw [hopen] at hnone
    cases hnone
  · rw [hopen] at hnone
    cases hnone
  · rw [hopen] at hnone
    cases hnone
  · obtain ⟨hlaid, htype, hend, -⟩ := h.opened other hother
    refine ⟨hlaid, htype, by dsimp only; omega, fun node hnode => ?_⟩
    obtain rfl : default = node := Option.some.inj hnode
    exact hdefault.fits.from (by omega)

theorem ordered_stepRest (hscan : scan.Lays source bound) (hbound : first.remaining ≤ bound)
    (h : Ordered source first start read) {opened : OpenParam}
    (hopen : read.open? = some opened) (htoken : read.state.token? = some token) :
    Ordered source first start (stepRest source scan token read).state := by
  unfold stepRest
  split
  · have hless : read.state.next.remaining < read.state.remaining :=
      Cursor.remaining_next_lt htoken
    have hle : read.state.remaining ≤ first.remaining := h.leads.remaining_le
    have hnext := ParseState.placed_next h.placed_state
    have hdefault := h.default hopen
      (hscan.here hnext (show read.state.next.remaining < bound by omega) paramDefaultStops)
    dsimp only
    split
    · exact hdefault.comma
    · split
      · exact hdefault
      · exact hdefault.onward hopen
  · split
    · exact h.comma
    · exact h.onward hopen

theorem ordered_step (hscan : scan.Lays source bound) (hbound : first.remaining ≤ bound)
    (h : Ordered source first start read) :
    Ordered source first start (step source scan read).state := by
  unfold step
  split
  · exact h
  · rename_i token htoken
    split
    · exact h
    · split
      · rename_i hopen
        exact ordered_stepType h hopen htoken
      · rename_i opened hopen
        exact ordered_stepRest hscan hbound h hopen htoken

theorem ordered_begin (h : state.cursor.Placed source) :
    Ordered source state (state.offset source) ⟨[], none, none, none, 0, state⟩ where
  placed := h
  leads := .refl _
  untyped := fun _ _ => Node.laid_nil (Int.le_refl _)
  typed := fun _ _ htype => (Option.some_ne_none _ htype.symm).elim
  noDefault := fun _ => rfl
  opened := fun _ hopen => (Option.some_ne_none _ hopen.symm).elim

theorem reads_readAll (hscan : scan.Lays source bound) (hbound : state.next.remaining ≤ bound)
    (hplaced : state.cursor.Placed source) :
    state.next.Reads source (state.next.offset source) (readAll source scan state).params
      (readAll source scan state).state.next ∧
    (readAll source scan state).state.cursor.Begun := by
  have hnext := ParseState.placed_next hplaced
  have hread := iterate_invariant (Ordered source state.next (state.next.offset source))
    (fun _ hread => ordered_step hscan hbound hread) (state.next.remaining + 1) _
    (ordered_begin hnext)
  unfold readAll
  dsimp only
  refine ⟨⟨hnext, hread.leads.trans (Cursor.leadsTo_next _), ?_⟩, hread.placed_state.begun⟩
  exact hread.close.upTo (Int.ofNat_le.2 (ParseState.currentStop_le_next hread.placed_state))

end Params

/-! ## Parts of declarations -/

namespace NodeNames

theorem settled_step {read : NodeNames} (h : read.state.cursor.Settled)
    (hleads : first.cursor.LeadsTo read.state.cursor) :
    (step source read).state.state.cursor.Settled ∧
      first.cursor.LeadsTo (step source read).state.state.cursor := by
  unfold step
  split
  · exact ⟨h, hleads⟩
  · split
    · exact ⟨h, hleads⟩
    · split
      · exact ⟨h.next, hleads.trans read.state.leadsTo_next⟩
      · exact ⟨h.next, hleads.trans read.state.leadsTo_next⟩

theorem settled_readAll (source : List Char) (h : state.cursor.Settled) :
    (readAll source state).state.cursor.Settled ∧
      state.cursor.LeadsTo (readAll source state).state.cursor :=
  iterate_invariant
    (fun read : NodeNames => read.state.cursor.Settled ∧ state.cursor.LeadsTo read.state.cursor)
    (fun _ hread => settled_step hread.1 hread.2) _ _ ⟨h, .refl _⟩

end NodeNames

namespace ParseState

theorem settled_next (h : state.cursor.Placed source) : state.next.cursor.Settled :=
  Cursor.settled_next h.begun

theorem cursor_next_previous (h : state.cursor.Settled) :
    state.previous.next.cursor = state.cursor :=
  h.next_previous

/-- A declaration goes on behind its body, or with the token found in place of one. -/
theorem reads_declarationBody (hscan : scan.Lays source bound)
    (hplaced : state.cursor.Placed source) (hsettled : state.cursor.Settled)
    (hbound : state.remaining < bound) :
    state.Reads source (state.offset source) (state.declarationBody source scan).1.toList
      (state.declarationBody source scan).2.next := by
  have hnothing : state.Reads source (state.offset source) [] state :=
    reads_nothing hplaced (.refl _) (Int.le_refl _)
  have hmove := state.remaining_moveNext_le
  unfold declarationBody
  split
  · have hbody := (hscan.inside hplaced (Nat.lt_of_le_of_lt hmove hbound) bodyStops).reads
    exact hnothing.moveNext.append hbody
  · refine hnothing.congr ?_
    dsimp only
    split
    · have hreported : (state.reportHere source .expectedBody).cursor = state.cursor :=
        cursor_reportHere _ _ _
      refine (cursor_next_previous ?_).trans hreported
      rw [hreported]
      exact hsettled
    · rename_i hend
      have hnone : state.token? = none := by simpa using hend
      show (state.reportHere source .expectedBody).cursor.next = _
      rw [cursor_reportHere]
      exact Cursor.next_of_none hplaced.begun hnone

theorem reads_paramList (hscan : scan.Lays source bound) (hplaced : state.cursor.Placed source)
    (hsettled : state.cursor.Settled) (hbound : state.remaining ≤ bound) :
    state.Reads source (state.offset source) (state.paramList source scan).1
        (state.paramList source scan).2 ∧
      (state.paramList source scan).2.cursor.Settled := by
  have hnothing : state.Reads source (state.offset source) [] state :=
    reads_nothing hplaced (.refl _) (Int.le_refl _)
  unfold paramList
  split
  · obtain ⟨hparams, hbegun⟩ :=
      Params.reads_readAll hscan (Nat.le_trans state.remaining_next_le hbound) hplaced
    exact ⟨hnothing.next.append hparams, Cursor.settled_next hbegun⟩
  · exact ⟨hnothing, hsettled⟩

theorem reads_inheritance (hplaced : state.cursor.Placed source)
    (hsettled : state.cursor.Settled) :
    state.Reads source (state.offset source) (state.inheritance source).1.toList
        (state.inheritance source).2 ∧
      (state.inheritance source).2.cursor.Settled := by
  have hnothing : state.Reads source (state.offset source) [] state :=
    reads_nothing hplaced (.refl _) (Int.le_refl _)
  have hnext := placed_next hplaced
  unfold inheritance
  split
  · dsimp only
    split
    · rename_i token htoken
      split
      · have hparent := reads_token hnext htoken (fits_bareClassRef hnext htoken)
        exact ⟨hnothing.next.append (hparent.before hnext state.next.leadsTo_next),
          hsettled.next.next⟩
      · exact ⟨hnothing.next, hsettled.next⟩
    · exact ⟨hnothing.next, hsettled.next⟩
  · exact ⟨hnothing, hsettled⟩

/-! ## Declarations -/

variable {offset : Nat}

/-- A class is laid out from its word to beyond its body. -/
theorem reads_classAfterName (hscan : scan.Lays source bound)
    (hplaced : state.cursor.Placed source) (htoken : state.token? = some token)
    (hbound : state.next.remaining < bound) (hoffset : offset ≤ state.offset source) :
    state.next.Reads source offset
      [(state.classAfterName source scan offset token.offset (token.text source)).1]
      (state.classAfterName source scan offset token.offset (token.text source)).2.next := by
  have hnext := placed_next hplaced
  obtain ⟨hparams, hsettled⟩ :=
    reads_paramList hscan hnext (settled_next hplaced) (Nat.le_of_lt hbound)
  unfold classAfterName
  dsimp only
  generalize state.next.paramList source scan = params at hparams hsettled
  obtain ⟨hinherits, hsettled⟩ := reads_inheritance hparams.placed_after hsettled
  generalize params.2.inheritance source = parent at hinherits hsettled
  have hparamsLe := hparams.remaining_le
  have hinheritsLe := hinherits.remaining_le
  have hbody := reads_declarationBody hscan hinherits.placed_after hsettled (by omega)
  generalize parent.2.declarationBody source scan = body at hbody
  have hrest := (hparams.append hinherits).append hbody
  have hstop : token.stop ≤ state.next.offset source := hplaced.stop_le_next htoken
  have hname : Fits (token.offset : Int)
      (Node.leaf token.offset (.identifier (token.text source))) token.stop :=
    fits_tokenLeaf hplaced htoken _ rfl
  have hstart : (offset : Int) ≤ token.offset := by
    have hoffset : state.offset source = token.offset := offset_of_token? htoken
    omega
  have hchildren := (((hname.from hstart).upTo (Int.ofNat_le.2 hstop)).laid).append hrest.laid
  refine reads_node hnext hrest.leads (Node.fits_enclosing rfl ?_)
  simpa only [Option.toList_some, List.map_cons, List.map_nil, List.append_assoc] using hchildren

theorem reads_classDecl (hscan : scan.Lays source bound) (hplaced : state.cursor.Placed source)
    (hbound : state.next.remaining < bound) :
    state.next.Reads source (state.offset source) (state.classDecl source scan).1
      (state.classDecl source scan).2.next := by
  have hnext := placed_next hplaced
  have hle := offset_le_next hplaced
  have hnothing : state.next.Reads source (state.offset source) [] state.next :=
    reads_nothing hnext (.refl _) (Int.ofNat_le.2 hle)
  unfold classDecl
  dsimp only
  split
  · exact hnothing.next
  · rename_i token htoken
    split
    · have hclass := reads_classAfterName hscan hnext htoken
        (Nat.lt_of_le_of_lt state.next.remaining_next_le hbound) hle
      exact hclass.before hnext state.next.leadsTo_next
    · exact hnothing.congr (cursor_next_previous (settled_next hplaced))

theorem reads_defineDecl (hscan : scan.Lays source bound) (hplaced : state.cursor.Placed source)
    (hbound : state.next.remaining < bound) :
    state.next.Reads source (state.offset source) [(state.defineDecl source scan).1]
      (state.defineDecl source scan).2.next := by
  have hnext := placed_next hplaced
  have hnothing : state.next.Reads source (state.offset source) [] state.next :=
    reads_nothing hnext (.refl _) (Int.ofNat_le.2 (offset_le_next hplaced))
  have hcollect := state.next.cursor.leadsTo_collectText source defineNameStops
  have hsettled := Cursor.settled_skipTrivia_collectText source defineNameStops
    (settled_next hplaced)
  unfold defineDecl
  dsimp only
  split
  · rename_i cursor heq
    rw [heq] at hcollect
    have honward : state.next.Reads source (state.offset source) []
        { state.next with cursor } := hnothing.onward hcollect
    have hreads := honward.next
    exact reads_node hnext hreads.leads (Node.fits_enclosing rfl hreads.laid)
  · rename_i name cursor heq
    rw [heq] at hcollect hsettled
    have hskip := hcollect.trans cursor.leadsTo_skipTrivia
    have hreads : state.next.Reads source (state.offset source) []
        { state with cursor := cursor.skipTrivia } := hnothing.onward hskip
    have hskipLe := hreads.remaining_le
    obtain ⟨hparams, hsettled⟩ :=
      reads_paramList hscan hreads.placed_after hsettled (by omega)
    generalize ({ state with cursor := cursor.skipTrivia } : ParseState).paramList source scan =
      params at hparams hsettled
    have hparamsLe := hparams.remaining_le
    have hbody := reads_declarationBody hscan hparams.placed_after hsettled (by omega)
    generalize params.2.declarationBody source scan = body at hbody
    have hrest := (hreads.append hparams).append hbody
    exact reads_node hnext hrest.leads (Node.fits_enclosing rfl hrest.laid)

theorem reads_nodeDecl (hscan : scan.Lays source bound) (hplaced : state.cursor.Placed source)
    (hbound : state.next.remaining < bound) :
    state.next.Reads source (state.offset source) [(state.nodeDecl source scan).1]
      (state.nodeDecl source scan).2.next := by
  have hnext := placed_next hplaced
  have hnothing : state.next.Reads source (state.offset source) [] state.next :=
    reads_nothing hnext (.refl _) (Int.ofNat_le.2 (offset_le_next hplaced))
  obtain ⟨hsettled, hleads⟩ := NodeNames.settled_readAll source (settled_next hplaced)
  unfold nodeDecl
  dsimp only
  generalize NodeNames.readAll source state.next = read at hsettled hleads
  have hreads := hnothing.onward hleads
  have hle := hreads.remaining_le
  have hbody := reads_declarationBody hscan hreads.placed_after hsettled (by omega)
  generalize read.state.declarationBody source scan = body at hbody
  have hrest := hreads.append hbody
  exact reads_node hnext hrest.leads (Node.fits_enclosing rfl hrest.laid)

end ParseState

end Manifest
