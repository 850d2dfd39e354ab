import Manifest.Parse.Resource
import Manifest.Proofs.Parsing.Requirements

/-!
# Resources are laid out

Attributes follow one another in the body of a resource.  A value that no name comes
before is dropped: it ends on a comma or a brace, neither of which is a name.
-/

namespace Manifest

open Node (Laid Fits)

variable {source : List Char} {bound : Nat} {scan : Scan} {first state after : ParseState}
  {start : Int} {token : Token}

namespace ResourceAttributes

/-- The attributes that are closed end before the one that is open, and that one ends with the
token under the cursor at the latest. -/
structure Ordered (source : List Char) (first : ParseState) (start : Int)
    (read : ResourceAttributes) : Prop where
  placed : first.cursor.Placed source
  leads : first.cursor.LeadsTo read.state.cursor
  unnamed : read.name? = none → Laid start read.attributes (read.state.offset source) ∧
    ∀ token, read.value?.isSome = true → read.state.token? = some token →
      attributeValueStops.contains token.kind = true
  named : ∀ name, read.name? = some name → Laid start read.attributes name.offset ∧
    name.offset + (name.text source).length ≤ read.state.currentStop source ∧
    ∀ value, read.value? = some value →
      Fits (name.offset + (name.text source).length : Nat) value (read.state.currentStop source)

variable {read : ResourceAttributes}

@[simp]
theorem state_close (source : List Char) (read : ResourceAttributes) :
    (read.close source).state = read.state := by
  unfold close
  split <;> rfl

theorem fits_attributeNode {name : Token} {value? : Option Node} {stop : Int}
    (hname : (name.offset + (name.text source).length : Nat) ≤ stop)
    (hvalue : ∀ value, value? = some value →
      Fits (name.offset + (name.text source).length : Nat) value stop) :
    Fits name.offset (attributeNode source name value?) stop := by
  have hchildren : Laid name.offset value?.toList stop := by
    cases value? with
    | none => exact Node.laid_nil (by omega)
    | some value => exact ((hvalue value rfl).from (by omega)).laid
  refine Node.fits_unended (Int.le_refl _) (Int.natCast_nonneg _) ?_ hchildren
  show (name.offset : Int) + ((name.text source).length : Nat) ≤ stop
  omega

theorem Ordered.placed_state (h : Ordered source first start read) :
    read.state.cursor.Placed source :=
  h.leads.placed h.placed

theorem Ordered.close (h : Ordered source first start read) :
    Laid start (read.close source).attributes (read.state.currentStop source) := by
  have hstop : read.state.offset source ≤ read.state.currentStop source :=
    ParseState.offset_le_currentStop h.placed_state
  unfold ResourceAttributes.close
  cases hname : read.name? with
  | none => exact (h.unnamed hname).1.upTo (Int.ofNat_le.2 hstop)
  | some name =>
      obtain ⟨hlaid, hend, hvalue⟩ := h.named name hname
      exact hlaid.concat (fits_attributeNode (Int.ofNat_le.2 hend) hvalue)

theorem Ordered.onward (h : Ordered source first start read)
    (hleads : read.state.next.cursor.LeadsTo after.cursor)
    (hvalue : read.name? = none → read.value? = none) :
    Ordered source first start { read with state := after } := by
  have hplaced := h.placed_state
  have hstop := ParseState.currentStop_le_next hplaced
  have hnext := read.state.leadsTo_next
  have hoffset : read.state.next.offset source ≤ after.offset source :=
    hleads.offset_le (hnext.placed hplaced)
  have hafter := ParseState.offset_le_currentStop (hleads.placed (hnext.placed hplaced))
  refine ⟨h.placed, h.leads.trans (hnext.trans hleads), fun hname => ⟨?_, ?_⟩,
    fun name hname => ?_⟩
  · have hle : read.state.offset source ≤ read.state.currentStop source :=
      ParseState.offset_le_currentStop hplaced
    exact (h.unnamed hname).1.upTo (by dsimp only; omega)
  · intro token hsome
    rw [hvalue hname] at hsome
    cases hsome
  · obtain ⟨hlaid, hend, hfits⟩ := h.named name hname
    refine ⟨hlaid, by dsimp only; omega, fun value hsome => (hfits value hsome).upTo ?_⟩
    dsimp only
    omega

theorem Ordered.name (h : Ordered source first start read)
    (htoken : read.state.token? = some token) :
    Ordered source first start { read with
      name? := if read.name?.isNone && token.namesAttribute then some token else read.name? } := by
  split
  · rename_i hnames
    rw [Bool.and_eq_true, Option.isNone_iff_eq_none] at hnames
    obtain ⟨hlaid, hdangling⟩ := h.unnamed hnames.1
    have hplaced := h.placed_state
    have hoffset : read.state.offset source = token.offset := Cursor.offset_of_token? htoken
    have hlength := hplaced.length_text htoken
    refine ⟨h.placed, h.leads, fun hnone => (Option.some_ne_none _ hnone).elim,
      fun name hname => ?_⟩
    obtain rfl : token = name := Option.some.inj hname
    rw [hoffset] at hlaid
    refine ⟨hlaid, ?_, fun value hvalue => ?_⟩
    · rw [ParseState.currentStop_of_token? htoken]
      exact Nat.le_of_eq hlength
    · -- a stop token of a value names no attribute
      have hstop := hdangling token (by rw [hvalue]; rfl) htoken
      have hkinds : ∀ kind ∈ attributeValueStops, kind ≠ .star ∧
          [TokenCategory.identifier, .keyword, .function].contains kind.category = false := by
        decide
      obtain ⟨hstar, hcategory⟩ := hkinds token.kind (List.contains_iff_mem.1 hstop)
      have hnone := hnames.2
      unfold Token.namesAttribute at hnone
      rw [hcategory, Bool.or_false, beq_iff_eq] at hnone
      exact (hstar hnone).elim
  · exact h

/-- After an arrow, a value takes the place of any before. -/
theorem Ordered.value (h : Ordered source first start read) {value : Node}
    (hvalue : read.state.next.Stretch source (read.state.next.offset source)
      attributeValueStops (value, after)) :
    Ordered source first start { read with value? := some value, state := after } := by
  have hplaced := h.placed_state
  have hstop := ParseState.currentStop_le_next hplaced
  have hle := ParseState.offset_le_currentStop hplaced
  have hnext : read.state.next.offset source ≤ after.offset source :=
    hvalue.leads.offset_le hvalue.placed
  have hafter := ParseState.offset_le_currentStop (hvalue.leads.placed hvalue.placed)
  refine ⟨h.placed, h.leads.trans (read.state.leadsTo_next.trans hvalue.leads),
    fun hname => ⟨?_, fun token _ htoken => hvalue.stopped token htoken⟩, fun name hname => ?_⟩
  · exact (h.unnamed hname).1.upTo (by dsimp only; omega)
  · obtain ⟨hlaid, hend, -⟩ := h.named name hname
    refine ⟨hlaid, by dsimp only at hafter ⊢; omega, fun node hnode => ?_⟩
    obtain rfl : value = node := Option.some.inj hnode
    exact hvalue.fits.from (by omega)

theorem Ordered.comma (h : Ordered source first start read) :
    Ordered source first start { read.close source with state := read.state.next } := by
  have hstop := ParseState.currentStop_le_next h.placed_state
  have hclosed : (read.close source).name? = none ∧ (read.close source).value? = none := by
    unfold ResourceAttributes.close
    split
    · exact ⟨rfl, rfl⟩
    · rename_i hname
      exact ⟨hname, rfl⟩
  refine ⟨h.placed, h.leads.trans read.state.leadsTo_next, fun _ => ⟨?_, ?_⟩,
    fun name hname => ?_⟩
  · exact h.close.upTo (Int.ofNat_le.2 hstop)
  · intro token hsome
    rw [hclosed.2] at hsome
    cases hsome
  · rw [hclosed.1] at hname
    cases hname

theorem ordered_step (hscan : scan.Lays source bound) (hbound : first.remaining ≤ bound)
    (h : Ordered source first start read) :
    Ordered source first start (step source scan read).state := by
  unfold step
  split
  · exact h
  · rename_i token htoken
    split
    · exact h
    · rename_i hbrace
      have hnamed := h.name htoken
      have hless : read.state.next.remaining < read.state.remaining :=
        Cursor.remaining_next_lt htoken
      have hle : read.state.remaining ≤ first.remaining := h.leads.remaining_le
      have hnext := ParseState.placed_next h.placed_state
      have hbelow : read.state.next.remaining < bound := by omega
      dsimp only
      split
      · exact hnamed.value (hscan.here hnext hbelow attributeValueStops)
      · split
        · exact hnamed.comma
        · rename_i hcomma
          apply hnamed.onward (.refl _)
          intro hname
          -- a value is dangling on a comma or a brace only
          cases hvalue : read.value? with
          | none => rfl
          | some value =>
              have hstop := (hnamed.unnamed hname).2 token (by dsimp only; rw [hvalue]; rfl) htoken
              rcases List.mem_cons.1 (List.contains_iff_mem.1 hstop) with hkind | hkind
              · exact (hcomma hkind).elim
              · exact (hbrace (List.mem_singleton.1 hkind)).elim

theorem ordered_begin (h : state.cursor.Placed source) :
    Ordered source state (state.offset source) ⟨[], none, none, state⟩ where
  placed := h
  leads := .refl _
  unnamed := fun _ => ⟨Node.laid_nil (Int.le_refl _), fun _ hsome => by cases hsome⟩
  named := fun _ hname => by cases hname

/-- The attributes of a body are laid out up to the end of its last token. -/
theorem ordered_readAll (hscan : scan.Lays source bound) (hbound : state.next.remaining ≤ bound)
    (hplaced : state.cursor.Placed source) :
    state.next.cursor.LeadsTo (readAll source scan state).state.cursor ∧
      Laid (state.next.offset source) (readAll source scan state).attributes
        ((readAll source scan state).state.currentStop source) := by
  have hnext := ParseState.placed_next hplaced
  have hread := iterate_invariant (Ordered source state.next (state.next.offset source))
    (fun _ hread => ordered_step hscan hbound hread) (state.next.remaining + 1) _
    (ordered_begin hnext)
  unfold readAll
  dsimp only
  rw [state_close]
  exact ⟨hread.leads, hread.close⟩

end ResourceAttributes

/-! ## Resources -/

namespace ParseState

variable {offset : Nat} {type : List Char}

theorem fits_resource {attributes : List Node} {title? : Option Node} {stop? : Option Nat}
    {middle stop : Nat} (htype : offset + type.length ≤ stop)
    (hstop : ∀ last, stop? = some last → offset ≤ last ∧ last ≤ stop)
    (htitle : Laid offset title?.toList middle) (hattributes : Laid middle attributes stop) :
    Fits offset (Node.resource offset type title? attributes stop?) stop := by
  have hchildren := htitle.append hattributes
  unfold Node.resource
  cases stop? with
  | some last =>
      obtain ⟨hle, hend⟩ := hstop last rfl
      exact Node.fits_ended (Int.le_refl _) (Int.ofNat_le.2 hle) (Int.ofNat_le.2 hend) hchildren
  | none =>
      refine Node.fits_unended (Int.le_refl _) (Int.natCast_nonneg _) ?_ hchildren
      show (offset : Int) + (type.length : Nat) ≤ stop
      omega

theorem reads_resourceBody (hscan : scan.Lays source bound) {title? : Option Node}
    (hbound : state.next.remaining ≤ bound) (hplaced : state.cursor.Placed source)
    (htype : offset + type.length ≤ state.offset source)
    (htitle : Laid offset title?.toList (state.next.offset source)) :
    state.next.Reads source offset [(state.resourceBody source scan type offset title?).1]
      (state.resourceBody source scan type offset title?).2.next := by
  have hnext := ParseState.placed_next hplaced
  obtain ⟨hleads, hlaid⟩ := ResourceAttributes.ordered_readAll hscan hbound hplaced
  unfold resourceBody
  dsimp only
  generalize ResourceAttributes.readAll source scan state = read at hleads hlaid
  have hafter := hleads.placed hnext
  have hstop := currentStop_le_next hafter
  have hmove : state.offset source ≤ state.next.offset source :=
    state.leadsTo_next.offset_le hplaced
  have hle : state.next.offset source ≤ read.state.offset source := hleads.offset_le hnext
  have hcurrent := offset_le_currentStop hafter
  refine reads_node hnext (hleads.trans read.state.leadsTo_next) ?_
  refine fits_resource (by omega) (fun last hlast => ?_) htitle
    (hlaid.upTo (Int.ofNat_le.2 hstop))
  obtain ⟨token, htoken, rfl⟩ := Option.map_eq_some_iff.1 hlast
  have hend : read.state.currentStop source = token.stop := currentStop_of_token? htoken
  omega

theorem reads_resourceTitle (type : List Char) (hscan : scan.Lays source bound)
    (hplaced : state.cursor.Placed source) (htoken : state.token? = some token)
    (hbound : state.moveNext.remaining < bound) :
    state.cursor.LeadsTo (state.resourceTitle source scan type token).2.cursor ∧
      Laid token.offset (state.resourceTitle source scan type token).1.toList
        ((state.resourceTitle source scan type token).2.next.offset source) := by
  have hstop : token.stop ≤ state.next.offset source := hplaced.stop_le_next htoken
  have htitle : ∀ node : Node, Fits token.offset node token.stop →
      Laid token.offset [node] (state.next.offset source) :=
    fun node hfits => (hfits.upTo (Int.ofNat_le.2 hstop)).laid
  have hnone : Laid token.offset [] (state.next.offset source) := by
    refine Node.laid_nil (Int.ofNat_le.2 (Nat.le_trans ?_ hstop))
    exact token.range.start_le_stop
  unfold resourceTitle
  split
  · split
    · exact ⟨.refl _, htitle _ (fits_quotedClassRef hplaced htoken)⟩
    · exact ⟨.refl _, htitle _ (fits_tokenString hplaced htoken)⟩
  · exact ⟨.refl _, htitle _ (fits_tokenString hplaced htoken)⟩
  · exact ⟨.refl _, htitle _ (fits_tokenString hplaced htoken)⟩
  · exact ⟨.refl _, htitle _ (fits_tokenLeaf hplaced htoken _ rfl)⟩
  · have hmove := state.leadsTo_moveNext
    have hoffset : state.offset source = token.offset := Cursor.offset_of_token? htoken
    have hle : state.offset source ≤ state.moveNext.offset source := hmove.offset_le hplaced
    have hstretch := hscan token.offset indexStops state.moveNext hbound (hmove.placed hplaced)
      (by omega)
    exact ⟨hmove.trans hstretch.leads, hstretch.reads.laid⟩
  · exact ⟨.refl _, hnone⟩

theorem reads_restOfBody (hscan : scan.Lays source bound) (hplaced : state.cursor.Placed source)
    (hbound : state.remaining < bound) :
    state.Reads source (state.offset source) (state.restOfBody source scan).1
      (state.restOfBody source scan).2.next :=
  (hscan.here hplaced hbound bodyStops).reads

/-- A resource is laid out from its type to beyond its closing brace, well formed or not. -/
theorem reads_resource (hscan : scan.Lays source bound) (hplaced : state.cursor.Placed source)
    (hbound : state.remaining < bound) (htype : offset + type.length ≤ state.offset source) :
    state.next.Reads source offset (state.resource source scan type offset).1
      (state.resource source scan type offset).2.next := by
  have hnext := state.leadsTo_next
  have hplacedNext := hnext.placed hplaced
  have hle : state.offset source ≤ state.next.offset source := hnext.offset_le hplaced
  have hremaining : state.next.remaining ≤ state.remaining := hnext.remaining_le
  have hnothing : state.next.Reads source offset [] state.next :=
    reads_nothing hplacedNext (.refl _) (by omega)
  unfold resource
  split
  · refine reads_resourceBody hscan (Nat.le_of_lt (Nat.lt_of_le_of_lt hremaining hbound)) hplaced
      htype (Node.laid_nil ?_)
    omega
  · dsimp only
    split
    · exact hnothing.next
    · rename_i token htoken
      have hoffset : state.next.offset source = token.offset := Cursor.offset_of_token? htoken
      have hmove : state.next.moveNext.remaining ≤ state.next.remaining :=
        state.next.leadsTo_moveNext.remaining_le
      obtain ⟨hleads, hlaid⟩ := reads_resourceTitle type hscan hplacedNext htoken
        (by omega)
      rw [← hoffset] at hlaid
      have hrest : ∀ reported : ParseState, state.next.cursor.LeadsTo reported.cursor →
          state.next.Reads source offset (reported.restOfBody source scan).1
            (reported.restOfBody source scan).2.next := by
        intro reported hreported
        have hle : reported.remaining ≤ state.next.remaining := hreported.remaining_le
        have hreads := reads_restOfBody hscan (hreported.placed hplacedNext) (by omega)
        exact (hnothing.onward hreported).append hreads
      split
      · rename_i titled heq
        rw [heq] at hleads
        refine hrest _ ?_
        rw [cursor_report]
        exact hleads
      · rename_i title titled heq
        rw [heq] at hleads hlaid
        have hcolon := hleads.trans titled.leadsTo_next
        have hplacedColon := hcolon.placed hplacedNext
        have hcolonLe : titled.next.remaining ≤ state.next.remaining := hcolon.remaining_le
        have hnextLe : titled.next.next.remaining ≤ titled.next.remaining :=
          titled.next.leadsTo_next.remaining_le
        have hcolonOffset : state.next.offset source ≤ titled.next.offset source :=
          hcolon.offset_le hplacedNext
        have hlater : titled.next.offset source ≤ titled.next.next.offset source :=
          titled.next.leadsTo_next.offset_le hplacedColon
        split
        · have htitle : Laid offset (some title).toList (titled.next.next.offset source) :=
            (hlaid.from (by omega)).upTo (Int.ofNat_le.2 hlater)
          have htypeColon : offset + type.length ≤ titled.next.offset source := by omega
          have hbody := reads_resourceBody hscan (by omega) hplacedColon htypeColon htitle
          exact hbody.before hplacedNext (hcolon.trans titled.next.leadsTo_next)
        · have hreported : state.next.cursor.LeadsTo
              (titled.next.reportHere source .missingTitleColon).cursor := by
            rw [cursor_reportHere]
            exact hcolon
          split
          · exact hrest _ hreported
          · exact (hnothing.onward hreported).next

end ParseState

end Manifest
