import Manifest.Parse.Requirement
import Manifest.Proofs.Parsing.Motion
import Manifest.Proofs.Tree.Interpolated

/-!
# What routines of the grammar read

A routine moves a parse forward and gives nodes that are laid out in the text between
where it began and where it ends.  A scan does so for a single stretch, and ends on one
of its stop tokens or behind the last token.
-/

namespace Manifest

open Node (Laid Fits)

namespace ParseState

/-- From one state a routine arrives at another; what it gives is laid out from `start` to
there. -/
structure Reads (source : List Char) (first : ParseState) (start : Int) (nodes : List Node)
    (after : ParseState) : Prop where
  placed : first.cursor.Placed source
  leads : first.cursor.LeadsTo after.cursor
  laid : Laid start nodes (after.offset source)

/-- From one state a scan arrives at another, on a stop token or behind the last token. -/
structure Stretch (source : List Char) (first : ParseState) (start : Int)
    (stops : List TokenKind) (result : Node × ParseState) : Prop where
  placed : first.cursor.Placed source
  leads : first.cursor.LeadsTo result.2.cursor
  fits : Fits start result.1 (result.2.currentStop source)
  stopped : ∀ token, result.2.token? = some token → stops.contains token.kind = true

variable {source : List Char} {first state after : ParseState} {start : Int}
  {nodes more : List Node} {node : Node} {token : Token} {stops : List TokenKind}
  {result : Node × ParseState}

/-! ## Reports -/

@[simp]
theorem cursor_record (diagnostic : Diagnostic) (state : ParseState) :
    (state.record diagnostic).cursor = state.cursor := by
  unfold record
  split
  · split <;> rfl
  · rfl

@[simp]
theorem cursor_report (finding : Finding) (range : TextRange) (state : ParseState) :
    (state.report finding range).cursor = state.cursor :=
  cursor_record _ _

@[simp]
theorem cursor_reportHere (source : List Char) (finding : Finding) (state : ParseState) :
    (state.reportHere source finding).cursor = state.cursor :=
  cursor_record _ _

/-! ## Moves -/

theorem leadsTo_next (state : ParseState) : state.cursor.LeadsTo state.next.cursor :=
  state.cursor.leadsTo_next

theorem leadsTo_moveNext (state : ParseState) : state.cursor.LeadsTo state.moveNext.cursor :=
  state.cursor.leadsTo_moveNext

theorem moveNext_leadsTo_next (state : ParseState) :
    state.moveNext.cursor.LeadsTo state.next.cursor :=
  state.cursor.moveNext_leadsTo_next

theorem placed_next (h : state.cursor.Placed source) : state.next.cursor.Placed source :=
  state.leadsTo_next.placed h

theorem placed_moveNext (h : state.cursor.Placed source) : state.moveNext.cursor.Placed source :=
  state.leadsTo_moveNext.placed h

theorem offset_le_next (h : state.cursor.Placed source) :
    state.offset source ≤ state.next.offset source :=
  state.leadsTo_next.offset_le h

theorem remaining_next_le (state : ParseState) : state.next.remaining ≤ state.remaining :=
  state.leadsTo_next.remaining_le

theorem remaining_moveNext_le (state : ParseState) :
    state.moveNext.remaining ≤ state.remaining :=
  state.leadsTo_moveNext.remaining_le

theorem remaining_next_lt (h : state.token? = some token) :
    state.next.remaining < state.remaining :=
  Cursor.remaining_next_lt h

theorem previous_next (htoken : state.token? = some token) (h : token.isTrivia = false) :
    state.next.previous = state :=
  congrArg (fun cursor => { state with cursor }) (Cursor.previous_next htoken h)

/-! ## Offsets -/

theorem offset_of_token? (h : state.token? = some token) :
    state.offset source = token.offset :=
  Cursor.offset_of_token? h

theorem token?_of_isAt {kind : TokenKind} (h : state.isAt kind = true) :
    ∃ token, state.token? = some token ∧ token.kind = kind := by
  have hkind : state.kind? = some kind := eq_of_beq h
  exact Option.map_eq_some_iff.1 hkind

theorem currentStop_of_token? (h : state.token? = some token) :
    state.currentStop source = token.stop := by
  unfold currentStop
  rw [h]

theorem currentStop_of_none (h : state.token? = none) :
    state.currentStop source = source.length := by
  unfold currentStop
  rw [h]

theorem currentStop_le_next (h : state.cursor.Placed source) :
    state.currentStop source ≤ state.next.offset source := by
  cases htoken : state.token? with
  | some token =>
      rw [currentStop_of_token? htoken]
      exact h.stop_le_next htoken
  | none =>
      have hnext : state.next.offset source = source.length :=
        (congrArg (Cursor.offset source) (Cursor.next_of_none h.begun htoken)).trans
          (Cursor.offset_of_none h.begun htoken)
      exact Nat.le_of_eq ((currentStop_of_none htoken).trans hnext.symm)

theorem offset_le_currentStop (h : state.cursor.Placed source) :
    state.offset source ≤ state.currentStop source := by
  cases htoken : state.token? with
  | some token =>
      have hoffset : state.offset source = token.offset := Cursor.offset_of_token? htoken
      rw [currentStop_of_token? htoken, hoffset]
      exact token.range.start_le_stop
  | none =>
      rw [currentStop_of_none htoken]
      exact Cursor.Placed.offset_le_length h

/-! ## Nodes of single tokens -/

/-- What is unquoted has no opening quote any more. -/
theorem length_unquote_lt {text : List Char} (h : text ≠ []) :
    (Quotation.unquote text).length < text.length := by
  have hpos : 0 < text.length := List.length_pos_iff.2 h
  unfold Quotation.unquote Quotation.inner
  split
  · rw [List.length_dropLast, List.length_drop]
    omega
  · rw [List.length_drop]
    omega

theorem text_ne_nil (h : state.cursor.Placed source) (htoken : state.token? = some token) :
    token.text source ≠ [] := by
  have hlength := h.length_text htoken
  have hcovers := (h.covers token (Cursor.mem_tokens htoken)).1
  intro hnil
  rw [hnil, List.length_nil] at hlength
  unfold TextRange.length at hcovers
  unfold Token.offset Token.stop at hlength
  omega

theorem fits_quotedClassRef (h : state.cursor.Placed source)
    (htoken : state.token? = some token) :
    Fits token.offset (quotedClassRef source token) token.stop := by
  have hlength := h.length_text htoken
  have hless := length_unquote_lt (text_ne_nil h htoken)
  exact Node.fits_classRef (by omega) (by omega)

theorem fits_bareClassRef (h : state.cursor.Placed source)
    (htoken : state.token? = some token) :
    Fits token.offset (Node.classRef token.offset token.offset (token.text source))
      token.stop := by
  have hlength := h.length_text htoken
  exact Node.fits_classRef (Int.le_refl _) (by omega)

theorem fits_tokenLeaf (h : state.cursor.Placed source) (htoken : state.token? = some token)
    (form : Form Link) (hform : form.ownLength = (token.text source).length) :
    Fits token.offset (Node.leaf token.offset form) token.stop := by
  have hlength := h.length_text htoken
  exact Node.fits_leaf (by omega) (by omega)

theorem fits_tokenString (h : state.cursor.Placed source) (htoken : state.token? = some token) :
    Fits token.offset (Node.string token.offset (token.text source)) token.stop := by
  have hlength := h.length_text htoken
  exact (Node.fits_string _ _).upTo (by omega)

/-! ## Putting routines together -/

theorem Reads.placed_after (h : first.Reads source start nodes after) :
    after.cursor.Placed source :=
  h.leads.placed h.placed

theorem Reads.remaining_le (h : first.Reads source start nodes after) :
    after.remaining ≤ first.remaining :=
  h.leads.remaining_le

theorem reads_nothing (hplaced : first.cursor.Placed source)
    (hleads : first.cursor.LeadsTo after.cursor) (hstart : start ≤ first.offset source) :
    first.Reads source start [] after where
  placed := hplaced
  leads := hleads
  laid := by
    have hle := hleads.offset_le hplaced
    refine Node.laid_nil (Int.le_trans hstart ?_)
    exact Int.ofNat_le.2 hle

theorem Reads.onward (h : first.Reads source start nodes state)
    (hleads : state.cursor.LeadsTo after.cursor) : first.Reads source start nodes after where
  placed := h.placed
  leads := h.leads.trans hleads
  laid := h.laid.upTo (Int.ofNat_le.2 (hleads.offset_le h.placed_after))

theorem Reads.next (h : first.Reads source start nodes state) :
    first.Reads source start nodes state.next :=
  h.onward state.cursor.leadsTo_next

theorem Reads.moveNext (h : first.Reads source start nodes state) :
    first.Reads source start nodes state.moveNext :=
  h.onward state.cursor.leadsTo_moveNext

theorem Reads.before (h : state.Reads source start nodes after)
    (hplaced : first.cursor.Placed source) (hleads : first.cursor.LeadsTo state.cursor) :
    first.Reads source start nodes after :=
  ⟨hplaced, hleads.trans h.leads, h.laid⟩

theorem Reads.append (h : first.Reads source start nodes state)
    (h' : state.Reads source (state.offset source) more after) :
    first.Reads source start (nodes ++ more) after :=
  ⟨h.placed, h.leads.trans h'.leads, h.laid.append h'.laid⟩

theorem reads_node (hplaced : first.cursor.Placed source)
    (hleads : first.cursor.LeadsTo after.cursor) (hfits : Fits start node (after.offset source)) :
    first.Reads source start [node] after :=
  ⟨hplaced, hleads, hfits.laid⟩

theorem reads_token (h : state.cursor.Placed source) (htoken : state.token? = some token)
    (hfits : Fits token.offset node token.stop) :
    state.next.Reads source (state.offset source) [node] state.next := by
  have hoffset : state.offset source = token.offset := Cursor.offset_of_token? htoken
  have hstop := h.stop_le_next htoken
  refine reads_node (state.cursor.leadsTo_next.placed h) (.refl _) ?_
  rw [hoffset]
  exact hfits.upTo (Int.ofNat_le.2 hstop)

theorem Reads.congr {other : ParseState} (h : first.Reads source start nodes after)
    (hcursor : other.cursor = after.cursor) : first.Reads source start nodes other where
  placed := h.placed
  leads := by rw [hcursor]; exact h.leads
  laid := by
    unfold offset
    rw [hcursor]
    exact h.laid

/-- Leaving the last token of a stretch goes beyond it. -/
theorem Stretch.reads (h : first.Stretch source start stops result) :
    first.Reads source start [result.1] result.2.next where
  placed := h.placed
  leads := h.leads.trans result.2.cursor.leadsTo_next
  laid := by
    have hstop := currentStop_le_next (h.leads.placed h.placed)
    exact (h.fits.upTo (Int.ofNat_le.2 hstop)).laid

/-- A stretch that is not ended by a token reaches to the end of the text. -/
theorem Stretch.reads_end (h : first.Stretch source start stops result)
    (hend : result.2.token? = none) : first.Reads source start [result.1] result.2 :=
  h.reads.congr (Cursor.next_of_none (h.leads.placed h.placed).begun hend).symm

end ParseState

namespace Scan

open ParseState

/-- A scan lays out stretches where fewer than `bound` tokens are left. -/
def Lays (source : List Char) (bound : Nat) (scan : Scan) : Prop :=
  ∀ (offset : Nat) (stops : List TokenKind) (state : ParseState), state.remaining < bound →
    state.cursor.Placed source → offset ≤ state.offset source →
      state.Stretch source offset stops (scan offset stops state)

variable {source : List Char} {bound : Nat} {scan : Scan} {state : ParseState}
  {stops : List TokenKind} {token : Token}

theorem Lays.here (h : scan.Lays source bound) (hplaced : state.cursor.Placed source)
    (hbound : state.remaining < bound) (stops : List TokenKind) :
    state.Stretch source (state.offset source) stops (scan.here source stops state) :=
  h _ _ _ hbound hplaced (Nat.le_refl _)

theorem Lays.inside (h : scan.Lays source bound) (hplaced : state.cursor.Placed source)
    (hbound : state.moveNext.remaining < bound) (stops : List TokenKind) :
    state.moveNext.Stretch source (state.moveNext.offset source) stops
      (scan.inside source stops state) :=
  h.here (state.cursor.leadsTo_moveNext.placed hplaced) hbound stops

end Scan

end Manifest
