import Manifest.Parse.Parsed
import Manifest.Proofs.Parsing.Scans

/-!
# Trees of manifests

Declarations are laid out one after the other, and the root spans the text.  So each
element of a tree holds its children in order and side by side.
-/

namespace Manifest

open Node (Fits)

/-! ## Declarations -/

namespace TopLevel

variable {source : List Char} {first : ParseState} {read other : TopLevel} {token : Token}
  {reportGap : Bool} {interruption : Interruption}

def Laying (source : List Char) (first : ParseState) (read : TopLevel) : Prop :=
  first.Reads source 0 read.declarations read.state

theorem cursor_gap (reportGap : Bool) (token : Token) (read : TopLevel) :
    (read.gap reportGap token).state.cursor = read.state.cursor := by
  unfold gap
  split
  · exact ParseState.cursor_report _ _ _
  · rfl

theorem declarations_gap (reportGap : Bool) (token : Token) (read : TopLevel) :
    (read.gap reportGap token).declarations = read.declarations := by
  unfold gap
  split <;> rfl

theorem reads_declaration (hplaced : read.state.cursor.Placed source) (reportGap : Bool)
    (token : Token) :
    ∃ nodes, (read.declaration source reportGap token).declarations = read.declarations ++ nodes ∧
      read.state.next.Reads source (read.state.offset source) nodes
        (read.declaration source reportGap token).state.next := by
  have hscan := Scan.lays_scan source (read.state.next.remaining + 1)
  have hbound : read.state.next.remaining < read.state.next.remaining + 1 := Nat.lt_succ_self _
  have hnext := ParseState.placed_next hplaced
  have hle := ParseState.offset_le_next hplaced
  unfold declaration
  split
  · exact ⟨_, rfl, ParseState.reads_classDecl hscan hplaced hbound⟩
  · exact ⟨_, rfl, ParseState.reads_nodeDecl hscan hplaced hbound⟩
  · exact ⟨_, rfl, ParseState.reads_defineDecl hscan hplaced hbound⟩
  · refine ⟨[], ?_, ?_⟩
    · rw [declarations_gap, List.append_nil]
    · have hcursor : (read.gap reportGap token).state.next.cursor = read.state.next.cursor :=
        congrArg Cursor.next (cursor_gap reportGap token read)
      exact (ParseState.reads_nothing hnext (.refl _) (Int.ofNat_le.2 hle)).congr hcursor

theorem Laying.declaration (h : Laying source first read) :
    first.Reads source 0 (read.declaration source reportGap token).declarations
      (read.declaration source reportGap token).state.next := by
  obtain ⟨nodes, hnodes, hreads⟩ := reads_declaration h.placed_after reportGap token
  rw [hnodes]
  exact ParseState.Reads.append h (hreads.before h.placed_after read.state.leadsTo_next)

theorem Laying.step (h : Laying source first read) :
    Laying source first (step source reportGap interruption read).state := by
  unfold TopLevel.step
  split
  · exact h
  · rename_i token htoken
    dsimp only
    split
    · exact h
    · split
      · exact h
      · have hasked : Laying source first
            { read with
              validityQuestions := read.validityQuestions + 1
              cancellationQuestions := read.cancellationQuestions + 1 } := h
        exact hasked.declaration

/-- The first token of a manifest, if it is significant, or the first significant one. -/
theorem placed_ofTokens (multiline : Bool) (source : List Char) :
    (ParseState.ofTokens (TokenStream.lex multiline source).tokens).next.cursor.Placed source := by
  obtain ⟨htiles, hcovers⟩ := TokenStream.tiles_lex multiline source
  have hsame : (ParseState.ofTokens (TokenStream.lex multiline source).tokens).next.cursor.tokens =
      (TokenStream.lex multiline source).tokens :=
    (Cursor.start (TokenStream.lex multiline source).tokens).leadsTo_next.tokens_eq
  refine ⟨Cursor.begun_settle [] _, ?_, ?_⟩
  · rw [hsame]
    exact htiles
  · rw [hsame]
    exact hcovers

theorem laying_readAll (multiline reportGap : Bool) (interruption : Interruption)
    (source : List Char) :
    Laying source (ParseState.ofTokens (TokenStream.lex multiline source).tokens).next
      (readAll source reportGap interruption
        (.ofTokens (TokenStream.lex multiline source).tokens)) := by
  have hplaced := placed_ofTokens multiline source
  unfold readAll
  refine iterate_invariant (Laying source _) (fun read h => h.step) _ _ ?_
  exact ParseState.reads_nothing hplaced (.refl _) (Int.natCast_nonneg _)

end TopLevel

/-! ## Trees -/

namespace Parsed

variable (options : ParseOptions) (interruption : Interruption) (source : List Char)

theorem fits_root : Fits 0 (ofText options interruption source).root source.length := by
  have hread :=
    TopLevel.laying_readAll options.multiline options.reportGap interruption source
  have hend := hread.placed_after.offset_le_length
  exact Node.fits_ended (Int.le_refl _) (Int.natCast_nonneg _) (Int.le_refl _)
    (hread.laid.upTo (Int.ofNat_le.2 hend))

/-- In the tree of any text, elements nest, children are in order and apart, and the root spans
the text. -/
theorem spans_ofText :
    (∀ element ∈ (ofText options interruption source).root.walk,
      element.offset ≤ element.endOffset ∧
      (∀ child ∈ element.children,
        element.offset ≤ child.offset ∧ child.endOffset ≤ element.endOffset) ∧
      element.children.Pairwise fun left right =>
        left.offset ≤ right.offset ∧ left.endOffset ≤ right.offset) ∧
    (ofText options interruption source).root.offset = 0 ∧
    (ofText options interruption source).root.endOffset = source.length := by
  have hroot := fits_root options interruption source
  refine ⟨fun element helement => ?_, rfl, Int.le_antisymm hroot.2.2 ?_⟩
  · have hspanned := hroot.2.1.walk _ element helement
    have hlaid := (Node.spanned_iff.1 hspanned).2
    refine ⟨hspanned.offset_le, fun child hchild => ⟨(hlaid.mem hchild).1, ?_⟩, hlaid.pairwise⟩
    rw [Node.endOffset_eq element]
    exact Node.endOffset_child_le hchild
  · exact Node.leastEnd_le_endOffset _

end Parsed

end Manifest
