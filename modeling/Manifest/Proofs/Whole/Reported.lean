import Manifest.Proofs.Lexing.Reports
import Manifest.Proofs.Reports.TopLevel
import Manifest.Proofs.Whole.Blanks

/-!
# Reports of a manifest

The lexer and the parser report from the beginning of a text to its end, each at one place
once.  The reports of a manifest are both rows merged by their starts.
-/

namespace Manifest

namespace Diagnostic

/-- Whether a report comes before another one: the earlier one of two that start alike. -/
def notBehind (first second : Diagnostic) : Bool :=
  decide (first.start ≤ second.start)

variable {diagnostic first second : Diagnostic} {left right row : List Diagnostic}

/-! ## Rows put together by start -/

theorem insertByStart_of_le (h : diagnostic.start ≤ first.start) (row : List Diagnostic) :
    insertByStart diagnostic (first :: row) = diagnostic :: first :: row :=
  if_pos h

theorem insertByStart_of_lt (h : first.start < diagnostic.start) (row : List Diagnostic) :
    insertByStart diagnostic (first :: row) = first :: insertByStart diagnostic row :=
  if_neg (Nat.not_le_of_lt h)

theorem merge_of_le (h : first.start ≤ second.start) (left right : List Diagnostic) :
    (first :: left).merge (second :: right) notBehind =
      first :: left.merge (second :: right) notBehind := by
  rw [List.cons_merge_cons]
  exact if_pos (decide_eq_true h)

theorem merge_of_lt (h : second.start < first.start) (left right : List Diagnostic) :
    (first :: left).merge (second :: right) notBehind =
      second :: (first :: left).merge right notBehind := by
  have hbehind : ¬ notBehind first second = true := fun hle =>
    Nat.not_le_of_lt h (of_decide_eq_true hle)
  rw [List.cons_merge_cons]
  exact if_neg hbehind

theorem insertByStart_eq_merge (diagnostic : Diagnostic) (row : List Diagnostic) :
    insertByStart diagnostic row = [diagnostic].merge row notBehind := by
  induction row with
  | nil => rw [List.merge_right, insertByStart]
  | cons first row ih =>
      rcases Nat.lt_or_ge first.start diagnostic.start with hless | hle
      · rw [insertByStart_of_lt hless, merge_of_lt hless, ih]
      · rw [insertByStart_of_le hle, merge_of_le hle, List.nil_merge]

theorem insertByStart_merge (diagnostic : Diagnostic) (left right : List Diagnostic) :
    insertByStart diagnostic (left.merge right notBehind) =
      (insertByStart diagnostic left).merge right notBehind := by
  induction left generalizing right with
  | nil => rw [List.nil_merge, insertByStart_eq_merge, insertByStart]
  | cons first left ihLeft =>
      induction right with
      | nil => rw [List.merge_right, List.merge_right]
      | cons second right ihRight =>
          rcases Nat.lt_or_ge first.start diagnostic.start with hfirst | hfirst
          · rw [insertByStart_of_lt hfirst] at ihRight ⊢
            rcases Nat.lt_or_ge second.start first.start with horder | horder
            · rw [merge_of_lt horder, merge_of_lt horder,
                insertByStart_of_lt (Nat.lt_trans horder hfirst), ihRight]
            · rw [merge_of_le horder, merge_of_le horder, insertByStart_of_lt hfirst, ihLeft]
          · rw [insertByStart_of_le hfirst] at ihRight ⊢
            rcases Nat.lt_or_ge second.start diagnostic.start with hsecond | hsecond
            · rw [merge_of_lt (Nat.lt_of_lt_of_le hsecond hfirst), merge_of_lt hsecond,
                insertByStart_of_lt hsecond, ihRight]
            · rw [merge_of_le hsecond]
              rcases Nat.lt_or_ge second.start first.start with horder | horder
              · rw [merge_of_lt horder, insertByStart_of_le hsecond]
              · rw [merge_of_le horder, insertByStart_of_le hfirst]

theorem sortByStart_append (left right : List Diagnostic) :
    sortByStart (left ++ right) = (sortByStart left).merge (sortByStart right) notBehind := by
  induction left with
  | nil => exact (List.nil_merge _).symm
  | cons diagnostic left ih =>
      show insertByStart diagnostic (sortByStart (left ++ right)) = _
      rw [ih, insertByStart_merge]
      rfl

/-- A row that starts one behind the other stays as it is. -/
theorem sortByStart_of_ascending
    (h : row.Pairwise fun first second => first.start < second.start) : sortByStart row = row := by
  induction row with
  | nil => rfl
  | cons first row ih =>
      obtain ⟨hfirst, hrow⟩ := List.pairwise_cons.1 h
      show insertByStart first (sortByStart row) = _
      rw [ih hrow]
      cases row with
      | nil => rfl
      | cons second row => exact if_pos (Nat.le_of_lt (hfirst second List.mem_cons_self))

/-- Two rows that start one behind the other each are merged in that order; of two reports that
start alike, the first is of the left row and the second of the right one. -/
theorem pairwise_merge_ascending
    (hleft : left.Pairwise fun first second => first.start < second.start)
    (hright : right.Pairwise fun first second => first.start < second.start) :
    (left.merge right notBehind).Pairwise fun first second =>
      first.start < second.start ∨
        (first.start = second.start ∧ first ∈ left ∧ second ∈ right) := by
  induction left generalizing right with
  | nil =>
      rw [List.nil_merge]
      exact hright.imp Or.inl
  | cons first left ihLeft =>
      obtain ⟨hfirst, hleft'⟩ := List.pairwise_cons.1 hleft
      induction right with
      | nil =>
          rw [List.merge_right]
          exact hleft.imp Or.inl
      | cons second right ihRight =>
          obtain ⟨hsecond, hright'⟩ := List.pairwise_cons.1 hright
          rcases Nat.lt_or_ge second.start first.start with horder | horder
          · rw [merge_of_lt horder]
            refine List.Pairwise.cons (fun report hreport => Or.inl ?_) ?_
            · rcases List.mem_merge.1 hreport with hreport | hreport
              · rcases List.mem_cons.1 hreport with rfl | hrest
                · exact horder
                · exact Nat.lt_trans horder (hfirst report hrest)
              · exact hsecond report hreport
            · refine (ihRight hright').imp fun hpair => hpair.imp_right ?_
              exact fun ⟨hsame, hmem, hmem'⟩ => ⟨hsame, hmem, List.mem_cons_of_mem _ hmem'⟩
          · rw [merge_of_le horder]
            refine List.Pairwise.cons (fun report hreport => ?_) ?_
            · rcases List.mem_merge.1 hreport with hmem | hmem
              · exact Or.inl (hfirst report hmem)
              · have hle : second.start ≤ report.start := by
                  rcases List.mem_cons.1 hmem with rfl | hrest
                  · exact Nat.le_refl _
                  · exact Nat.le_of_lt (hsecond report hrest)
                rcases Nat.lt_or_eq_of_le (Nat.le_trans horder hle) with hless | hsame
                · exact Or.inl hless
                · exact Or.inr ⟨hsame, List.mem_cons_self, hmem⟩
            · refine (ihLeft hleft' hright).imp fun hpair => hpair.imp_right ?_
              exact fun ⟨hsame, hmem, hmem'⟩ => ⟨hsame, List.mem_cons_of_mem _ hmem, hmem'⟩

end Diagnostic

/-! ## Rows of reports -/

theorem TokenStream.ascending_lex (multiline : Bool) (source : List Char) :
    (lex multiline source).diagnostics.Pairwise fun first second =>
      first.start < second.start := by
  have htokens := pairwise_lex multiline source
  rw [lex_eq_lexed] at htokens ⊢
  have hreported := Site.reported_lexed (.ofText source) multiline
  refine List.pairwise_filterMap.2 ((List.pairwise_map.1 htokens).imp_of_mem ?_)
  intro placed placed' hplaced hplaced' hless diagnostic hsome diagnostic' hsome'
  rw [((hreported placed hplaced).reportedBy hsome).start_eq,
    ((hreported placed' hplaced').reportedBy hsome').start_eq]
  exact hless

namespace Parsed

theorem ascending_read (options : ParseOptions) (interruption : Interruption)
    (source : List Char) :
    (read options interruption source).state.diagnostics.Pairwise fun first second =>
      first.start < second.start :=
  List.pairwise_reverse.2
    (TopLevel.ascending_readAll options.multiline options.reportGap interruption source)

theorem merged_ofText (options : ParseOptions) (interruption : Interruption)
    (source : List Char) :
    (ofText options interruption source).diagnostics =
      (TokenStream.lex options.multiline source).diagnostics.merge
        (read options interruption source).state.diagnostics Diagnostic.notBehind := by
  show Diagnostic.sortByStart [(TokenStream.lex options.multiline source).diagnostics,
    (read options interruption source).state.diagnostics].flatten = _
  rw [List.flatten_cons, List.flatten_singleton, Diagnostic.sortByStart_append,
    Diagnostic.sortByStart_of_ascending (TokenStream.ascending_lex options.multiline source),
    Diagnostic.sortByStart_of_ascending (ascending_read options interruption source)]

/-- The reports of the lexer and those of the parser each start one behind the other, and the
reports of the manifest are both rows merged by start, the lexer first. -/
theorem diagnostics_ofText (options : ParseOptions) (interruption : Interruption)
    (source : List Char) :
    let lexer := (TokenStream.lex options.multiline source).diagnostics
    let parser := (read options interruption source).state.diagnostics
    let merged := (ofText options interruption source).diagnostics
    (lexer.Pairwise fun first second => first.start < second.start) ∧
      (parser.Pairwise fun first second => first.start < second.start) ∧
      merged = lexer.merge parser Diagnostic.notBehind ∧
      merged.Perm (lexer ++ parser) ∧
      merged.Pairwise fun first second => first.start < second.start ∨
        (first.start = second.start ∧ first ∈ lexer ∧ second ∈ parser) := by
  have hlexer := TokenStream.ascending_lex options.multiline source
  have hparser := ascending_read options interruption source
  intro lexer parser merged
  have hmerged : merged = lexer.merge parser Diagnostic.notBehind :=
    merged_ofText options interruption source
  refine ⟨hlexer, hparser, hmerged, ?_, ?_⟩
  · rw [hmerged]
    exact List.merge_perm_append _
  · rw [hmerged]
    exact Diagnostic.pairwise_merge_ascending hlexer hparser

end Parsed

end Manifest
