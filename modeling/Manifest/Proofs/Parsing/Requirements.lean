import Manifest.Proofs.Parsing.Stretches

/-!
# Class references and requirements are laid out

The names of a requirement follow one another behind its word, whether or not they
are well formed; a malformed reference is read again as a stretch of tokens.
-/

namespace Manifest

open Node (Laid Fits)

variable {source : List Char} {bound : Nat} {scan : Scan} {first state after : ParseState}
  {start : Int} {nodes : List Node} {token : Token}

/-! ## Class references -/

theorem ParseState.cursor_malformedReference (source : List Char) (report : Bool)
    (state : ParseState) : (state.malformedReference source report).2.cursor = state.cursor := by
  unfold malformedReference
  split
  · exact cursor_reportHere _ _ _
  · rfl

/-- A reference is laid out behind the word it begins with; there is none if it is malformed. -/
theorem ParseState.reads_classReference (h : state.cursor.Placed source) (report : Bool) :
    state.next.Reads source (state.next.offset source)
      (state.classReference source report).1.toList (state.classReference source report).2 := by
  have hplaced := ParseState.placed_next h
  have hnothing : state.next.Reads source (state.next.offset source) [] state.next :=
    reads_nothing hplaced (.refl _) (Int.le_refl _)
  have hmalformed : ∀ failed : ParseState, state.next.cursor.LeadsTo failed.cursor →
      state.next.Reads source (state.next.offset source)
        (failed.malformedReference source report).1.toList
        (failed.malformedReference source report).2 := by
    intro failed hleads
    refine (hnothing.onward hleads).congr ?_
    exact cursor_malformedReference source report failed
  have hname := state.next.leadsTo_next
  have hclosing := hname.trans state.next.next.leadsTo_next
  unfold classReference
  dsimp only
  split
  · split
    · rename_i token htoken
      split
      · split
        · have hreads := reads_token (hname.placed hplaced) htoken
            (fits_quotedClassRef (hname.placed hplaced) htoken)
          exact hnothing.next.append (hreads.before (hname.placed hplaced)
            state.next.next.leadsTo_next)
        · exact hmalformed _ hclosing
      · exact hmalformed _ hname
    · exact hmalformed _ hname
  · exact hmalformed _ (.refl _)

/-- Where there is a reference, a string stands in brackets, and the last of them is reached. -/
theorem ParseState.classReference_some {source : List Char} {report : Bool} {reference : Node}
    {state last : ParseState} (h : state.classReference source report = (some reference, last)) :
    state.next.isAt .leftBracket = true ∧
      (∃ name, state.next.next.token? = some name ∧ name.kind = .string ∧
        reference = quotedClassRef source name) ∧
      last = state.next.next.next ∧ last.isAt .rightBracket = true := by
  have hmalformed : ∀ failed : ParseState,
      failed.malformedReference source report ≠ (some reference, last) := by
    intro failed hread
    cases hread
  unfold classReference at h
  dsimp only at h
  split at h
  · rename_i hopening
    split at h
    · rename_i name hname
      split at h
      · rename_i hstring
        split at h
        · rename_i hclosing
          obtain ⟨hreference, rfl⟩ := Prod.mk.inj h
          exact ⟨hopening, ⟨name, hname, hstring, (Option.some.inj hreference).symm⟩, rfl, hclosing⟩
        · exact (hmalformed _ h).elim
      · exact (hmalformed _ h).elim
    · exact (hmalformed _ h).elim
  · exact (hmalformed _ h).elim

/-! ## Names of requirements -/

namespace RequirementNames

variable {read : RequirementNames}

theorem reads_afterName (h : first.Reads source start nodes state.next) :
    first.Reads source start (afterName nodes state).state.names
      (afterName nodes state).state.state := by
  unfold afterName
  dsimp only
  split
  · exact h.next
  · exact h

theorem reads_ofClassType (hscan : scan.Lays source bound)
    (hbound : read.state.next.remaining < bound)
    (h : first.Reads source start read.names read.state) :
    first.Reads source start (ofClassType source scan read).state.names
      (ofClassType source scan read).state.state := by
  have hreference := ParseState.reads_classReference h.placed_after true
  unfold ofClassType
  split
  · rename_i reference state heq
    rw [heq] at hreference
    exact reads_afterName (h.next.append hreference).next
  · rename_i failed heq
    have hbracket : (ParseState.next { failed with cursor := read.state.cursor }).cursor =
        read.state.next.cursor := rfl
    dsimp only
    split
    · have hmove : (ParseState.next { failed with cursor := read.state.cursor }).moveNext.remaining
          < bound :=
        Nat.lt_of_le_of_lt read.state.next.leadsTo_moveNext.remaining_le hbound
      have hplaced := h.next.placed_after
      rw [← hbracket] at hplaced
      have hindex := (hscan.inside hplaced hmove indexStops).reads
      exact reads_afterName ((h.next.congr hbracket).moveNext.append hindex)
    · exact h.next.congr hbracket

theorem reads_step (hscan : scan.Lays source bound) (hbound : first.remaining ≤ bound)
    (h : first.Reads source start read.names read.state) :
    first.Reads source start (step source scan read).state.names
      (step source scan read).state.state := by
  unfold step
  split
  · exact h
  · rename_i token htoken
    have hplaced := h.placed_after
    have hname : ∀ node : Node, Fits token.offset node token.stop →
        first.Reads source start (read.names ++ [node]) read.state.next := by
      intro node hfits
      have hreads := ParseState.reads_token hplaced htoken hfits
      exact h.append (hreads.before hplaced read.state.leadsTo_next)
    split
    · exact reads_afterName (hname _ (ParseState.fits_quotedClassRef hplaced htoken))
    · split
      · split
        · have hless : read.state.next.remaining < read.state.remaining :=
            Cursor.remaining_next_lt htoken
          have hle := h.remaining_le
          exact reads_ofClassType hscan (by omega) h
        · exact reads_afterName (hname _ (ParseState.fits_bareClassRef hplaced htoken))
      · exact h

theorem reads_readAll (hscan : scan.Lays source bound) (hbound : state.remaining ≤ bound)
    (h : state.cursor.Placed source) :
    state.Reads source (state.offset source) (readAll source scan state).names
      (readAll source scan state).state :=
  iterate_invariant
    (fun read : RequirementNames =>
      state.Reads source (state.offset source) read.names read.state)
    (fun _ hread => reads_step hscan hbound hread) _ _
    (ParseState.reads_nothing h (.refl _) (Int.le_refl _))

end RequirementNames

/-! ## Requirements -/

namespace ParseState

theorem reads_bracketedNames (hscan : scan.Lays source bound) (closing : TokenKind)
    (hbound : state.next.remaining < bound) (h : state.cursor.Placed source) :
    state.next.Reads source (state.next.offset source)
      (state.bracketedNames source scan closing).1
      (state.bracketedNames source scan closing).2.next ∧
    (state.bracketedNames source scan closing).2.cursor.Begun := by
  have hplaced := ParseState.placed_next h
  have hread := RequirementNames.reads_readAll hscan (Nat.le_of_lt hbound) hplaced
  unfold bracketedNames
  dsimp only
  split
  · have hle := hread.remaining_le
    have hrest := hscan.here hread.placed_after (by omega) [closing]
    exact ⟨hread.append hrest.reads, (hrest.leads.placed hrest.placed).begun⟩
  · exact ⟨hread.next, hread.placed_after.begun⟩

/-- The names of a requirement are laid out up to where the parse goes on: behind the cursor
if that is on a token of the requirement, at the cursor otherwise. -/
theorem reads_requirementNames (hscan : scan.Lays source bound)
    (hbound : state.next.remaining < bound) (h : state.cursor.Placed source) :
    let (names, consumed, last) := state.requirementNames source scan
    state.next.Reads source (state.next.offset source) names
      (if consumed then last.next else last) := by
  have hplaced := ParseState.placed_next h
  have hnothing : state.next.Reads source (state.next.offset source) [] state.next :=
    reads_nothing hplaced (.refl _) (Int.le_refl _)
  unfold requirementNames
  dsimp only
  split
  · exact hnothing
  · split
    · exact RequirementNames.reads_readAll hscan (Nat.le_of_lt hbound) hplaced
    · split
      · exact hnothing
      · rename_i closing hclosing
        have hle := state.next.leadsTo_next.remaining_le
        obtain ⟨hnames, hbegun⟩ :=
          reads_bracketedNames hscan closing (Nat.lt_of_le_of_lt hle hbound) hplaced
        have hreads := hnothing.next.append hnames
        dsimp only
        split
        · exact hreads
        · rename_i hend
          have hnone : (state.next.bracketedNames source scan closing).2.token? = none := by
            simpa using hend
          exact hreads.congr (Cursor.next_of_none hbegun hnone).symm

/-- A requirement is laid out up to where the parse goes on. -/
theorem reads_requirementAt (hscan : scan.Lays source bound)
    (hbound : state.next.remaining < bound) (h : state.cursor.Placed source)
    (htoken : state.token? = some token) :
    let (node, consumed, last) := state.requirementAt source scan token
    state.next.Reads source (state.offset source) [node]
      (if consumed then last.next else last) := by
  have hnames := reads_requirementNames hscan hbound h
  have hoffset : state.offset source = token.offset := Cursor.offset_of_token? htoken
  have hlength := h.length_text htoken
  have hstop : token.stop ≤ state.next.offset source := h.stop_le_next htoken
  unfold requirementAt
  revert hnames
  rcases state.requirementNames source scan with ⟨names, consumed, last⟩
  intro hnames
  dsimp only at hnames ⊢
  have hend := hnames.laid.le
  have hown : (Form.functionCall (token.text source) : Form Link).ownLength =
      (token.text source).length := rfl
  refine reads_node hnames.placed hnames.leads (Node.fits_unended ?_ ?_ ?_ (hnames.laid.from ?_))
  · exact Int.le_of_eq (congrArg Int.ofNat hoffset)
  · rw [hown]
    omega
  · rw [hown]
    omega
  · omega

end ParseState

end Manifest
