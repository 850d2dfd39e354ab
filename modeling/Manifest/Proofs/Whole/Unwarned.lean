import Manifest.Proofs.Whole.Dropped

/-!
# Parses that do not warn

A warning about a statement outside of declarations makes no other difference to a parse.  What
is reported behind it starts further on, so it takes the place of no other report, and no other
report gets lost to it.
-/

namespace Manifest

/-! ## Reports left out -/

namespace Diagnostic

variable {diagnostic : Diagnostic} {row : List Diagnostic} {keep : Diagnostic → Bool}

theorem insertByStart_of_forall_le (h : ∀ report ∈ row, diagnostic.start ≤ report.start) :
    insertByStart diagnostic row = diagnostic :: row := by
  cases row with
  | nil => rfl
  | cons first row => exact insertByStart_of_le (h first List.mem_cons_self) row

theorem pairwise_sortByStart (row : List Diagnostic) :
    (sortByStart row).Pairwise fun first second => notBehind first second = true := by
  induction row with
  | nil => exact List.Pairwise.nil
  | cons diagnostic row ih =>
      show (insertByStart diagnostic (sortByStart row)).Pairwise _
      rw [insertByStart_eq_merge]
      apply List.pairwise_merge
      · intro first second third
        simp only [notBehind, decide_eq_true_eq]
        omega
      · intro first second
        simp only [notBehind, Bool.or_eq_true, decide_eq_true_eq]
        omega
      · exact List.pairwise_singleton _ _
      · exact ih

theorem filter_insertByStart
    (h : row.Pairwise fun first second => notBehind first second = true) :
    (insertByStart diagnostic row).filter keep =
      if keep diagnostic then insertByStart diagnostic (row.filter keep) else row.filter keep := by
  induction row with
  | nil => simp [insertByStart, List.filter_cons]
  | cons first row ih =>
      obtain ⟨hfirst, hrow⟩ := List.pairwise_cons.1 h
      rcases Nat.lt_or_ge first.start diagnostic.start with hless | hle
      · have hrest := ih hrow
        rw [insertByStart_of_lt hless]
        by_cases hkeep : keep first = true
        · rw [List.filter_cons_of_pos hkeep, List.filter_cons_of_pos hkeep, hrest,
            insertByStart_of_lt hless]
          split <;> rfl
        · rw [List.filter_cons_of_neg hkeep, List.filter_cons_of_neg hkeep, hrest]
      · have hleast : ∀ report ∈ (first :: row).filter keep,
            diagnostic.start ≤ report.start := by
          intro report hreport
          rcases List.mem_cons.1 (List.mem_of_mem_filter hreport) with rfl | hlater
          · exact hle
          · exact Nat.le_trans hle (of_decide_eq_true (hfirst report hlater))
        rw [insertByStart_of_le hle, insertByStart_of_forall_le hleast, List.filter_cons]

theorem filter_sortByStart (keep : Diagnostic → Bool) (row : List Diagnostic) :
    (sortByStart row).filter keep = sortByStart (row.filter keep) := by
  induction row with
  | nil => rfl
  | cons diagnostic row ih =>
      show (insertByStart diagnostic (sortByStart row)).filter keep = _
      rw [filter_insertByStart (pairwise_sortByStart row), ih, List.filter_cons]
      split <;> rfl

end Diagnostic

namespace ParseState

variable {state : ParseState} {diagnostic : Diagnostic} {reported : List Diagnostic}
  {source : List Char}

theorem record_eq (h : (state.record diagnostic).reported = reported) :
    state.record diagnostic = { state with reported } :=
  congrArg₂ mk (cursor_record diagnostic state) h

theorem Standing.next (h : state.Standing source) : state.next.Standing source :=
  ⟨placed_next h.1, Cursor.significant_of_ahead (placed_next h.1).begun
    (Cursor.ahead_next h.1.begun)⟩

end ParseState

/-! ## Reports behind a warning -/

namespace Parallel

/-- A text beside itself, from a place on: on the left side `warning` was reported on top of the
`earlier` reports, on the right side it was not. -/
def unwarned (source : List Char) (warning : Diagnostic) (earlier : List Diagnostic) :
    Parallel where
  left := source
  right := source
  beyond := []
  places := fun offset other => other = offset
  tokens := fun token mate =>
    mate = token ∧ token.isTrivia = false ∧ warning.start < token.offset
  nodes := fun node other => node = other
  reports := fun reported other =>
    ∃ later, reported = later ++ warning :: earlier ∧ other = later ++ earlier

variable {source : List Char} {warning diagnostic : Diagnostic} {earlier : List Diagnostic}
  {left right : ParseState} {bound : Nat}

theorem remaps_unwarned : (unwarned source warning earlier).Remaps id id id id where
  nodes := by
    intro node other
    rw [Node.remap_id, Node.remap_id]
    exact Iff.rfl
  places := fun hplaces more => by rw [show _ = _ from hplaces]
  offset := fun hmate => by
    rw [hmate.1]
    rfl
  text := fun hmate => by
    rw [hmate.1]
    rfl
  types := fun hranges => Params.typeText_eq
    (congrArg₂ (fun start stop => (source.drop start).take (stop - start))
      hranges.1 hranges.2).symm

theorem reports_unwarned (hearlier : ∀ report ∈ earlier, report.start < warning.start)
    (hstart : warning.start < diagnostic.start)
    (h : (unwarned source warning earlier).reports left.reported right.reported) :
    (unwarned source warning earlier).reports (left.record diagnostic).reported
      (right.record diagnostic).reported := by
  obtain ⟨later, hleft, hright⟩ := h
  unfold ParseState.record
  rw [hleft, hright]
  cases later with
  | cons last later =>
      dsimp only [List.cons_append]
      by_cases hsame : last.start = diagnostic.start
      · rw [if_pos hsame, if_pos hsame, hleft, hright]
        exact ⟨last :: later, rfl, rfl⟩
      · rw [if_neg hsame, if_neg hsame]
        exact ⟨diagnostic :: last :: later, rfl, rfl⟩
  | nil =>
      refine ⟨[diagnostic], ?_, ?_⟩
      · dsimp only [List.nil_append]
        rw [if_neg (Nat.ne_of_lt hstart)]
        rfl
      · cases earlier with
        | nil => rfl
        | cons last earlier =>
            have hless := Nat.lt_trans (hearlier last List.mem_cons_self) hstart
            dsimp only [List.nil_append]
            rw [if_neg (Nat.ne_of_lt hless)]
            rfl

theorem lawful_unwarned (hearlier : ∀ report ∈ earlier, report.start < warning.start)
    (hend : warning.start < source.length) : (unwarned source warning earlier).Lawful where
  builds := remaps_unwarned.builds
  kind := fun hmate => by rw [hmate.1]
  text := remaps_unwarned.text
  significant := fun hmate => hmate.2.1
  offset := remaps_unwarned.offset
  offsetAfter := fun hmate => by
    rw [hmate.1]
    rfl
  stop := fun hmate => by
    rw [hmate.1]
    rfl
  min := fun hfirst hother => congrArg₂ min hfirst hother
  max := fun hfirst hother => congrArg₂ max hfirst hother
  length := fun _ => rfl
  report := fun finding hmate h => by
    rw [hmate.1]
    exact reports_unwarned hearlier hmate.2.2 h
  reportEnd := fun finding _ h => reports_unwarned hearlier hend h

theorem row_unwarned {tokens : List Token} (h : ∀ token ∈ tokens, warning.start < token.offset) :
    (unwarned source warning earlier).Row tokens tokens := by
  have hrow : (unwarned source warning earlier).Row tokens (tokens.map id ++ []) :=
    row_map (fun _ _ => rfl) (fun token hmem htoken => ⟨rfl, htoken, h token hmem⟩)
      fun _ _ => rfl
  rwa [List.map_id, List.append_nil] at hrow

end Parallel

/-! ## Runs with warnings and without -/

namespace TopLevel

variable {source : List Char} {read other : TopLevel} {token : Token}
  {interruption : Interruption} {fuel : Nat}

/-- A parse that has had its warning, if it was to have any. -/
def mute (read : TopLevel) : TopLevel :=
  { read with reportedGap := true }

theorem mute_onward (source : List Char) (token : Token) (read : TopLevel) :
    read.mute.onward source true token = (read.onward source false token).mute := by
  have hdeclaration : read.mute.asked.declaration source true token =
      (read.asked.declaration source false token).mute := by
    unfold declaration
    split <;> rfl
  unfold onward
  rw [hdeclaration]
  rfl

/-- A parse that has had its warning goes on like one that is to have none. -/
theorem mute_iterate (source : List Char) (interruption : Interruption) (fuel : Nat)
    (read : TopLevel) :
    iterate (step source true interruption) fuel read.mute =
      (iterate (step source false interruption) fuel read).mute := by
  induction fuel generalizing read with
  | zero => rfl
  | succ fuel ih =>
      rw [iterate, iterate]
      cases htoken : read.state.token? with
      | none =>
          have hmute : read.mute.state.token? = none := htoken
          rw [step_of_none htoken, step_of_none hmute]
      | some token =>
          have hmute : read.mute.state.token? = some token := htoken
          rw [step_of_token htoken, step_of_token hmute]
          by_cases hinvalid : interruption.invalid read.validityQuestions = true
          · rw [if_pos hinvalid, if_pos (show interruption.invalid
              read.mute.validityQuestions = true from hinvalid)]
            rfl
          rw [if_neg hinvalid, if_neg (show ¬ interruption.invalid
            read.mute.validityQuestions = true from hinvalid)]
          by_cases hcancelled : interruption.cancelled read.cancellationQuestions = true
          · rw [if_pos hcancelled, if_pos (show interruption.cancelled
              read.mute.cancellationQuestions = true from hcancelled)]
            rfl
          · rw [if_neg hcancelled, if_neg (show ¬ interruption.cancelled
              read.mute.cancellationQuestions = true from hcancelled), mute_onward]
            exact ih _

/-- The same was read, and but for warnings the same was reported; the host answers alike. -/
structure SameButWarnings (interruption : Interruption) (warned plain : TopLevel) : Prop where
  declarations : plain.declarations = warned.declarations
  reported : plain.state.reported =
    warned.state.reported.filter fun report => !report.isWarning
  invalid : interruption.invalid plain.validityQuestions =
    interruption.invalid warned.validityQuestions
  cancelled : interruption.cancelled plain.cancellationQuestions =
    interruption.cancelled warned.cancellationQuestions

theorem filter_of_no_warnings {reported : List Diagnostic}
    (h : reported.filter Diagnostic.isWarning = []) :
    (reported.filter fun report => !report.isWarning) = reported := by
  apply List.filter_eq_self.2
  intro report hreport
  have hnone := List.filter_eq_nil_iff.1 h report hreport
  simpa using hnone

theorem sameButWarnings_self (h : read.warnings = []) :
    SameButWarnings interruption read read :=
  ⟨rfl, (filter_of_no_warnings h).symm, rfl, rfl⟩

theorem SameButWarnings.mute (h : SameButWarnings interruption read other) :
    SameButWarnings interruption read.mute other :=
  ⟨h.declarations, h.reported, h.invalid, h.cancelled⟩

theorem sameButWarnings_behind {warning : Diagnostic}
    (htimely : read.state.Timely source []) (hstanding : read.state.Standing source)
    (hwarning : warning.isWarning = true)
    (hearlier : ∀ report ∈ read.state.reported, report.start < warning.start)
    (hend : warning.start < source.length)
    (hahead : ∀ token ∈ read.state.cursor.ahead, warning.start < token.offset)
    (hfuel : read.state.remaining < fuel) :
    SameButWarnings interruption
      (iterate (step source false interruption) fuel
        { read with state := { read.state with reported := warning :: read.state.reported } })
      (iterate (step source false interruption) fuel read) := by
  let p := Parallel.unwarned source warning read.state.reported
  let warned : TopLevel :=
    { read with state := { read.state with reported := warning :: read.state.reported } }
  have hp : p.Lawful := Parallel.lawful_unwarned hearlier hend
  have hstates : p.Abreast fuel fuel warned.state read.state :=
    { placed := hstanding.1
      placed' := hstanding.1
      below := hfuel
      below' := hfuel
      row := Parallel.row_unwarned hahead
      reports := ⟨[], rfl, rfl⟩
      found := Parallel.not_lost rfl _
      offTrivia := hstanding.2 }
  have hbegin : Alike p fuel fuel interruption read.declarations read.declarations warned read :=
    ⟨⟨[], [], (List.append_nil _).symm, (List.append_nil _).symm, .nil⟩, .inl rfl, hstates,
      fun _ => rfl, fun _ => rfl⟩
  have halike : Alike p fuel fuel interruption read.declarations read.declarations
      (iterate (step source false interruption) fuel warned)
      (iterate (step source false interruption) fuel read) :=
    (alike_iterate_of_lt hp false hbegin hfuel hfuel).resolve_left (Parallel.not_lost rfl _)
  obtain ⟨nodes, nodes', hnodes, hnodes', hrelated⟩ := halike.declarations
  obtain ⟨later, hwarned, hunwarned⟩ := halike.states.reports
  have hsame : nodes = nodes' := by
    have hequal : List.Forall₂ (· = ·) nodes nodes' := hrelated
    rwa [List.forall₂_eq_eq_eq] at hequal
  have hsilent : (later ++ read.state.reported).filter Diagnostic.isWarning = [] := by
    rw [← hunwarned]
    exact Silent.warnings_iterate ⟨htimely, rfl⟩ fuel
  refine ⟨?_, ?_, halike.invalid 0, halike.cancelled 0⟩
  · rw [hnodes', hnodes, hsame]
  · rw [hwarned, hunwarned, List.filter_append, List.filter_cons_of_neg (by simp [hwarning]),
      ← List.filter_append, filter_of_no_warnings hsilent]

/-! ## Statements that are passed over -/

theorem onward_unwarned (hdeclares : token.declares = false) :
    read.onward source false token = { read.asked with state := read.state.next } := by
  unfold onward
  rw [declaration_of_not_declares hdeclares]
  rfl

theorem onward_warned (hdeclares : token.declares = false) (hgap : read.reportedGap = false) :
    read.onward source true token =
      ({ read.asked with state := (read.state.record token.gapWarning).next } : TopLevel).mute := by
  have hfirst : (true && !read.asked.reportedGap) = true := by
    rw [show read.asked.reportedGap = read.reportedGap from rfl, hgap]
    rfl
  unfold onward
  rw [declaration_of_not_declares hdeclares, gap, if_pos hfirst]
  rfl

/-- Declarations are read alike, whether or not statements are reported. -/
theorem onward_of_declares (hdeclares : token.declares = true) (reportGap : Bool) :
    read.onward source reportGap token = read.onward source false token := by
  have hdeclaration : read.asked.declaration source reportGap token =
      read.asked.declaration source false token := by
    unfold declaration
    rcases Token.kind_of_declares hdeclares with hkind | hkind | hkind <;> rw [hkind]
  unfold onward
  rw [hdeclaration]

/-- A statement is passed over alike, whether or not there is a warning about it. -/
theorem sameButWarnings_passed (htimely : read.state.Timely source [])
    (hstanding : read.state.Standing source) (htoken : read.state.token? = some token)
    (hfuel : read.state.next.remaining < fuel) :
    SameButWarnings interruption
      (iterate (step source false interruption) fuel
        { read.asked with state := (read.state.record token.gapWarning).next })
      (iterate (step source false interruption) fuel
        { read.asked with state := read.state.next }) := by
  have hplaced := ParseState.placed_next hstanding.1
  have hoffset : read.state.offset source = token.offset := ParseState.offset_of_token? htoken
  have hlength : token.offset < token.stop :=
    (hstanding.1.covers token (Cursor.mem_tokens htoken)).offset_lt
  have hstop : token.stop ≤ read.state.next.offset source := hstanding.1.stop_le_next htoken
  rcases ParseState.record_cases token.gapWarning read.state with
    ⟨-, -, -, hsame⟩ | ⟨-, hadded⟩
  · rw [ParseState.record_eq hsame]
    exact sameButWarnings_self (Silent.warnings_iterate ⟨htimely.next, rfl⟩ fuel)
  · have hreached : ∀ report ∈ read.state.reported, report.start ≤ token.gapWarning.start :=
      fun report hreport => Nat.le_trans (htimely.reached report hreport) (Nat.le_of_eq hoffset)
    have hascending := ParseState.ascending_record htimely.inOrder.ascending hreached
    rw [hadded] at hascending
    have hearlier : ∀ report ∈ read.state.next.reported, report.start < token.offset :=
      fun report hreport => List.rel_of_pairwise_cons hascending hreport
    have hbelow : read.state.next.offset source ≤ source.length := hplaced.offset_le_length
    have hahead : ∀ other ∈ read.state.next.cursor.ahead, token.offset < other.offset := by
      intro other hother
      have hbeyond := (hplaced.tiles_ahead.between other hother).1
      exact Nat.lt_of_lt_of_le hlength (Nat.le_trans hstop hbeyond)
    let plain : TopLevel := { read.asked with state := read.state.next }
    have htimely' : plain.state.Timely source [] := htimely.next
    rw [ParseState.record_eq hadded]
    exact sameButWarnings_behind htimely' hstanding.next rfl hearlier
      (Nat.lt_of_lt_of_le hlength (Nat.le_trans hstop hbelow)) hahead hfuel

/-! ## Runs -/

/-- Up to the first statement that is passed over both parses are one, and from there on the
warning is all that they differ in. -/
theorem sameButWarnings_iterate (interruption : Interruption) (read : TopLevel)
    (htimely : read.state.Timely source []) (hstanding : read.state.Standing source)
    (hgap : read.reportedGap = false) (hfuel : read.state.remaining < fuel) :
    SameButWarnings interruption (iterate (step source true interruption) fuel read)
      (iterate (step source false interruption) fuel read) := by
  induction fuel generalizing read with
  | zero => exact (Nat.not_lt_zero _ hfuel).elim
  | succ fuel ih =>
      have hnone : read.warnings = [] := htimely.inOrder.warned
      rw [iterate, iterate]
      cases htoken : read.state.token? with
      | none =>
          rw [step_of_none htoken, step_of_none htoken]
          exact sameButWarnings_self hnone
      | some token =>
          rw [step_of_token htoken, step_of_token htoken]
          by_cases hinvalid : interruption.invalid read.validityQuestions = true
          · rw [if_pos hinvalid, if_pos hinvalid]
            exact sameButWarnings_self hnone
          rw [if_neg hinvalid, if_neg hinvalid]
          by_cases hcancelled : interruption.cancelled read.cancellationQuestions = true
          · rw [if_pos hcancelled, if_pos hcancelled]
            exact sameButWarnings_self hnone
          rw [if_neg hcancelled, if_neg hcancelled]
          cases hdeclares : token.declares with
          | true =>
              have honward := onward_declares htimely hdeclares false
              have hless := (placed_onward hstanding.1 htoken false).2
              have hstands := (reported_declaration read.asked hstanding htoken false).2
              rw [onward_of_declares hdeclares true]
              exact ih _ honward.1 hstands (honward.2.trans hgap) (by omega)
          | false =>
              have hless : read.state.next.remaining < read.state.remaining :=
                ParseState.remaining_next_lt htoken
              rw [onward_unwarned hdeclares, onward_warned hdeclares hgap]
              show SameButWarnings interruption (iterate _ fuel _) (iterate _ fuel _)
              rw [mute_iterate]
              exact (sameButWarnings_passed htimely hstanding htoken (by omega)).mute

end TopLevel

/-! ## Manifests -/

namespace Parsed

variable (interruption : Interruption) (source : List Char) (multiline : Bool)

theorem sameButWarnings_read :
    TopLevel.SameButWarnings interruption (read ⟨multiline, true⟩ interruption source)
      (read ⟨multiline, false⟩ interruption source) := by
  have hplaced := TopLevel.placed_ofTokens multiline source
  have hsignificant := Cursor.significant_of_ahead hplaced.begun (Cursor.ahead_settle [] _)
  exact TopLevel.sameButWarnings_iterate interruption
    (TopLevel.first (TokenStream.lex multiline source).tokens)
    (TopLevel.timely_ofTokens multiline source) ⟨hplaced, hsignificant⟩ rfl (Nat.lt_succ_self _)

theorem length_gapWarnings :
    (ofText ⟨multiline, true⟩ interruption source).gapWarnings.length ≤ 1 := by
  rcases warned_cases interruption source multiline with
    ⟨-, hnone⟩ | ⟨token, rest, -, hone, -⟩ | ⟨token, rest, -, hnone, -⟩
  · rw [hnone]
    exact Nat.zero_le 1
  · rw [hone]
    exact Nat.le_refl 1
  · rw [hnone]
    exact Nat.zero_le 1

theorem diagnostics_unwarned :
    (ofText ⟨multiline, false⟩ interruption source).diagnostics =
      (ofText ⟨multiline, true⟩ interruption source).diagnostics.filter
        fun report => report.finding != .unsupportedTopLevelStatement := by
  have hkeep : (fun report : Diagnostic => report.finding != .unsupportedTopLevelStatement) =
      fun report => !report.isWarning := funext fun report =>
    congrArg not (isWarning_eq report).symm
  show Diagnostic.sortByStart [(TokenStream.lex multiline source).diagnostics,
      (read ⟨multiline, false⟩ interruption source).state.diagnostics].flatten =
    (Diagnostic.sortByStart [(TokenStream.lex multiline source).diagnostics,
      (read ⟨multiline, true⟩ interruption source).state.diagnostics].flatten).filter _
  rw [Diagnostic.filter_sortByStart, hkeep]
  unfold ParseState.diagnostics
  rw [(sameButWarnings_read interruption source multiline).reported, List.flatten_cons,
    List.flatten_singleton, List.flatten_cons, List.flatten_singleton, List.filter_append,
    TopLevel.filter_of_no_warnings (filter_lex multiline source), List.filter_reverse]

/-- A parse that does not report statements outside of declarations differs from one that does by
the one warning that is left out, and by nothing else. -/
theorem ofText_unwarned :
    let warned : Parsed := ofText ⟨multiline, true⟩ interruption source
    let plain : Parsed := ofText ⟨multiline, false⟩ interruption source
    plain = { warned with
      diagnostics := warned.diagnostics.filter fun report =>
        report.finding != .unsupportedTopLevelStatement } ∧
      (warned.diagnostics.filter fun report =>
        report.finding == .unsupportedTopLevelStatement).length ≤ 1 := by
  have hsame := sameButWarnings_read interruption source multiline
  intro warned plain
  have hroot : plain.root = warned.root :=
    congrArg (Node.mk 0 (some source.length) (.element .root)) hsame.declarations
  have hcancelled : plain.cancelled = warned.cancelled := hsame.cancelled
  have haborted : plain.aborted = warned.aborted := hsame.invalid
  refine ⟨?_, length_gapWarnings interruption source multiline⟩
  rw [← diagnostics_unwarned, ← hroot, ← hcancelled, ← haborted]
  rfl

end Parsed

end Manifest
