import Manifest.Proofs.Parallel.Alone

/-!
# Interrupted parses

A host that stops a parse cuts it short between two declarations.  What was read up to there
is what a parse that is let go on reads first: later steps only add declarations and reports.
-/

namespace Manifest

namespace Interruption

def Lasting (interruption : Interruption) : Prop :=
  (∀ question later, question ≤ later → interruption.invalid question = true →
    interruption.invalid later = true) ∧
  ∀ question later, question ≤ later → interruption.cancelled question = true →
    interruption.cancelled later = true

theorem lasting_after (invalid? cancelled? : Option Nat) : (after invalid? cancelled?).Lasting := by
  have hflag : ∀ (first? : Option Nat) (question later : Nat), question ≤ later →
      flagAfter first? question = true → flagAfter first? later = true := by
    intro first? question later hle h
    cases first? with
    | none => cases h
    | some first =>
        unfold flagAfter at h ⊢
        exact decide_eq_true (Nat.le_trans (of_decide_eq_true h) hle)
  exact ⟨hflag invalid?, hflag cancelled?⟩

end Interruption

namespace ParseState

def Standing (source : List Char) (state : ParseState) : Prop :=
  state.cursor.Placed source ∧ ∀ token, state.token? = some token → token.isTrivia = false

theorem reported_record (diagnostic : Diagnostic) (state : ParseState) :
    state.reported <:+ (state.record diagnostic).reported := by
  unfold record
  split
  · rename_i last rest hreported
    split
    · exact List.suffix_refl _
    · exact List.suffix_cons _ _
  · rename_i hreported
    rw [hreported]
    exact List.nil_suffix

end ParseState

theorem Parallel.builds_any (source : List Char) (reports : List Diagnostic → Prop) :
    (alone source (fun _ => True) reports).Builds := by
  constructor <;> intros <;> trivial

namespace TopLevel

variable {source : List Char} {read other : TopLevel} {token : Token} {reportGap : Bool}
  {interruption : Interruption}

/-! ## Declarations and reports are only added -/

theorem declarations_declaration (source : List Char) (reportGap : Bool) (token : Token)
    (read : TopLevel) :
    read.declarations <+: (read.declaration source reportGap token).declarations := by
  unfold declaration
  split
  · exact List.prefix_append _ _
  · exact List.prefix_append _ _
  · exact List.prefix_append _ _
  · exact ⟨[], by rw [List.append_nil, declarations_gap]⟩

/-- The routines of the grammar only add reports, whatever they read. -/
theorem reported_declaration (read : TopLevel) (h : read.state.Standing source)
    (htoken : read.state.token? = some token) (reportGap : Bool) :
    read.state.reported <:+ (read.declaration source reportGap token).state.next.reported ∧
      (read.declaration source reportGap token).state.next.Standing source := by
  have hp : (Parallel.alone source (fun _ => True) (read.state.reported <:+ ·)).Lawful :=
    Parallel.lawful_alone (Parallel.builds_any source _) fun state finding range hreported =>
      hreported.trans (ParseState.reported_record _ state)
  have hstates : (Parallel.alone source (fun _ => True) (read.state.reported <:+ ·)).Abreast
      (read.state.remaining + 1) (read.state.remaining + 1) read.state read.state :=
    Parallel.abreast_alone h.1 h.2 (List.suffix_refl _) (Nat.lt_succ_self _)
  obtain ⟨nodes, nodes', -, -, -, harrives⟩ := arrives_declaration hp read read hstates (.inl rfl)
    reportGap ⟨rfl, h.2 token htoken⟩
  obtain ⟨-, hnext⟩ := (harrives.next hp).resolve_left (Parallel.not_lost rfl _)
  exact ⟨hnext.reports, hnext.placed, hnext.offTrivia⟩

/-- What a loop over declarations has read and reported is what it began with, and more. -/
structure Extends (source : List Char) (first read : TopLevel) : Prop where
  declarations : first.declarations <+: read.declarations
  reported : first.state.reported <:+ read.state.reported
  standing : read.state.Standing source

theorem Extends.step {first : TopLevel} (h : Extends source first read) :
    Extends source first (step source reportGap interruption read).state := by
  cases htoken : read.state.token? with
  | none =>
      rw [step_of_none htoken]
      exact h
  | some token =>
      rw [step_of_token htoken]
      split
      · exact ⟨h.declarations, h.reported, h.standing⟩
      · split
        · exact ⟨h.declarations, h.reported, h.standing⟩
        · obtain ⟨hreported, hstanding⟩ :=
            reported_declaration read.asked h.standing htoken reportGap
          have hdeclarations := declarations_declaration source reportGap token read.asked
          exact ⟨h.declarations.trans hdeclarations, h.reported.trans hreported, hstanding⟩

theorem extends_iterate (reportGap : Bool) (interruption : Interruption)
    (h : read.state.Standing source) (fuel : Nat) :
    Extends source read (iterate (step source reportGap interruption) fuel read) :=
  iterate_invariant (Extends source read) (fun _ hread => hread.step) fuel read
    ⟨List.prefix_refl _, List.suffix_refl _, h⟩

/-! ## An interrupted run beside one that is let go on -/

/-- The same but for how often the host was asked. -/
structure Same (read other : TopLevel) : Prop where
  declarations : read.declarations = other.declarations
  reportedGap : read.reportedGap = other.reportedGap
  state : read.state = other.state

theorem Same.declaration (h : Same read other) (source : List Char) (reportGap : Bool)
    (token : Token) :
    Same (read.declaration source reportGap token) (other.declaration source reportGap token) := by
  obtain ⟨declarations, reportedGap, state, validity, cancellation⟩ := read
  obtain ⟨declarations', reportedGap', state', validity', cancellation'⟩ := other
  obtain ⟨rfl, rfl, rfl⟩ : declarations = declarations' ∧ reportedGap = reportedGap' ∧
    state = state' := ⟨h.declarations, h.reportedGap, h.state⟩
  unfold TopLevel.declaration
  split
  · exact ⟨rfl, rfl, rfl⟩
  · exact ⟨rfl, rfl, rfl⟩
  · exact ⟨rfl, rfl, rfl⟩
  · unfold gap
    dsimp only
    split
    · exact ⟨rfl, rfl, rfl⟩
    · exact ⟨rfl, rfl, rfl⟩

theorem Same.onward (h : Same read other) (source : List Char) (reportGap : Bool)
    (token : Token) :
    Same (read.onward source reportGap token) (other.onward source reportGap token) := by
  have hasked : Same read.asked other.asked := ⟨h.declarations, h.reportedGap, h.state⟩
  have hread := hasked.declaration source reportGap token
  exact ⟨hread.declarations, hread.reportedGap, congrArg ParseState.next hread.state⟩

/-- The interrupted run is the beginning of the full one, and all of it if at its end neither
flag is set. -/
structure Begins (interruption : Interruption) (part full : TopLevel) : Prop where
  declarations : part.declarations <+: full.declarations
  reported : part.state.reported <:+ full.state.reported
  same : interruption.invalid part.validityQuestions = false →
    interruption.cancelled part.cancellationQuestions = false → Same part full

theorem begins_of_same (h : Same read other) : Begins interruption read other where
  declarations := ⟨[], by rw [List.append_nil, h.declarations]⟩
  reported := ⟨[], by rw [List.nil_append, h.state]⟩
  same := fun _ _ => h

/-- A run that was stopped has read what the other one has read, and has a flag set for good. -/
theorem begins_of_stopped {stopped full : TopLevel} (h : Same stopped other)
    (hfull : Extends source other full)
    (hset : interruption.invalid stopped.validityQuestions = true ∨
      interruption.cancelled stopped.cancellationQuestions = true) :
    Begins interruption stopped full where
  declarations := by rw [h.declarations]; exact hfull.declarations
  reported := by rw [h.state]; exact hfull.reported
  same := by
    intro hinvalid hcancelled
    rw [hinvalid, hcancelled] at hset
    rcases hset with hset | hset <;> cases hset

theorem begins_iterate (hlasting : interruption.Lasting) (fuel : Nat) (h : Same read other)
    (hstanding : other.state.Standing source) :
    Begins interruption (iterate (step source reportGap interruption) fuel read)
      (iterate (step source reportGap .never) fuel other) := by
  induction fuel generalizing read other with
  | zero => exact begins_of_same h
  | succ fuel ih =>
      have hextends := extends_iterate reportGap .never hstanding (fuel + 1)
      rw [iterate]
      cases htoken : other.state.token? with
      | none =>
          have hread : read.state.token? = none := by rw [h.state, htoken]
          rw [iterate, step_of_none hread, step_of_none htoken]
          exact begins_of_same h
      | some token =>
          have hread : read.state.token? = some token := by rw [h.state, htoken]
          rw [step_of_token hread]
          -- the question that is answered is counted, so the flag is found set by the next one
          by_cases hinvalid : interruption.invalid read.validityQuestions = true
          · rw [if_pos hinvalid]
            exact begins_of_stopped ⟨h.declarations, h.reportedGap, h.state⟩ hextends
              (.inl (hlasting.1 _ _ (Nat.le_succ _) hinvalid))
          rw [if_neg hinvalid]
          by_cases hcancelled : interruption.cancelled read.cancellationQuestions = true
          · rw [if_pos hcancelled]
            exact begins_of_stopped ⟨h.declarations, h.reportedGap, h.state⟩ hextends
              (.inr (hlasting.2 _ _ (Nat.le_succ _) hcancelled))
          · rw [if_neg hcancelled, iterate, step_of_token htoken]
            exact ih (h.onward source reportGap token)
              (reported_declaration other.asked hstanding htoken reportGap).2

end TopLevel

namespace Parsed

variable {options : ParseOptions} {interruption : Interruption} {source : List Char}

theorem begins_read (h : interruption.Lasting) :
    TopLevel.Begins interruption (read options interruption source)
      (read options .never source) := by
  have hplaced := TopLevel.placed_ofTokens options.multiline source
  exact TopLevel.begins_iterate h _ ⟨rfl, rfl, rfl⟩
    ⟨hplaced, Cursor.significant_of_ahead hplaced.begun (Cursor.ahead_settle [] _)⟩

/-- An interrupted parse is the beginning of the full one: its declarations and the reports of
the parser are the first ones of the full parse, its root spans the text, and tokens and
reports of the lexer are as ever.  If no flag is found set at its end, it is the full parse. -/
theorem ofText_interrupted (options : ParseOptions) (h : interruption.Lasting)
    (source : List Char) :
    let part := ofText options interruption source
    let full := ofText options .never source
    let lexed := TokenStream.lex options.multiline source
    part.root.children <+: full.root.children ∧
      (read options interruption source).state.diagnostics <+:
        (read options .never source).state.diagnostics ∧
      (part.root.offset = 0 ∧ part.root.endOffset = source.length) ∧
      (part.tokens = lexed.tokens ∧ full.tokens = lexed.tokens) ∧
      (part.diagnostics = Diagnostic.collect
          [lexed.diagnostics, (read options interruption source).state.diagnostics] ∧
        full.diagnostics = Diagnostic.collect
          [lexed.diagnostics, (read options .never source).state.diagnostics]) ∧
      (part.cancelled = false → part.aborted = false →
        part.root = full.root ∧ part.diagnostics = full.diagnostics) := by
  have hread := @begins_read options interruption source h
  have hroot := fits_root options interruption source
  refine ⟨hread.declarations, List.reverse_prefix.2 hread.reported,
    ⟨rfl, Int.le_antisymm hroot.2.2 (Node.leastEnd_le_endOffset _)⟩, ⟨rfl, rfl⟩, ⟨rfl, rfl⟩,
    fun hcancelled haborted => ?_⟩
  have hsame := hread.same haborted hcancelled
  have hroot : TopLevel.root source (read options interruption source) =
      TopLevel.root source (read options .never source) := by
    unfold TopLevel.root
    rw [hsame.declarations]
  have hdiagnostics : (read options interruption source).state.diagnostics =
      (read options .never source).state.diagnostics := by
    rw [hsame.state]
  exact ⟨hroot, congrArg (fun reported => Diagnostic.collect
    [(TokenStream.lex options.multiline source).diagnostics, reported]) hdiagnostics⟩

def twoClasses : List Char :=
  "class a \x7b\x7d class b \x7b\x7d".toList

theorem ofText_interrupted_between :
    (ofText .standard (.after none (some 1)) twoClasses).root.children <+:
        (ofText .standard .never twoClasses).root.children ∧
      (ofText .standard (.after none (some 1)) twoClasses).root.children.length = 1 ∧
      (ofText .standard .never twoClasses).root.children.length = 2 ∧
      (ofText .standard (.after none (some 1)) twoClasses).cancelled = true :=
  ⟨(ofText_interrupted .standard (Interruption.lasting_after none (some 1)) twoClasses).1,
    by decide +kernel, by decide +kernel, by decide +kernel⟩

end Parsed

end Manifest
