import Manifest.Proofs.Parallel.Scans
import Manifest.Proofs.Parsing.TopLevel

/-!
# Manifests side by side

Declarations are read alike, one after the other, and the host is asked alike between them.
-/

namespace Manifest

variable {p : Parallel} {bound bound' : Nat} {token mate : Token} {reportGap : Bool}
  {interruption : Interruption}

namespace Parallel

def Silent (p : Parallel) : Prop :=
  ∀ reported reported', p.reports reported reported'

/-- From the beginning of tokens side by side, parses meet on the first significant ones. -/
theorem meets_ofTokens {tokens mates : List Token} (hp : p.Lawful) (hrow : p.Row tokens mates)
    (hplaced : (ParseState.ofTokens tokens).next.cursor.Placed p.left)
    (hplaced' : (ParseState.ofTokens mates).next.cursor.Placed p.right)
    (hreports : p.reports [] [])
    (hbelow : (ParseState.ofTokens tokens).next.remaining < bound)
    (hbelow' : (ParseState.ofTokens mates).next.remaining < bound') :
    p.Meets bound bound' True (ParseState.ofTokens tokens).next (ParseState.ofTokens mates).next :=
  meets_of_row _ _ hplaced hplaced' hbelow hbelow' hreports (Cursor.ahead_settle [] tokens)
    (Cursor.ahead_settle [] mates) (hrow.dropWhile hp)

end Parallel

namespace TopLevel

/-- Beyond what was read before, like declarations were read, up to the same place, and the host
will answer alike. -/
structure Alike (p : Parallel) (bound bound' : Nat) (interruption : Interruption)
    (before before' : List Node) (read other : TopLevel) : Prop where
  declarations : ∃ nodes nodes', read.declarations = before ++ nodes ∧
    other.declarations = before' ++ nodes' ∧ List.Forall₂ p.nodes nodes nodes'
  reportedGap : other.reportedGap = read.reportedGap ∨ p.Silent
  states : p.Abreast bound bound' read.state other.state
  invalid : ∀ more, interruption.invalid (other.validityQuestions + more) =
    interruption.invalid (read.validityQuestions + more)
  cancelled : ∀ more, interruption.cancelled (other.cancellationQuestions + more) =
    interruption.cancelled (read.cancellationQuestions + more)

variable {read other next : TopLevel} {before before' : List Node} {source : List Char}

/-! ## Declarations -/

theorem abreast_gap (hp : p.Lawful) (h : p.Abreast bound bound' read.state other.state)
    (hgap : other.reportedGap = read.reportedGap ∨ p.Silent) (reportGap : Bool)
    (htokens : p.tokens token mate) :
    p.Abreast bound bound' (read.gap reportGap token).state (other.gap reportGap mate).state := by
  rcases hgap with hgap | hsilent
  · unfold gap
    rw [hgap]
    split
    · exact h.report hp htokens _
    · exact h
  · exact h.congr (cursor_gap _ _ _) (cursor_gap _ _ _) (hsilent _ _)

theorem reportedGap_gap (hgap : other.reportedGap = read.reportedGap ∨ p.Silent)
    (reportGap : Bool) (token mate : Token) :
    (other.gap reportGap mate).reportedGap = (read.gap reportGap token).reportedGap ∨
      p.Silent := by
  refine hgap.imp_left fun hgap => ?_
  unfold gap
  rw [hgap]
  split
  · rfl
  · exact hgap

/-- Like declarations are read of tokens that stand for one another. -/
theorem arrives_declaration (hp : p.Lawful) (read other : TopLevel)
    (h : p.Abreast bound bound' read.state other.state)
    (hgap : other.reportedGap = read.reportedGap ∨ p.Silent) (reportGap : Bool)
    (htokens : p.tokens token mate) :
    ∃ nodes nodes',
      (read.declaration p.left reportGap token).declarations = read.declarations ++ nodes ∧
      (other.declaration p.right reportGap mate).declarations = other.declarations ++ nodes' ∧
      ((other.declaration p.right reportGap mate).reportedGap =
        (read.declaration p.left reportGap token).reportedGap ∨ p.Silent) ∧
      p.Arrives bound bound' (List.Forall₂ p.nodes nodes nodes')
        (read.declaration p.left reportGap token).state
        (other.declaration p.right reportGap mate).state := by
  have hscan := Parallel.twins_scan hp bound bound'
  unfold declaration
  rw [hp.kind htokens]
  split
  · exact ⟨_, _, rfl, rfl, hgap, Parallel.arrives_classDecl hp hscan h⟩
  · exact ⟨_, _, rfl, rfl, hgap, (Parallel.arrives_nodeDecl hp hscan h).imp
      fun hnode => .cons hnode .nil⟩
  · exact ⟨_, _, rfl, rfl, hgap, (Parallel.arrives_defineDecl hp hscan h).imp
      fun hnode => .cons hnode .nil⟩
  · refine ⟨[], [], ?_, ?_, reportedGap_gap hgap reportGap token mate,
      .inr ⟨.nil, .inl (abreast_gap hp h hgap reportGap htokens)⟩⟩
    · rw [declarations_gap, List.append_nil]
    · rw [declarations_gap, List.append_nil]

/-! ## Steps -/

def asked (read : TopLevel) : TopLevel :=
  { read with
    validityQuestions := read.validityQuestions + 1
    cancellationQuestions := read.cancellationQuestions + 1 }

def onward (source : List Char) (reportGap : Bool) (token : Token) (read : TopLevel) : TopLevel :=
  let next := read.asked.declaration source reportGap token
  { next with state := next.state.next }

theorem step_of_none (h : read.state.token? = none) :
    step source reportGap interruption read = .done read := by
  unfold step
  rw [h]

theorem step_of_token (h : read.state.token? = some token) :
    step source reportGap interruption read =
      if interruption.invalid read.validityQuestions then
        .done { read with validityQuestions := read.validityQuestions + 1 }
      else if interruption.cancelled read.cancellationQuestions then
        .done read.asked
      else
        .again (read.onward source reportGap token) := by
  unfold step
  rw [h]
  rfl

theorem questions_declaration (source : List Char) (reportGap : Bool) (token : Token)
    (read : TopLevel) :
    (read.declaration source reportGap token).validityQuestions = read.validityQuestions ∧
      (read.declaration source reportGap token).cancellationQuestions =
        read.cancellationQuestions := by
  unfold declaration
  split
  · exact ⟨rfl, rfl⟩
  · exact ⟨rfl, rfl⟩
  · exact ⟨rfl, rfl⟩
  · unfold gap
    split <;> exact ⟨rfl, rfl⟩

theorem questions_onward (source : List Char) (reportGap : Bool) (token : Token)
    (read : TopLevel) :
    (read.onward source reportGap token).validityQuestions = read.validityQuestions + 1 ∧
      (read.onward source reportGap token).cancellationQuestions =
        read.cancellationQuestions + 1 :=
  questions_declaration source reportGap token read.asked

theorem placed_onward (hplaced : read.state.cursor.Placed source)
    (htoken : read.state.token? = some token) (reportGap : Bool) :
    (read.onward source reportGap token).state.cursor.Placed source ∧
      (read.onward source reportGap token).state.remaining < read.state.remaining := by
  obtain ⟨nodes, -, hreads⟩ := @reads_declaration source read.asked hplaced reportGap token
  exact ⟨hreads.placed_after,
    Nat.lt_of_le_of_lt hreads.remaining_le (ParseState.remaining_next_lt htoken)⟩

theorem remaining_step (hplaced : read.state.cursor.Placed source)
    (h : step source reportGap interruption read = .again next) :
    next.state.remaining < read.state.remaining := by
  cases htoken : read.state.token? with
  | none =>
      rw [step_of_none htoken] at h
      cases h
  | some token =>
      rw [step_of_token htoken] at h
      split at h
      · cases h
      · split at h
        · cases h
        · obtain rfl := Progress.again.inj h
          exact (placed_onward hplaced htoken reportGap).2

theorem Alike.congr {read' other' : TopLevel}
    (h : Alike p bound bound' interruption before before' read other) (asked asked' : Nat)
    (hread : read'.declarations = read.declarations ∧ read'.reportedGap = read.reportedGap ∧
      read'.state = read.state)
    (hother : other'.declarations = other.declarations ∧
      other'.reportedGap = other.reportedGap ∧ other'.state = other.state)
    (hvalidity : read'.validityQuestions = read.validityQuestions + asked)
    (hvalidity' : other'.validityQuestions = other.validityQuestions + asked)
    (hcancellation : read'.cancellationQuestions = read.cancellationQuestions + asked')
    (hcancellation' : other'.cancellationQuestions = other.cancellationQuestions + asked') :
    Alike p bound bound' interruption before before' read' other' where
  declarations := by
    rw [hread.1, hother.1]
    exact h.declarations
  reportedGap := by
    rw [hread.2.1, hother.2.1]
    exact h.reportedGap
  states := by
    rw [hread.2.2, hother.2.2]
    exact h.states
  invalid := fun more => by
    rw [hvalidity, hvalidity', Nat.add_assoc, Nat.add_assoc]
    exact h.invalid (asked + more)
  cancelled := fun more => by
    rw [hcancellation, hcancellation', Nat.add_assoc, Nat.add_assoc]
    exact h.cancelled (asked' + more)

/-- Behind declarations that are alike, the left parse is lost or all is alike again. -/
theorem Alike.onward (hp : p.Lawful)
    (h : Alike p bound bound' interruption before before' read other) (reportGap : Bool)
    (htokens : p.tokens token mate) :
    p.Lost (read.onward p.left reportGap token).state ∨
      Alike p bound bound' interruption before before' (read.onward p.left reportGap token)
        (other.onward p.right reportGap mate) := by
  obtain ⟨nodes, nodes', hnodes, hnodes', hgap, harrives⟩ :=
    arrives_declaration hp read.asked other.asked h.states h.reportedGap reportGap htokens
  obtain ⟨hvalidity, hcancellation⟩ := questions_onward p.left reportGap token read
  obtain ⟨hvalidity', hcancellation'⟩ := questions_onward p.right reportGap mate other
  obtain ⟨old, old', hold, hold', hrest⟩ := h.declarations
  rcases harrives.next hp with hlost | ⟨hrelated, hstates⟩
  · exact .inl hlost
  · refine .inr ⟨⟨old ++ nodes, old' ++ nodes', ?_, ?_, List.rel_append hrest hrelated⟩, hgap,
      hstates, fun more => ?_, fun more => ?_⟩
    · rw [← List.append_assoc, ← hold]
      exact hnodes
    · rw [← List.append_assoc, ← hold']
      exact hnodes'
    · rw [hvalidity, hvalidity', Nat.add_assoc, Nat.add_assoc]
      exact h.invalid (1 + more)
    · rw [hcancellation, hcancellation', Nat.add_assoc, Nat.add_assoc]
      exact h.cancelled (1 + more)

theorem paired_step (hp : p.Lawful)
    (h : Alike p bound bound' interruption before before' read other) :
    p.Steps TopLevel.state (Alike p bound bound' interruption before before')
      (step p.left reportGap interruption read) (step p.right reportGap interruption other) := by
  rcases h.states.cases hp with ⟨hleft, hright, -⟩ | ⟨token, mate, hleft, hright, htokens⟩
  · rw [step_of_none hleft, step_of_none hright]
    exact .done h
  · rw [step_of_token hleft, step_of_token hright,
      show interruption.invalid other.validityQuestions =
        interruption.invalid read.validityQuestions from h.invalid 0,
      show interruption.cancelled other.cancellationQuestions =
        interruption.cancelled read.cancellationQuestions from h.cancelled 0]
    split
    · exact .done (h.congr 1 0 ⟨rfl, rfl, rfl⟩ ⟨rfl, rfl, rfl⟩ rfl rfl rfl rfl)
    · split
      · exact .done (h.congr 1 1 ⟨rfl, rfl, rfl⟩ ⟨rfl, rfl, rfl⟩ rfl rfl rfl rfl)
      · rcases h.onward hp reportGap htokens with hlost | halike
        · exact .lost hlost
        · exact .again halike

theorem alike_begin {left right : ParseState} (interruption : Interruption)
    (h : p.Abreast bound bound' left right) :
    Alike p bound bound' interruption [] [] ⟨[], false, left, 0, 0⟩ ⟨[], false, right, 0, 0⟩ :=
  ⟨⟨[], [], rfl, rfl, .nil⟩, .inl rfl, h, fun _ => rfl, fun _ => rfl⟩

theorem alike_iterate_of_lt (hp : p.Lawful) (reportGap : Bool)
    (h : Alike p bound bound' interruption before before' read other) {fuel fuel' : Nat}
    (hfuel : read.state.remaining < fuel) (hfuel' : other.state.remaining < fuel') :
    p.Lost (iterate (step p.left reportGap interruption) fuel read).state ∨
      Alike p bound bound' interruption before before'
        (iterate (step p.left reportGap interruption) fuel read)
        (iterate (step p.right reportGap interruption) fuel' other) :=
  iterate_paired (fun read => read.state.remaining) (fun other => other.state.remaining)
    (fun _ _ hread => paired_step hp hread)
    (fun read hlost => ⟨read, step_of_none hlost.token?, hlost⟩)
    (fun _ _ _ hread => remaining_step hread.states.placed)
    (fun _ _ _ hread => remaining_step hread.states.placed') read other h hfuel hfuel'

theorem alike_iterate (hp : p.Lawful) (reportGap : Bool)
    (h : Alike p bound bound' interruption before before' read other) :
    p.Lost (iterate (step p.left reportGap interruption) (read.state.remaining + 1) read).state ∨
      Alike p bound bound' interruption before before'
        (iterate (step p.left reportGap interruption) (read.state.remaining + 1) read)
        (iterate (step p.right reportGap interruption) (other.state.remaining + 1) other) :=
  alike_iterate_of_lt hp reportGap h (Nat.lt_succ_self _) (Nat.lt_succ_self _)

/-- Texts with tokens side by side have like declarations, and like reports. -/
theorem related_readAll (hp : p.Lawful) (hbeyond : p.beyond = []) {multiline : Bool}
    (hrow : p.Row (TokenStream.lex multiline p.left).tokens
      (TokenStream.lex multiline p.right).tokens)
    (hreports : p.reports [] []) (reportGap : Bool) (interruption : Interruption) :
    let read := readAll p.left reportGap interruption
      (.ofTokens (TokenStream.lex multiline p.left).tokens)
    let other := readAll p.right reportGap interruption
      (.ofTokens (TokenStream.lex multiline p.right).tokens)
    List.Forall₂ p.nodes read.declarations other.declarations ∧
      p.reports read.state.reported other.state.reported := by
  obtain ⟨-, hstates⟩ := (Parallel.meets_ofTokens hp hrow (placed_ofTokens multiline p.left)
    (placed_ofTokens multiline p.right) hreports (Nat.lt_succ_self _)
    (Nat.lt_succ_self _)).resolve_left (Parallel.not_lost hbeyond _)
  have halike := (alike_iterate hp reportGap (alike_begin interruption hstates)).resolve_left
    (Parallel.not_lost hbeyond _)
  obtain ⟨nodes, nodes', hnodes, hnodes', hrelated⟩ := halike.declarations
  refine ⟨?_, halike.states.reports⟩
  rw [← List.nil_append nodes, ← List.nil_append nodes', ← hnodes, ← hnodes'] at hrelated
  exact hrelated

end TopLevel

/-- How far the declarations of a text are read before the host stops the parse. -/
def Parsed.read (options : ParseOptions) (interruption : Interruption) (source : List Char) :
    TopLevel :=
  TopLevel.readAll source options.reportGap interruption
    (.ofTokens (TokenStream.lex options.multiline source).tokens)

end Manifest
