import Mathlib.Data.List.Nodup
import Manifest.Proofs.Whole.Interrupted
import Manifest.Proofs.Whole.Joined
import Manifest.Proofs.Whole.Reported

/-!
# Statements outside of declarations

A parse warns about the first token of the top level that it passes over, and about no other.
The warning is a report like any other: it is not made where an error was reported before.
-/

namespace Manifest

def Token.gapWarning (token : Token) : Diagnostic :=
  Diagnostic.of .unsupportedTopLevelStatement token.range none

namespace TopLevel

/-- The tokens of the top level that a parse passes over, being no word of a declaration. -/
def dropped (source : List Char) (reportGap : Bool) (interruption : Interruption) :
    Nat → TopLevel → List Token
  | 0, _ => []
  | fuel + 1, read =>
      match read.state.token?, step source reportGap interruption read with
      | some token, .again next =>
          if token.declares then
            dropped source reportGap interruption fuel next
          else
            token :: dropped source reportGap interruption fuel next
      | _, _ => []

variable {source : List Char} {read next last : TopLevel} {token : Token} {reportGap : Bool}
  {interruption : Interruption} {known : List Diagnostic}

/-! ## Steps -/

theorem step_done_same (h : step source reportGap interruption read = .done last) :
    last.state = read.state ∧ last.reportedGap = read.reportedGap := by
  cases htoken : read.state.token? with
  | none =>
      rw [step_of_none htoken] at h
      obtain rfl := Progress.done.inj h
      exact ⟨rfl, rfl⟩
  | some token =>
      rw [step_of_token htoken] at h
      split at h
      · obtain rfl := Progress.done.inj h
        exact ⟨rfl, rfl⟩
      · split at h
        · obtain rfl := Progress.done.inj h
          exact ⟨rfl, rfl⟩
        · cases h

theorem step_again_token (h : step source reportGap interruption read = .again next) :
    ∃ token, read.state.token? = some token ∧ next = read.onward source reportGap token := by
  cases htoken : read.state.token? with
  | none =>
      rw [step_of_none htoken] at h
      cases h
  | some token =>
      rw [step_of_token htoken] at h
      split at h
      · cases h
      · split at h
        · cases h
        · exact ⟨token, rfl, (Progress.again.inj h).symm⟩

/-- Declarations bring no warnings. -/
theorem onward_declares (h : read.state.Timely source known) (hdeclares : token.declares = true)
    (reportGap : Bool) :
    (read.onward source reportGap token).state.Timely source known ∧
      (read.onward source reportGap token).reportedGap = read.reportedGap :=
  timely_declares read.asked h hdeclares reportGap

/-- There is no further warning after the first one, and none where none is wanted. -/
theorem onward_silent (h : read.state.Timely source known)
    (hsilent : (reportGap && !read.reportedGap) = false) (token : Token) :
    (read.onward source reportGap token).state.Timely source known ∧
      (read.onward source reportGap token).reportedGap = read.reportedGap := by
  cases hdeclares : token.declares with
  | true => exact onward_declares h hdeclares reportGap
  | false =>
      have hgap : read.asked.gap reportGap token = read.asked := by
        unfold gap
        exact if_neg (by simpa [asked] using hsilent)
      unfold onward
      rw [declaration_of_not_declares hdeclares, hgap]
      exact ⟨ParseState.Timely.next h, rfl⟩

/-- The first token that is passed over is warned about, unless something else is already
reported of it. -/
theorem onward_first (h : read.state.Timely source [])
    (htoken : read.state.token? = some token) (hdeclares : token.declares = false)
    (hgap : read.reportedGap = false) :
    (read.onward source true token).reportedGap = true ∧
      ((read.onward source true token).state.Timely source [token.gapWarning] ∨
        ((read.onward source true token).state.Timely source [] ∧
          ∃ report ∈ read.state.reported, report.start = token.offset)) := by
  have hreported : read.asked.gap true token =
      { read.asked with
        state := read.state.report .unsupportedTopLevelStatement token.range
        reportedGap := true } := by
    unfold gap
    exact if_pos (by simp [asked, hgap])
  have htimely := timely_gap read.asked h htoken true
  have honward : (read.onward source true token).state =
      (read.asked.gap true token).state.next := by
    unfold onward
    rw [declaration_of_not_declares hdeclares]
  have hflag : (read.onward source true token).reportedGap =
      (read.asked.gap true token).reportedGap := by
    unfold onward
    rw [declaration_of_not_declares hdeclares]
  have hwarnings : (read.asked.gap true token).warnings =
      (read.state.record token.gapWarning).reported.filter Diagnostic.isWarning := by
    rw [hreported]
    rfl
  rw [hflag, honward]
  rw [hwarnings] at htimely
  refine ⟨by rw [hreported], ?_⟩
  rcases ParseState.record_cases token.gapWarning read.state with
    ⟨report, hreport, hstart, hsame⟩ | ⟨-, hadded⟩
  · rw [hsame, h.inOrder.warned] at htimely
    exact .inr ⟨htimely.next, report, hreport, hstart⟩
  · rw [hadded, List.filter_cons_of_pos (by rfl), h.inOrder.warned] at htimely
    exact .inl htimely.next

structure Silent (source : List Char) (reportGap : Bool) (known : List Diagnostic)
    (read : TopLevel) : Prop where
  timely : read.state.Timely source known
  noGap : (reportGap && !read.reportedGap) = false

theorem Silent.step (h : Silent source reportGap known read) :
    Silent source reportGap known (step source reportGap interruption read).state := by
  cases hstep : TopLevel.step source reportGap interruption read with
  | done last =>
      obtain ⟨hstate, hflag⟩ := step_done_same hstep
      exact ⟨hstate ▸ h.timely, hflag ▸ h.noGap⟩
  | again next =>
      obtain ⟨token, -, rfl⟩ := step_again_token hstep
      obtain ⟨htimely, hflag⟩ := onward_silent h.timely h.noGap token
      exact ⟨htimely, hflag ▸ h.noGap⟩

/-! ## Runs -/

theorem Silent.warnings_iterate (h : Silent source reportGap known read) (fuel : Nat) :
    (iterate (TopLevel.step source reportGap interruption) fuel read).warnings = known :=
  (iterate_invariant (Silent source reportGap known) (fun _ hread => hread.step) fuel read
    h).timely.inOrder.warned

theorem dropped_done (h : step source reportGap interruption read = .done last) (fuel : Nat) :
    dropped source reportGap interruption (fuel + 1) read = [] := by
  unfold dropped
  rw [h]
  cases read.state.token? <;> rfl

theorem dropped_again (htoken : read.state.token? = some token)
    (h : step source reportGap interruption read = .again next) (fuel : Nat) :
    dropped source reportGap interruption (fuel + 1) read =
      if token.declares then dropped source reportGap interruption fuel next
      else token :: dropped source reportGap interruption fuel next := by
  rw [dropped, h, htoken]

theorem warned_iterate (interruption : Interruption) (read : TopLevel)
    (h : read.state.Timely source []) (hstanding : read.state.Standing source)
    (hgap : read.reportedGap = false) (fuel : Nat) :
    let last := iterate (step source true interruption) fuel read
    (dropped source true interruption fuel read = [] ∧ last.warnings = []) ∨
      ∃ token rest, dropped source true interruption fuel read = token :: rest ∧
        (last.warnings = [token.gapWarning] ∨
          (last.warnings = [] ∧
            ∃ report ∈ last.state.reported, report.start = token.offset)) := by
  induction fuel generalizing read with
  | zero => exact .inl ⟨rfl, h.inOrder.warned⟩
  | succ fuel ih =>
      have hextends := extends_iterate true interruption hstanding (fuel + 1)
      rw [iterate] at hextends ⊢
      cases hstep : step source true interruption read with
      | done last =>
          have hwarnings : last.warnings = read.warnings := by
            unfold warnings
            rw [(step_done_same hstep).1]
          exact .inl ⟨dropped_done hstep fuel, hwarnings.trans h.inOrder.warned⟩
      | again next =>
          obtain ⟨token, htoken, rfl⟩ := step_again_token hstep
          rw [dropped_again htoken hstep]
          rw [hstep] at hextends
          cases hdeclares : token.declares with
          | true =>
              obtain ⟨htimely, hflag⟩ := onward_declares h hdeclares true
              rw [if_pos rfl]
              exact ih _ htimely (reported_declaration read.asked hstanding htoken true).2
                (hflag.trans hgap)
          | false =>
              obtain ⟨hflag, hwarned⟩ := onward_first h htoken hdeclares hgap
              have hsilent : (true && !(read.onward source true token).reportedGap) = false := by
                rw [hflag]
                rfl
              rw [if_neg Bool.false_ne_true]
              refine .inr ⟨token, _, rfl, ?_⟩
              rcases hwarned with hwarned | ⟨hsame, report, hreport, hstart⟩
              · exact .inl (Silent.warnings_iterate ⟨hwarned, hsilent⟩ fuel)
              · exact .inr ⟨Silent.warnings_iterate ⟨hsame, hsilent⟩ fuel, report,
                  hextends.reported.mem hreport, hstart⟩

end TopLevel

/-! ## Warnings of a manifest -/

namespace Parsed

/-- The warnings about statements that are no declarations. -/
def gapWarnings (parsed : Parsed) : List Diagnostic :=
  parsed.diagnostics.filter fun report => report.finding == .unsupportedTopLevelStatement

variable (options : ParseOptions) (interruption : Interruption) (source : List Char)

/-- The tokens of the top level that are passed over in a text. -/
def dropped : List Token :=
  let first := TopLevel.first (TokenStream.lex options.multiline source).tokens
  TopLevel.dropped source options.reportGap interruption (first.state.remaining + 1) first

def errors : List Diagnostic :=
  (read options interruption source).state.diagnostics.filter fun report =>
    report.severity == .error

theorem isWarning_eq (report : Diagnostic) :
    report.isWarning = (report.finding == .unsupportedTopLevelStatement) := by
  rcases report with ⟨finding, range, message⟩
  cases finding <;> rfl

theorem severity_eq (report : Diagnostic) :
    (report.severity == .error) = !report.isWarning := by
  unfold Diagnostic.isWarning
  cases report.severity <;> rfl

theorem filter_lex (multiline : Bool) (source : List Char) :
    (TokenStream.lex multiline source).diagnostics.filter Diagnostic.isWarning = [] := by
  refine List.filter_eq_nil_iff.2 fun report hreport => ?_
  rw [TokenStream.lex_eq_lexed] at hreport
  obtain ⟨placed, hplaced, hsome⟩ := List.mem_filterMap.1 hreport
  have hreported := Site.reported_lexed (.ofText source) multiline placed hplaced
  obtain ⟨finding, hfault, rfl⟩ := hreported.reportedBy hsome
  show ¬ (finding.severity == .warning) = true
  rw [TokenKind.severity_of_fault hfault]
  exact Bool.false_ne_true

theorem gapWarnings_perm :
    (ofText options interruption source).gapWarnings.Perm
      (read options interruption source).warnings := by
  have hfilter : (fun report : Diagnostic => report.finding == .unsupportedTopLevelStatement) =
      Diagnostic.isWarning := funext fun report => (isWarning_eq report).symm
  unfold gapWarnings
  rw [hfilter, merged_ofText]
  refine ((List.merge_perm_append _).filter _).trans ?_
  rw [List.filter_append, filter_lex, List.nil_append]
  exact (List.reverse_perm _).filter _

/-- One place is reported once. -/
theorem eq_of_start {report other : Diagnostic}
    (hreport : report ∈ (read options interruption source).state.reported)
    (hother : other ∈ (read options interruption source).state.reported)
    (hstart : report.start = other.start) : report = other := by
  have hascending := TopLevel.ascending_readAll options.multiline options.reportGap interruption
    source
  have hnodup : ((read options interruption source).state.reported.map Diagnostic.start).Nodup :=
    List.pairwise_map.2 (hascending.imp Nat.ne_of_gt)
  exact List.inj_on_of_nodup_map hnodup hreport hother hstart

theorem mem_errors {report : Diagnostic} :
    report ∈ errors options interruption source ↔
      report ∈ (read options interruption source).state.reported ∧ report.isWarning = false := by
  unfold errors ParseState.diagnostics
  rw [List.mem_filter, List.mem_reverse, severity_eq, Bool.not_eq_true']

theorem isWarning_gapWarning (token : Token) : token.gapWarning.isWarning = true :=
  rfl

theorem warned_read (multiline : Bool) :
    let options : ParseOptions := ⟨multiline, true⟩
    let last := read options interruption source
    (dropped options interruption source = [] ∧ last.warnings = []) ∨
      ∃ token rest, dropped options interruption source = token :: rest ∧
        (last.warnings = [token.gapWarning] ∨
          (last.warnings = [] ∧
            ∃ report ∈ last.state.reported, report.start = token.offset)) := by
  have hplaced := TopLevel.placed_ofTokens multiline source
  have hsignificant := Cursor.significant_of_ahead hplaced.begun (Cursor.ahead_settle [] _)
  exact TopLevel.warned_iterate interruption
    (TopLevel.first (TokenStream.lex multiline source).tokens)
    (TopLevel.timely_ofTokens multiline source) ⟨hplaced, hsignificant⟩ rfl _

/-- Nothing is passed over, or the first token that is has its warning and no error, or that token
has an error and no warning. -/
theorem warned_cases (multiline : Bool) :
    let options : ParseOptions := ⟨multiline, true⟩
    let warnings := (ofText options interruption source).gapWarnings
    (dropped options interruption source = [] ∧ warnings = []) ∨
      (∃ token rest, dropped options interruption source = token :: rest ∧
        warnings = [token.gapWarning] ∧
        ∀ error ∈ errors options interruption source, error.start ≠ token.offset) ∨
      ∃ token rest, dropped options interruption source = token :: rest ∧ warnings = [] ∧
        ∃ error ∈ errors options interruption source, error.start = token.offset := by
  have hperm := gapWarnings_perm ⟨multiline, true⟩ interruption source
  rcases warned_read interruption source multiline with
    ⟨hdropped, hnone⟩ | ⟨token, rest, hdropped, hone | ⟨hnone, report, hreport, hstart⟩⟩
  · exact .inl ⟨hdropped, (hnone ▸ hperm).eq_nil⟩
  · refine .inr (.inl ⟨token, rest, hdropped, List.perm_singleton.1 (hone ▸ hperm), ?_⟩)
    intro error herror hstart
    have hwarning : token.gapWarning ∈ (read ⟨multiline, true⟩ interruption source).warnings := by
      rw [hone]
      exact List.mem_singleton_self _
    obtain ⟨hmem, hsevere⟩ := (mem_errors _ _ _).1 herror
    rw [eq_of_start _ _ _ hmem (List.mem_filter.1 hwarning).1 hstart, isWarning_gapWarning]
      at hsevere
    cases hsevere
  · have hsevere : report.isWarning = false :=
      Bool.eq_false_iff.2 (List.filter_eq_nil_iff.1 hnone report hreport)
    exact .inr (.inr ⟨token, rest, hdropped, (hnone ▸ hperm).eq_nil, report,
      (mem_errors _ _ _).2 ⟨hreport, hsevere⟩, hstart⟩)

/-- A manifest has one warning about a statement that is no declaration at most.  It has none if
all that is passed over is reported as an error, and it has the one about the first token that is
passed over if that is not. -/
theorem gapWarnings_ofText (multiline : Bool) :
    let options : ParseOptions := ⟨multiline, true⟩
    let warnings := (ofText options interruption source).gapWarnings
    let dropped := dropped options interruption source
    let errors := errors options interruption source
    warnings.length ≤ 1 ∧
      ((∀ token ∈ dropped, ∃ error ∈ errors, error.start = token.offset) → warnings = []) ∧
      ∀ token rest, dropped = token :: rest →
        (∀ error ∈ errors, error.start ≠ token.offset) → warnings = [token.gapWarning] := by
  dsimp only
  rcases warned_cases interruption source multiline with ⟨hdropped, hnone⟩ |
    ⟨token, rest, hdropped, hone, hfree⟩ | ⟨token, rest, hdropped, hnone, error, herror, hstart⟩
  · rw [hdropped, hnone]
    refine ⟨Nat.zero_le 1, fun _ => rfl, fun token rest hfirst => ?_⟩
    cases hfirst
  · rw [hdropped, hone]
    refine ⟨Nat.le_refl 1, fun hall => ?_, fun other more hfirst _ => ?_⟩
    · obtain ⟨error, herror, hstart⟩ := hall token List.mem_cons_self
      exact (hfree error herror hstart).elim
    · obtain ⟨rfl, -⟩ := List.cons.inj hfirst
      rfl
  · rw [hdropped, hnone]
    refine ⟨Nat.zero_le 1, fun _ => rfl, fun other more hfirst hfree => ?_⟩
    obtain ⟨rfl, -⟩ := List.cons.inj hfirst
    exact (hfree error herror hstart).elim

def loneStatement : List Char :=
  "include a".toList

/-- The statement is passed over, and its first word is warned about. -/
theorem gapWarnings_loneStatement :
    ∃ token rest, dropped .standard .never loneStatement = token :: rest ∧
      errors .standard .never loneStatement = [] ∧
      (ofText .standard .never loneStatement).gapWarnings = [token.gapWarning] := by
  have hsome : dropped .standard .never loneStatement ≠ [] := by decide +kernel
  have hnone : errors .standard .never loneStatement = [] := by decide +kernel
  obtain ⟨token, rest, hdropped⟩ := List.exists_cons_of_ne_nil hsome
  have hfree : ∀ error ∈ errors .standard .never loneStatement,
      error.start ≠ token.offset := by
    rw [hnone]
    exact fun error herror => (List.not_mem_nil herror).elim
  have hwarned := gapWarnings_ofText .never loneStatement false
  exact ⟨token, rest, hdropped, hnone, hwarned.2.2 token rest hdropped hfree⟩

def bodilessClass : List Char :=
  "class a x".toList

/-- The word is passed over, but an error was reported of it before. -/
theorem gapWarnings_bodilessClass :
    (read .standard .never bodilessClass).state.token? = none ∧
      dropped .standard .never bodilessClass ≠ [] ∧
      (ofText .standard .never bodilessClass).gapWarnings.length ≠ 1 := by
  decide +kernel

end Parsed

end Manifest
