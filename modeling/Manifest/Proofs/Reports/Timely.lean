import Mathlib.Data.List.TakeWhile
import Manifest.Proofs.Parallel.Basic

/-!
# Reports in time

A parse reports where it stands, and goes on in the text, so each report starts behind the
one before.  Where a parse goes back to read a stretch again, it passes over tokens at which
nothing is reported until it is beyond the last report.
-/

namespace Manifest

namespace Diagnostic

def isWarning (diagnostic : Diagnostic) : Bool :=
  diagnostic.severity == .warning

/-- Reports, latest first, that start one behind the other; `warnings` are among them. -/
structure InOrder (warnings reported : List Diagnostic) : Prop where
  ascending : reported.Pairwise fun later earlier => earlier.start < later.start
  warned : reported.filter isWarning = warnings

end Diagnostic

namespace TokenKind

/-- Blanks and strings: a scan passes over them, and nothing is reported there. -/
def isQuiet (kind : TokenKind) : Bool :=
  kind.isTrivia || kind == .string

def Loud (kinds : List TokenKind) : Prop :=
  ∀ kind ∈ kinds, kind.isQuiet = false

instance (kinds : List TokenKind) : Decidable (Loud kinds) :=
  inferInstanceAs (Decidable (∀ kind ∈ kinds, kind.isQuiet = false))

end TokenKind

namespace ParseState

open Diagnostic (InOrder)

/-- All reports start where the parse stands, or before. -/
structure Timely (source : List Char) (warnings : List Diagnostic) (state : ParseState) :
    Prop where
  placed : state.cursor.Placed source
  inOrder : InOrder warnings state.reported
  reached : ∀ report ∈ state.reported, report.start ≤ state.offset source

/-- All reports start where the next token that is not quiet does, or before. -/
structure Clear (source : List Char) (warnings : List Diagnostic) (state : ParseState) :
    Prop where
  placed : state.cursor.Placed source
  inOrder : InOrder warnings state.reported
  within : ∀ report ∈ state.reported, report.start ≤ source.length
  ahead : ∀ report ∈ state.reported, ∀ token ∈ state.cursor.ahead,
    token.kind.isQuiet = false → report.start ≤ token.offset

variable {source : List Char} {warnings : List Diagnostic} {state after : ParseState}
  {token : Token} {diagnostic : Diagnostic} {finding : Finding}

/-! ## Adding a report -/

theorem record_cases (diagnostic : Diagnostic) (state : ParseState) :
    (∃ last ∈ state.reported, last.start = diagnostic.start ∧
      (state.record diagnostic).reported = state.reported) ∨
    ((∀ last, state.reported.head? = some last → last.start ≠ diagnostic.start) ∧
      (state.record diagnostic).reported = diagnostic :: state.reported) := by
  unfold record
  split
  · rename_i last rest hreported
    split
    · rename_i hsame
      exact .inl ⟨last, by rw [hreported]; exact List.mem_cons_self, hsame, rfl⟩
    · rename_i hother
      refine .inr ⟨fun first hfirst => ?_, rfl⟩
      rw [hreported] at hfirst
      obtain rfl := Option.some.inj hfirst
      exact hother
  · rename_i hreported
    refine .inr ⟨fun first hfirst => ?_, by rw [hreported]⟩
    rw [hreported] at hfirst
    cases hfirst

/-- What is reported behind all else starts behind all else. -/
theorem ascending_record
    (h : state.reported.Pairwise fun later earlier => earlier.start < later.start)
    (hlater : ∀ report ∈ state.reported, report.start ≤ diagnostic.start) :
    (state.record diagnostic).reported.Pairwise fun later earlier =>
      earlier.start < later.start := by
  rcases record_cases diagnostic state with ⟨-, -, -, hsame⟩ | ⟨hhead, hadded⟩
  · rw [hsame]
    exact h
  · rw [hadded]
    refine List.Pairwise.cons (fun report hreport => ?_) h
    cases hreported : state.reported with
    | nil =>
        rw [hreported] at hreport
        cases hreport
    | cons last rest =>
        have hlast : last.start ≤ diagnostic.start := hlater last (by simp [hreported])
        have hne : last.start ≠ diagnostic.start := hhead last (by simp [hreported])
        rw [hreported] at hreport h
        rcases List.mem_cons.1 hreport with rfl | hrest
        · exact Nat.lt_of_le_of_ne hlast hne
        · exact Nat.lt_of_lt_of_le ((List.pairwise_cons.1 h).1 report hrest) hlast

theorem mem_record {report : Diagnostic} (h : report ∈ (state.record diagnostic).reported) :
    report ∈ state.reported ∨ report = diagnostic := by
  rcases record_cases diagnostic state with ⟨-, -, -, hsame⟩ | ⟨-, hadded⟩
  · rw [hsame] at h
    exact .inl h
  · rw [hadded] at h
    exact (List.mem_cons.1 h).symm

theorem filter_record (herror : diagnostic.isWarning = false) :
    (state.record diagnostic).reported.filter Diagnostic.isWarning =
      state.reported.filter Diagnostic.isWarning := by
  rcases record_cases diagnostic state with ⟨-, -, -, hsame⟩ | ⟨-, hadded⟩
  · rw [hsame]
  · rw [hadded, List.filter_cons_of_neg (by simp [herror])]

theorem start_currentRange (source : List Char) (state : ParseState) :
    (state.currentRange source).start = state.offset source := by
  unfold currentRange
  split
  · rename_i token htoken
    exact (offset_of_token? htoken).symm
  · rfl

/-! ## Parses in time -/

theorem Timely.congr (h : state.Timely source warnings) (hcursor : after.cursor = state.cursor)
    (hreported : after.reported = state.reported) : after.Timely source warnings := by
  rcases state with ⟨cursor, reported⟩
  rcases after with ⟨other, reports⟩
  obtain rfl : other = cursor := hcursor
  obtain rfl : reports = reported := hreported
  exact h

theorem Timely.recorded (h : state.Timely source warnings)
    (hstart : diagnostic.start = state.offset source) :
    (state.record diagnostic).Timely source
      ((state.record diagnostic).reported.filter Diagnostic.isWarning) := by
  have hcursor := cursor_record diagnostic state
  have hoffset : (state.record diagnostic).offset source = state.offset source :=
    congrArg (Cursor.offset source) hcursor
  have hlater : ∀ report ∈ state.reported, report.start ≤ diagnostic.start := by
    rw [hstart]
    exact h.reached
  refine ⟨hcursor ▸ h.placed, ⟨ascending_record h.inOrder.ascending hlater, rfl⟩, ?_⟩
  intro report hreport
  rw [hoffset, ← hstart]
  rcases mem_record hreport with hreport | rfl
  · exact hlater report hreport
  · exact Nat.le_refl _

theorem Timely.record (h : state.Timely source warnings)
    (hstart : diagnostic.start = state.offset source) (herror : diagnostic.isWarning = false) :
    (state.record diagnostic).Timely source warnings := by
  have hrecorded := h.recorded hstart
  rwa [filter_record herror, h.inOrder.warned] at hrecorded

theorem Timely.reportHere (h : state.Timely source warnings)
    (herror : finding.severity = .error) :
    (state.reportHere source finding).Timely source warnings := by
  refine h.record (start_currentRange source state) ?_
  show (finding.severity == .warning) = false
  rw [herror]
  rfl

theorem Timely.report (h : state.Timely source warnings) (htoken : state.token? = some token)
    (herror : finding.severity = .error) :
    (state.report finding token.range).Timely source warnings := by
  have hrange : state.currentRange source = token.range := by
    unfold currentRange
    rw [htoken]
  rw [← hrange]
  exact h.reportHere herror

/-- Going on in the text, a parse stays in time. -/
theorem Timely.onward (h : state.Timely source warnings)
    (hleads : state.cursor.LeadsTo after.cursor) (hreported : after.reported = state.reported) :
    after.Timely source warnings := by
  refine ⟨hleads.placed h.placed, by rw [hreported]; exact h.inOrder, fun report hreport => ?_⟩
  rw [hreported] at hreport
  exact Nat.le_trans (h.reached report hreport) (hleads.offset_le h.placed)

theorem Timely.next (h : state.Timely source warnings) : state.next.Timely source warnings :=
  h.onward state.leadsTo_next rfl

theorem Timely.moveNext (h : state.Timely source warnings) :
    state.moveNext.Timely source warnings :=
  h.onward state.leadsTo_moveNext rfl

theorem Timely.next_previous (h : state.Timely source warnings)
    (hsettled : state.cursor.Settled) : state.previous.next.Timely source warnings :=
  h.congr hsettled.next_previous rfl

/-! ## Parses that read a stretch again -/

theorem Timely.clear (h : state.Timely source warnings) : state.Clear source warnings where
  placed := h.placed
  inOrder := h.inOrder
  within := fun report hreport =>
    Nat.le_trans (h.reached report hreport) h.placed.offset_le_length
  ahead := fun report hreport token htoken _ =>
    Nat.le_trans (h.reached report hreport) (h.placed.tiles_ahead.between token htoken).1

theorem Clear.next (h : state.Clear source warnings) : state.next.Clear source warnings where
  placed := placed_next h.placed
  inOrder := h.inOrder
  within := h.within
  ahead := fun report hreport token htoken => by
    obtain ⟨passed, hahead, -⟩ := state.leadsTo_next.passes
    refine h.ahead report hreport token ?_
    rw [hahead]
    exact List.mem_append_right passed htoken

/-- A token that is not quiet is beyond the last report, and so is the end of the text. -/
theorem Clear.timely (h : state.Clear source warnings)
    (hloud : ∀ token, state.token? = some token → token.kind.isQuiet = false) :
    state.Timely source warnings := by
  refine ⟨h.placed, h.inOrder, fun report hreport => ?_⟩
  cases htoken : state.token? with
  | some token =>
      have hhead := Cursor.token?_of_begun h.placed.begun
      have hmem : token ∈ state.cursor.ahead := List.mem_of_head? (hhead.symm.trans htoken)
      rw [offset_of_token? htoken]
      exact h.ahead report hreport token hmem (hloud token htoken)
  | none =>
      have hoffset : state.offset source = source.length :=
        Cursor.offset_of_none h.placed.begun htoken
      rw [hoffset]
      exact h.within report hreport

/-- Between a token and the next significant one there are but blanks. -/
theorem mem_ahead_next (hbegun : state.cursor.Begun) (hmem : token ∈ state.cursor.ahead.tail)
    (hloud : token.kind.isQuiet = false) : token ∈ state.next.cursor.ahead := by
  have hahead : state.next.cursor.ahead = _ := Cursor.ahead_next hbegun
  rw [← List.takeWhile_append_dropWhile (p := Token.isTrivia) (l := state.cursor.ahead.tail)]
    at hmem
  rw [hahead]
  rcases List.mem_append.1 hmem with hblank | hmem
  · have htrivia : token.isTrivia = true := List.mem_takeWhile_imp hblank
    have hkind : token.kind.isTrivia = true := htrivia
    unfold TokenKind.isQuiet at hloud
    rw [hkind] at hloud
    cases hloud
  · exact hmem

theorem Clear.moveNext_of_next (h : state.next.Clear source warnings)
    (hplaced : state.cursor.Placed source) : state.moveNext.Clear source warnings where
  placed := placed_moveNext hplaced
  inOrder := h.inOrder
  within := h.within
  ahead := fun report hreport token htoken hloud => by
    have hahead : state.moveNext.cursor.ahead = _ := Cursor.ahead_moveNext hplaced.begun
    rw [hahead] at htoken
    exact h.ahead report hreport token (mem_ahead_next hplaced.begun htoken hloud) hloud

/-- A quiet token may be read again. -/
theorem Clear.of_next (h : state.next.Clear source warnings)
    (hplaced : state.cursor.Placed source) (htoken : state.token? = some token)
    (hquiet : token.kind.isQuiet = true) : state.Clear source warnings where
  placed := hplaced
  inOrder := h.inOrder
  within := h.within
  ahead := fun report hreport other hother hloud => by
    have hhead : state.cursor.ahead.head? = some token :=
      (Cursor.token?_of_begun hplaced.begun).symm.trans htoken
    rw [List.eq_cons_of_mem_head? hhead] at hother
    rcases List.mem_cons.1 hother with rfl | hother
    · rw [hquiet] at hloud
      cases hloud
    · exact h.ahead report hreport other (mem_ahead_next hplaced.begun hother hloud) hloud

end ParseState

/-! ## Scans in time -/

/-- Where fewer than `bound` tokens are left, a scan lays out stretches, and ends in time. -/
structure Scan.Tells (source : List Char) (warnings : List Diagnostic) (bound : Nat)
    (scan : Scan) : Prop where
  lays : scan.Lays source bound
  timely : ∀ (offset : Nat) (stops : List TokenKind) (state : ParseState),
    TokenKind.Loud stops → state.remaining < bound → state.Clear source warnings →
      (scan offset stops state).2.Timely source warnings

namespace Scan

variable {source : List Char} {warnings : List Diagnostic} {bound : Nat} {scan : Scan}
  {state : ParseState} {stops : List TokenKind}

theorem Tells.here (h : scan.Tells source warnings bound) (hstate : state.Timely source warnings)
    (hbound : state.remaining < bound) (hloud : TokenKind.Loud stops) :
    (scan.here source stops state).2.Timely source warnings :=
  h.timely _ stops state hloud hbound hstate.clear

theorem Tells.inside (h : scan.Tells source warnings bound)
    (hstate : state.moveNext.Clear source warnings) (hbound : state.moveNext.remaining < bound)
    (hloud : TokenKind.Loud stops) :
    (scan.inside source stops state).2.Timely source warnings :=
  h.timely _ stops state.moveNext hloud hbound hstate

end Scan

end Manifest
