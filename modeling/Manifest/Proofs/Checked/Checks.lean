import Manifest.Proofs.Lexing.PushBack
import Manifest.Proofs.Parsing.Stretches

/-!
# Checks of a parse

A parse that checks on its way what it relies on: that an index it returns to is one of
its tokens, that a range is not reversed, that a routine finds the token it is called
for, and that a loop ends by itself.  Checks that hold change nothing.
-/

namespace Manifest

/-- Why a checked parse stops. -/
inductive ParseFault where
  | lexer (fault : LexFault)
  | outside (outside : OutsideTokens)
  | bounds (error : BoundsError)
  /-- A routine is called where there is no token. -/
  | noToken
  | notRequirement
  /-- A parameter is closed whose type has no range. -/
  | untyped
  /-- A loop takes more steps than there are tokens left. -/
  | endless
  /-- Scans are inside of one another more often than there are tokens left. -/
  | tooDeep
  deriving DecidableEq, Repr

abbrev CheckedScan :=
  Nat → List TokenKind → ParseState → Except ParseFault (Node × ParseState)

namespace CheckedScan

def here (scan : CheckedScan) (source : List Char) (stops : List TokenKind)
    (state : ParseState) : Except ParseFault (Node × ParseState) :=
  scan (state.offset source) stops state

def inside (scan : CheckedScan) (source : List Char) (stops : List TokenKind)
    (state : ParseState) : Except ParseFault (Node × ParseState) :=
  scan.here source stops state.moveNext

end CheckedScan

namespace Checked

def loop {σ : Type} (step : σ → Except ParseFault (Progress σ)) : Nat → σ → Except ParseFault σ
  | 0, _ => .error .endless
  | steps + 1, state => do
      match ← step state with
      | .again next => loop step steps next
      | .done last => return last

def range (start stop : Int) : Except ParseFault TextRange :=
  match TextRange.ofBounds start stop with
  | .ok range => .ok range
  | .error error => .error (.bounds error)

def cover (left right : TextRange) : Except ParseFault TextRange :=
  range (min left.start right.start : Nat) (max left.stop right.stop : Nat)

def currentRange (source : List Char) (state : ParseState) : Except ParseFault TextRange :=
  match state.token? with
  | some token => return token.range
  | none => range (state.offset source) (state.offset source)

def reportHere (source : List Char) (finding : Finding) (state : ParseState) :
    Except ParseFault ParseState := do
  return state.report finding (← currentRange source state)

def returnTo (index : Int) (state : ParseState) : Except ParseFault ParseState :=
  match state.cursor.moveTo index with
  | .ok cursor => .ok { state with cursor }
  | .error outside => .error (.outside outside)

end Checked

/-! ## Checks that hold -/

namespace Checked

variable {source : List Char} {state origin : ParseState}

/-- A checked loop whose steps keep a property and lower a measure is the loop itself, as long
as the property lets each check pass. -/
theorem loop_eq {σ : Type} {checked : σ → Except ParseFault (Progress σ)} {step : σ → Progress σ}
    (invariant : σ → Prop) (measure : σ → Nat)
    (agree : ∀ state, invariant state → checked state = .ok (step state))
    (keep : ∀ state next, invariant state → step state = .again next →
      invariant next ∧ measure next < measure state)
    (fuel : Nat) (state : σ) (h : invariant state) (hfuel : measure state < fuel) :
    loop checked fuel state = .ok (iterate step fuel state) := by
  induction fuel generalizing state with
  | zero => omega
  | succ fuel ih =>
      have hagree := agree state h
      unfold loop iterate
      rw [hagree]
      cases hstep : step state with
      | done last => rfl
      | again next =>
          obtain ⟨hnext, hless⟩ := keep state next h hstep
          exact ih next hnext (by omega)

theorem loop_view {σ τ : Type} {checked : τ → Except ParseFault (Progress τ)}
    {step : σ → Progress σ} (view : τ → σ) (invariant : τ → Prop) (measure : σ → Nat)
    (agree : ∀ run, invariant run →
      (∃ next, checked run = .ok (.again next) ∧ step (view run) = .again (view next) ∧
        invariant next ∧ measure (view next) < measure (view run)) ∨
      (∃ last, checked run = .ok (.done last) ∧ step (view run) = .done (view last) ∧
        invariant last))
    (fuel : Nat) (run : τ) (h : invariant run) (hfuel : measure (view run) < fuel) :
    ∃ last, loop checked fuel run = .ok last ∧ iterate step fuel (view run) = view last ∧
      invariant last := by
  induction fuel generalizing run with
  | zero => omega
  | succ fuel ih =>
      unfold loop iterate
      rcases agree run h with ⟨next, hchecked, hstep, hnext, hless⟩ | ⟨last, hchecked, hstep, hlast⟩
      · rw [hchecked, hstep]
        exact ih next hnext (by omega)
      · rw [hchecked, hstep]
        exact ⟨last, rfl, rfl, hlast⟩

theorem range_eq {start stop : Nat} (h : start ≤ stop) :
    range start stop = .ok ⟨start, stop, h⟩ := by
  unfold range
  rw [TextRange.ofBounds_natCast h]

theorem cover_eq (left right : TextRange) : cover left right = .ok (left.cover right) :=
  range_eq (left.cover right).start_le_stop

theorem currentRange_eq (source : List Char) (state : ParseState) :
    currentRange source state = .ok (state.currentRange source) := by
  unfold currentRange ParseState.currentRange
  cases state.token? with
  | some token => rfl
  | none => exact range_eq (Nat.le_refl _)

theorem reportHere_eq (source : List Char) (finding : Finding) (state : ParseState) :
    reportHere source finding state = .ok (state.reportHere source finding) := by
  unfold reportHere
  rw [currentRange_eq]
  rfl

theorem returnTo_eq (h : state.cursor.tokens = origin.cursor.tokens) :
    returnTo origin.cursor.index state = .ok { state with cursor := origin.cursor } := by
  unfold returnTo
  rw [Cursor.moveTo_index h]

end Checked

/-! ## Scans whose checks hold -/

/-- Where fewer than `bound` tokens are left, a scan lays out stretches, and its checks hold. -/
structure CheckedScan.Agrees (source : List Char) (bound : Nat) (checked : CheckedScan)
    (scan : Scan) : Prop where
  lays : scan.Lays source bound
  agrees : ∀ (offset : Nat) (stops : List TokenKind) (state : ParseState),
    state.remaining < bound → state.cursor.Placed source → offset ≤ state.offset source →
      checked offset stops state = .ok (scan offset stops state)

namespace CheckedScan

variable {source : List Char} {bound : Nat} {checked : CheckedScan} {scan : Scan}
  {state : ParseState}

theorem Agrees.here (h : checked.Agrees source bound scan) (hplaced : state.cursor.Placed source)
    (hbound : state.remaining < bound) (stops : List TokenKind) :
    checked.here source stops state = .ok (scan.here source stops state) :=
  h.agrees _ _ _ hbound hplaced (Nat.le_refl _)

theorem Agrees.inside (h : checked.Agrees source bound scan)
    (hplaced : state.cursor.Placed source) (hbound : state.moveNext.remaining < bound)
    (stops : List TokenKind) :
    checked.inside source stops state = .ok (scan.inside source stops state) :=
  h.here (ParseState.placed_moveNext hplaced) hbound stops

end CheckedScan

end Manifest
