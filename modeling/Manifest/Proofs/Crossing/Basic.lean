import Manifest.Proofs.Regions.Stretches

/-!
# What a parse comes over

The other way round: where a parse that reads a region comes to a token, what it has come over on
its way there is a row that the region contains.  A parse that goes past the last token never
comes to one, and so each token behind a region says where the parse has been before.
-/

namespace Manifest

/-! ## Places on no blank -/

namespace ParseState

/-- The parse stands on no blank. -/
def Loud (state : ParseState) : Prop :=
  ∀ token, state.token? = some token → token.isTrivia = false

variable {state : ParseState} {token : Token} {tokens rest : List Token} {kind : TokenKind}

theorem loud_next (h : state.cursor.Begun) : state.next.Loud := by
  intro token htoken
  have hsettled : state.next.cursor.Settled := Cursor.settled_next h
  have hcurrent : state.next.cursor.token? = some token := htoken
  cases hcursor : state.next.cursor with
  | start tokens =>
      rw [hcursor] at hcurrent
      cases hcurrent
  | past behind =>
      rw [hcursor] at hcurrent
      cases hcurrent
  | on behind current ahead =>
      rw [hcursor] at hcurrent hsettled
      obtain rfl := Option.some.inj hcurrent
      exact hsettled.2

theorem Loud.faces (h : state.Loud) (hsees : state.Sees (token :: rest)) :
    state.Faces (token :: rest) := by
  obtain ⟨first, hfirst⟩ := hsees.exists_token? (List.cons_ne_nil _ _)
  exact hsees.faces hfirst (h first hfirst)

theorem Faces.loud (h : state.Faces tokens) : state.Loud := by
  intro current hcurrent
  obtain ⟨behind, rfl⟩ := List.head?_eq_some_iff.1 (h.head.symm.trans hcurrent)
  exact h.significant

theorem Sees.token?_ne_none (h : state.Sees (token :: rest)) : state.token? ≠ none := by
  obtain ⟨first, hfirst⟩ := h.exists_token? (List.cons_ne_nil _ _)
  rw [hfirst]
  exact Option.some_ne_none first

theorem exists_faces_of_token? (hbegun : state.cursor.Begun) (htoken : state.token? = some token)
    (hloud : token.isTrivia = false) : ∃ behind, state.Faces (token :: behind) := by
  obtain ⟨behind, hbehind⟩ := List.head?_eq_some_iff.1
    ((Cursor.token?_of_begun hbegun).symm.trans htoken)
  have hahead : Token.significant state.cursor.ahead = token :: Token.significant behind := by
    rw [hbehind, Token.significant_cons hloud]
  exact ⟨_, ⟨hbegun, hahead⟩, htoken⟩

theorem faces_of_next (hbegun : state.cursor.Begun) (htoken : state.token? = some token)
    (hloud : token.isTrivia = false) (h : state.next.Sees tokens) :
    state.Faces (token :: tokens) := by
  obtain ⟨behind, hfaces⟩ := exists_faces_of_token? hbegun htoken hloud
  obtain rfl := hfaces.next.toSees.unique h
  exact hfaces

theorem faces_of_moveNext (hbegun : state.cursor.Begun) (htoken : state.token? = some token)
    (hloud : token.isTrivia = false) (h : state.moveNext.Sees tokens) :
    state.Faces (token :: tokens) := by
  obtain ⟨behind, hfaces⟩ := exists_faces_of_token? hbegun htoken hloud
  obtain rfl := hfaces.moveNext.unique h
  exact hfaces

theorem sees_of_trivia (hbegun : state.cursor.Begun) (htoken : state.token? = some token)
    (htrivia : token.isTrivia = true) (h : state.next.Sees tokens) : state.Sees tokens := by
  have hsees : state.Sees (Token.significant state.cursor.ahead) := ⟨hbegun, rfl⟩
  obtain rfl := (hsees.next_of_trivia htoken htrivia).toSees.unique h
  exact hsees

theorem faces_of_isAt (hbegun : state.cursor.Begun) (hat : state.isAt kind = true)
    (hloud : kind.isTrivia = false) (h : state.next.Sees tokens) :
    ∃ token, token.kind = kind ∧ state.Faces (token :: tokens) := by
  obtain ⟨token, htoken, rfl⟩ := token?_of_isAt hat
  exact ⟨token, rfl, faces_of_next hbegun htoken hloud h⟩

theorem exists_token?_of_next (hbegun : state.cursor.Begun) (h : state.next.Sees (token :: rest)) :
    ∃ current, state.token? = some current := by
  cases hcurrent : state.token? with
  | some current => exact ⟨current, rfl⟩
  | none =>
      have hstays : state.next.cursor = state.cursor := Cursor.next_of_none hbegun hcurrent
      have hsees : state.Sees (token :: rest) := ⟨hbegun, by rw [← hstays]; exact h.ahead⟩
      exact (hsees.token?_ne_none hcurrent).elim

end ParseState

structure ParseState.Ready (source : List Char) (bound : Nat) (state : ParseState) : Prop where
  placed : state.cursor.Placed source
  bounded : state.remaining ≤ bound
  loud : state.Loud

namespace ParseState

variable {source : List Char} {bound : Nat} {state : ParseState} {token : Token}
  {tokens rest : List Token}

theorem Ready.next (h : state.Ready source bound) : state.next.Ready source bound where
  placed := placed_next h.placed
  bounded := Nat.le_trans state.remaining_next_le h.bounded
  loud := loud_next h.placed.begun

theorem Ready.congr {other : ParseState} (h : state.Ready source bound)
    (hcursor : other.cursor = state.cursor) : other.Ready source bound := by
  rcases state with ⟨cursor, reported⟩
  rcases other with ⟨place, reports⟩
  obtain rfl : place = cursor := hcursor
  exact ⟨h.placed, h.bounded, h.loud⟩

theorem Ready.remaining_next_lt (h : state.Ready source bound)
    (htoken : state.token? = some token) : state.next.remaining < bound :=
  Nat.lt_of_lt_of_le (ParseState.remaining_next_lt htoken) h.bounded

theorem Ready.faces (h : state.Ready source bound) (htoken : state.token? = some token)
    (hnext : state.next.Sees tokens) : state.Faces (token :: tokens) :=
  faces_of_next h.placed.begun htoken (h.loud token htoken) hnext

/-- What comes behind the token under the cursor comes behind some token. -/
theorem Ready.exists_faces (h : state.Ready source bound)
    (hnext : state.next.Sees (token :: rest)) :
    ∃ current, state.Faces (current :: token :: rest) := by
  obtain ⟨current, hcurrent⟩ := exists_token?_of_next h.placed.begun hnext
  exact ⟨current, h.faces hcurrent hnext⟩

end ParseState

/-! ## Rows on the way -/

/-- On the way of a parse to some tokens is a row that a region contains. -/
def Region.Ahead (source : List Char) (region : Region) (state : ParseState)
    (tokens : List Token) : Prop :=
  ∃ row, state.Sees (row ++ tokens) ∧ region.Contains source row

/-- A routine has come from one state to another.  What it has read is a region; which one, the
token says that is behind it. -/
structure Region.Crossed (source : List Char) (bound : Nat) (region : Token → Region)
    (first last : ParseState) : Prop where
  ready : last.Ready source bound
  ahead : ∀ next rest, last.Sees (next :: rest) →
    (region next).Ahead source first (next :: rest)

namespace Region

variable {source : List Char} {bound : Nat} {region : Region} {regions others : Token → Region}
  {state last : ParseState} {token next : Token} {rest : List Token}

theorem Ahead.first (h : region.Ahead source state (next :: rest)) :
    ∃ row behind, row ++ next :: rest = row.headD next :: behind ∧
      state.Sees (row.headD next :: behind) ∧ region.Contains source row := by
  obtain ⟨row, hsees, hcontains⟩ := h
  obtain ⟨behind, hbehind⟩ := exists_headD_cons row next rest
  exact ⟨row, behind, hbehind, hbehind ▸ hsees, hcontains⟩

/-- What is crossed behind the token under the cursor, with that token before it. -/
theorem Crossed.cons (h : Crossed source bound regions state.next last)
    (hready : state.Ready source bound) (htoken : state.token? = some token)
    (hrow : ∀ next row, (regions next).Contains source row →
      (others next).Contains source (token :: row)) :
    Crossed source bound others state last where
  ready := h.ready
  ahead := by
    intro next rest hsees
    obtain ⟨row, hbehind, hcontains⟩ := h.ahead next rest hsees
    exact ⟨token :: row, (hready.faces htoken hbehind).toSees, hrow next row hcontains⟩

end Region

/-- A loop has come over a region if each step adds to what the steps after it come over.  Where
the loop goes on and what it reads may depend on what it has read. -/
theorem Region.crossed_iterate {σ : Type} {step : σ → Progress σ} {source : List Char}
    {bound : Nat} (invariant : σ → Prop) (place goal : σ → ParseState)
    (regions : σ → Token → Region)
    (again : ∀ read after, invariant read → step read = .again after →
      invariant after ∧ (place after).remaining < (place read).remaining ∧
        ∀ last, Crossed source bound (regions after) (place after) last →
          Crossed source bound (regions read) (place read) last)
    (done : ∀ read last, invariant read → step read = .done last →
      Crossed source bound (regions read) (place read) (goal last))
    (fuel : Nat) (read : σ) (h : invariant read) (hfuel : (place read).remaining < fuel) :
    Crossed source bound (regions read) (place read) (goal (iterate step fuel read)) := by
  induction fuel generalizing read with
  | zero => omega
  | succ fuel ih =>
      unfold iterate
      cases hstep : step read with
      | done last => exact done read last h hstep
      | again after =>
          obtain ⟨hafter, hless, hback⟩ := again read after h hstep
          exact hback _ (ih after hafter (by omega))

/-! ## Scans that come over stretches -/

namespace Scan

/-- Where fewer than `bound` tokens are left, a scan that comes to a token has come over a
stretch. -/
structure Crosses (source : List Char) (bound : Nat) (scan : Scan) : Prop where
  lays : scan.Lays source bound
  crosses : ∀ (offset : Nat) (stops : List TokenKind) (state : ParseState) (stop : Token)
    (rest : List Token), state.remaining < bound → state.cursor.Placed source →
    offset ≤ state.offset source → (scan offset stops state).2.Faces (stop :: rest) →
    (Region.stretch stops stop).Ahead source state (stop :: rest)

variable {source : List Char} {bound offset : Nat} {scan : Scan} {state : ParseState}
  {stops : List TokenKind} {kind : TokenKind} {stop next : Token} {rest : List Token}

theorem Lays.ready (h : scan.Lays source bound) (hstops : ∀ kind ∈ stops, kind.isTrivia = false)
    (hplaced : state.cursor.Placed source) (hbound : state.remaining < bound)
    (hoffset : offset ≤ state.offset source) :
    (scan offset stops state).2.Ready source bound := by
  have hstretch := h offset stops state hbound hplaced hoffset
  exact
    { placed := hstretch.leads.placed hplaced
      bounded := Nat.le_trans hstretch.leads.remaining_le (Nat.le_of_lt hbound)
      loud := fun token htoken =>
        hstops token.kind (List.contains_iff_mem.1 (hstretch.stopped token htoken)) }

theorem Crosses.crossed (h : scan.Crosses source bound) (stops : List TokenKind)
    (hstops : ∀ kind ∈ stops, kind.isTrivia = false) (hplaced : state.cursor.Placed source)
    (hbound : state.remaining < bound) (hoffset : offset ≤ state.offset source) :
    Region.Crossed source bound (.stretch stops) state (scan offset stops state).2 := by
  have hready := h.lays.ready hstops hplaced hbound hoffset
  exact ⟨hready, fun next rest hsees =>
    h.crosses offset stops state next rest hbound hplaced hoffset (hready.loud.faces hsees)⟩

theorem Crosses.here (h : scan.Crosses source bound) (stops : List TokenKind)
    (hstops : ∀ kind ∈ stops, kind.isTrivia = false) (hplaced : state.cursor.Placed source)
    (hbound : state.remaining < bound) :
    Region.Crossed source bound (.stretch stops) state (scan.here source stops state).2 ∧
      (scan.here source stops state).2.remaining ≤ state.remaining :=
  ⟨h.crossed stops hstops hplaced hbound (Nat.le_refl _),
    (h.lays.here hplaced hbound stops).leads.remaining_le⟩

theorem Crosses.closing (h : scan.Crosses source bound)
    (hstops : ∀ kind ∈ stops, kind.isTrivia = false) (hplaced : state.cursor.Placed source)
    (hbound : state.remaining < bound) (hoffset : offset ≤ state.offset source)
    (hnext : (scan offset stops state).2.next.Sees (next :: rest)) :
    ∃ stop, (Region.stretch stops stop).Ahead source state (stop :: next :: rest) := by
  have hcrossed := h.crossed stops hstops hplaced hbound hoffset
  obtain ⟨stop, hfaces⟩ := hcrossed.ready.exists_faces hnext
  exact ⟨stop, hcrossed.ahead stop _ hfaces.toSees⟩

theorem Crosses.inside (h : scan.Crosses source bound)
    (hstops : ∀ kind ∈ stops, kind.isTrivia = false) (hplaced : state.cursor.Placed source)
    (hbound : state.remaining ≤ bound) (hat : state.isAt kind = true)
    (hloud : kind.isTrivia = false)
    (hnext : (scan.inside source stops state).2.next.Sees (next :: rest)) :
    ∃ opening closing row, opening.kind = kind ∧
      state.Faces (opening :: (row ++ closing :: next :: rest)) ∧
      (Region.stretch stops closing).Contains source row := by
  obtain ⟨opening, hopening, rfl⟩ := ParseState.token?_of_isAt hat
  have hless : state.moveNext.remaining < state.remaining :=
    Cursor.remaining_moveNext_lt hopening
  obtain ⟨closing, row, hsees, hrow⟩ :=
    h.closing hstops (ParseState.placed_moveNext hplaced) (by omega) (Nat.le_refl _) hnext
  exact ⟨opening, closing, row, rfl,
    ParseState.faces_of_moveNext hplaced.begun hopening hloud hsees, hrow⟩

end Scan

end Manifest
