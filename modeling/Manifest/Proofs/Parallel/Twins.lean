import Manifest.Proofs.Parallel.Basic

/-!
# Loops and scans side by side

Two loops go side by side when their steps do: both go on or both end, until the left one
is lost.  Two scans are twins when from the same place they arrive at the same place with
like stretches.
-/

namespace Manifest

/-- Steps of two loops: the left loop is lost, or both go on, or both end. -/
inductive Progress.Paired {σ τ : Type} (lost failed : σ → Prop) (on ended : σ → τ → Prop) :
    Progress σ → Progress τ → Prop where
  | lost {state : σ} {step : Progress τ} (h : lost state) :
      Paired lost failed on ended (.again state) step
  | failed {state : σ} {step : Progress τ} (h : failed state) :
      Paired lost failed on ended (.done state) step
  | again {state : σ} {other : τ} (h : on state other) :
      Paired lost failed on ended (.again state) (.again other)
  | done {state : σ} {other : τ} (h : ended state other) :
      Paired lost failed on ended (.done state) (.done other)

/-- Loops whose steps go side by side end side by side, unless the left one fails. -/
theorem iterate_paired {σ τ : Type} {step : σ → Progress σ} {step' : τ → Progress τ}
    {lost failed : σ → Prop} {on ended : σ → τ → Prop} (measure : σ → Nat) (measure' : τ → Nat)
    (keep : ∀ state other, on state other →
      Progress.Paired lost failed on ended (step state) (step' other))
    (stuck : ∀ state, lost state → ∃ last, step state = .done last ∧ failed last)
    (lower : ∀ state other next, on state other → step state = .again next →
      measure next < measure state)
    (lower' : ∀ state other next, on state other → step' other = .again next →
      measure' next < measure' other)
    {fuel fuel' : Nat} (state : σ) (other : τ) (h : on state other)
    (hfuel : measure state < fuel) (hfuel' : measure' other < fuel') :
    failed (iterate step fuel state) ∨
      ended (iterate step fuel state) (iterate step' fuel' other) := by
  induction fuel generalizing fuel' state other with
  | zero => omega
  | succ fuel ih =>
      obtain ⟨fuel', rfl⟩ : ∃ less, fuel' = less + 1 := ⟨fuel' - 1, by omega⟩
      have hpaired := keep state other h
      have hlower := lower state other
      have hlower' := lower' state other
      unfold iterate
      generalize step state = progress at hpaired hlower
      generalize step' other = progress' at hpaired hlower'
      cases hpaired with
      | lost hlost =>
          -- a step lowered the measure, so there is fuel for the one that fails
          obtain ⟨last, hlast, hfailed⟩ := stuck _ hlost
          have hless := hlower _ h rfl
          obtain ⟨fuel, rfl⟩ : ∃ less, fuel = less + 1 := ⟨fuel - 1, by omega⟩
          refine .inl ?_
          dsimp only
          unfold iterate
          rw [hlast]
          exact hfailed
      | failed hfailed => exact .inl hfailed
      | again hon =>
          have hless := hlower _ h rfl
          have hless' := hlower' _ h rfl
          exact ih _ _ hon (by omega) (by omega)
      | done hended => exact .inr hended

namespace Parallel

variable {p : Parallel} {bound bound' : Nat}

/-- Steps of two loops that read tokens: the left parse is lost, or both go on, or both end. -/
abbrev Steps {σ τ : Type} (p : Parallel) (state : σ → ParseState) (on : σ → τ → Prop) :
    Progress σ → Progress τ → Prop :=
  Progress.Paired (fun read => p.Lost (state read)) (fun read => p.Lost (state read)) on on

/-- Loops that read tokens, and end where there are none. -/
theorem steps_iterate {σ τ : Type} {step : σ → Progress σ} {step' : τ → Progress τ}
    (state : σ → ParseState) (state' : τ → ParseState) {on : σ → τ → Prop}
    (keep : ∀ read other, on read other → p.Steps state on (step read) (step' other))
    (stuck : ∀ read, (state read).token? = none → step read = .done read)
    (lower : ∀ read other next, on read other → step read = .again next →
      (state next).remaining < (state read).remaining)
    (lower' : ∀ read other next, on read other → step' other = .again next →
      (state' next).remaining < (state' other).remaining)
    (read : σ) (other : τ) (h : on read other) :
    p.Lost (state (iterate step ((state read).remaining + 1) read)) ∨
      on (iterate step ((state read).remaining + 1) read)
        (iterate step' ((state' other).remaining + 1) other) :=
  iterate_paired (fun read => (state read).remaining) (fun other => (state' other).remaining)
    keep (fun read hlost => ⟨read, stuck read hlost.token?, hlost⟩) lower lower' read other h
    (Nat.lt_succ_self _) (Nat.lt_succ_self _)

/-- Scans of the two texts that give like stretches. -/
structure Twins (p : Parallel) (bound bound' : Nat) (scan twin : Scan) : Prop where
  lays : scan.Lays p.left bound
  lays' : twin.Lays p.right bound'
  meets : ∀ {offset offset' : Nat} {stops : List TokenKind} {left right : ParseState},
    (∀ kind ∈ stops, kind.isTrivia = false) → p.places offset offset' →
    p.Beside bound bound' left right →
    p.Meets bound bound' (p.nodes (scan offset stops left).1 (twin offset' stops right).1)
      (scan offset stops left).2 (twin offset' stops right).2
  isBlob : ∀ (offset : Nat) (stops : List TokenKind) (left : ParseState),
    (scan offset stops left).1.isBlob = true

variable {scan twin : Scan} {left right : ParseState} {stops : List TokenKind}

theorem Twins.here (h : p.Twins bound bound' scan twin) (hp : p.Lawful)
    (hstops : ∀ kind ∈ stops, kind.isTrivia = false)
    (hstates : p.Beside bound bound' left right) :
    p.Meets bound bound'
      (p.nodes (scan.here p.left stops left).1 (twin.here p.right stops right).1)
      (scan.here p.left stops left).2 (twin.here p.right stops right).2 :=
  h.meets hstops (hstates.offset hp) hstates

theorem Twins.inside (h : p.Twins bound bound' scan twin) (hp : p.Lawful)
    (hstops : ∀ kind ∈ stops, kind.isTrivia = false)
    (hstates : p.Abreast bound bound' left right) :
    p.Meets bound bound'
      (p.nodes (scan.inside p.left stops left).1 (twin.inside p.right stops right).1)
      (scan.inside p.left stops left).2 (twin.inside p.right stops right).2 := by
  rcases hstates.moveNext with hlost | hmove
  · have hbelow := Nat.lt_of_le_of_lt left.remaining_moveNext_le hstates.below
    exact .inl (hlost.leads (h.lays.inside hstates.placed hbelow stops).leads)
  · exact h.here hp hstops hmove

/-- A stretch that no stop token ends runs on to the end of the text. -/
theorem Twins.lost_inside (h : p.Twins bound bound' scan twin) (hbeyond : p.beyond ≠ [])
    (hplaced : left.cursor.Placed p.left) (hbelow : left.remaining < bound)
    (hnone : ∀ token ∈ left.cursor.ahead, stops.contains token.kind = false) :
    p.Lost (scan.inside p.left stops left).2 := by
  have hmove := Nat.lt_of_le_of_lt left.remaining_moveNext_le hbelow
  have hstretch := h.lays.inside hplaced hmove stops
  have hleads := left.leadsTo_moveNext.trans hstretch.leads
  have hbegun := (hleads.placed hplaced).begun
  refine lost_of_ahead hbeyond hbegun ?_
  cases hahead : (scan.inside p.left stops left).2.cursor.ahead with
  | nil => rfl
  | cons token rest =>
      have htoken : (scan.inside p.left stops left).2.token? = some token := by
        refine (Cursor.token?_of_begun hbegun).trans ?_
        rw [hahead]
        rfl
      have hstopped := hstretch.stopped token htoken
      obtain ⟨passed, hpassed, -⟩ := hleads.passes
      have hmem : token ∈ left.cursor.ahead := by
        rw [hpassed, hahead]
        simp
      rw [hnone token hmem] at hstopped
      cases hstopped

end Parallel

end Manifest
