import Manifest.Proofs.Regions.Basic
import Manifest.Proofs.Scanning.Depth

/-!
# Stretches of regions

A scan that begins on a row goes over its brackets one by one, and over each construct in one
step, and ends on the stop token behind the row.
-/

namespace Manifest

namespace Scan

variable {source : List Char} {state : ParseState} {offset : Nat} {stops : List TokenKind}

theorem placed_scan (stops : List TokenKind) (hplaced : state.cursor.Placed source)
    (hoffset : offset ≤ state.offset source) :
    (Manifest.scan source offset stops state).2.cursor.Placed source :=
  (lays_scan source (state.remaining + 1) offset stops state (Nat.lt_succ_self _) hplaced
    hoffset).leads.placed hplaced

end Scan

namespace Region

open Scanning (Laying Reaches)

variable {source : List Char} {stops : List TokenKind} {nesting first further last : Nesting}
  {token stop next closing : Token} {row own rest : List Token} {scanning : Scanning}
  {state origin : ParseState} {start : Int} {offset : Nat}

/-! ## Whole stretches -/

theorem exists_headD_cons {α : Type} (row : List α) (next : α) (rest : List α) :
    ∃ behind, row ++ next :: rest = row.headD next :: behind := by
  cases row with
  | nil => exact ⟨rest, rfl⟩
  | cons head row => exact ⟨row ++ next :: rest, rfl⟩

theorem Reads.here (h : (stretch stops stop).Reads source row)
    (hstops : ∀ kind ∈ stops, kind ∈ runStops) (hplaced : state.cursor.Placed source)
    (hfaces : state.Faces (row ++ stop :: rest)) :
    ((Manifest.scan source).here source stops state).2.Faces (stop :: rest) ∧
      ((Manifest.scan source).here source stops state).2.cursor.Placed source :=
  ⟨h _ _ _ hstops hplaced (Nat.le_refl _) hfaces.toSees,
    Scan.placed_scan stops hplaced (Nat.le_refl _)⟩

/-- A scan of what is in brackets ends on the token that closes them. -/
theorem Reads.inside (h : (stretch stops stop).Reads source row)
    (hstops : ∀ kind ∈ stops, kind ∈ runStops) (hplaced : state.cursor.Placed source)
    (hfaces : state.Faces (token :: (row ++ stop :: rest))) :
    ((Manifest.scan source).inside source stops state).2.Faces (stop :: rest) ∧
      ((Manifest.scan source).inside source stops state).2.cursor.Placed source :=
  ⟨h _ _ _ hstops (ParseState.placed_moveNext hplaced) (Nat.le_refl _) hfaces.moveNext,
    Scan.placed_scan stops (ParseState.placed_moveNext hplaced) (Nat.le_refl _)⟩

theorem reads_stretch (hrow : (part stops .flat last stop).Reads source row)
    (hlast : last.isActive = false) (hstop : stops.contains stop.kind = true) :
    (stretch stops stop).Reads source row := by
  intro state offset rest hstops hplaced hoffset hsees
  obtain ⟨met, ending, hreaches, hnesting, hfaces⟩ :=
    hrow _ _ _ _ hstops (Scanning.laying_begin hplaced) rfl hsees
  have hdone : ending.Ends source stops := by
    refine Scanning.ends_iff.2 fun token htoken => ?_
    obtain rfl := Option.some.inj (hfaces.token?.symm.trans htoken)
    exact ⟨hstop, by rw [hnesting, hlast]⟩
  rw [hreaches.scan_eq hdone hplaced hoffset]
  exact hfaces

/-! ## Parts of stretches -/

theorem exists_faces (source : List Char) (hstops : ∀ kind ∈ stops, kind ∈ runStops)
    (hsees : scanning.state.Sees (next :: rest)) :
    ∃ met ending, Reaches source stops scanning met ending ∧ ending.nesting = scanning.nesting ∧
      ending.state.Faces (next :: rest) := by
  obtain ⟨token, htoken⟩ := hsees.exists_token? (List.cons_ne_nil _ _)
  cases htrivia : token.isTrivia with
  | false => exact ⟨[], scanning, .here _, rfl, hsees.faces htoken htrivia⟩
  | true =>
      have hgoes : scanning.endsAt stops token.kind = false := by
        have hnone : ∀ kind ∈ runStops, kind.isTrivia = false := by decide
        have hstop : stops.contains token.kind = false := by
          by_contra hmem
          have hkind := hnone _ (hstops _ (List.contains_iff_mem.1 (by simpa using hmem)))
          unfold Token.isTrivia at htrivia
          rw [hkind] at htrivia
          cases htrivia
        unfold Scanning.endsAt
        rw [hstop, Bool.and_false]
      have hstep : scanning.step source (Manifest.scan source) stops =
          .again (scanning.advance scanning.state) := by
        unfold Scanning.step Scanning.tokenAt
        rw [htoken]
        dsimp only
        rw [hgoes, htrivia]
        rfl
      exact ⟨[token], _, .onward htoken hstep (.here _), rfl,
        hsees.next_of_trivia htoken htrivia⟩

theorem reads_nothing : (part stops nesting nesting next).Reads source [] := by
  intro scanning origin start rest hstops _ hnesting hsees
  obtain ⟨met, ending, hreaches, hsame, hfaces⟩ := exists_faces source hstops hsees
  exact ⟨met, ending, hreaches, hsame.trans hnesting, hfaces⟩

/-- A step over the first token or construct of a row leads to what is behind it. -/
theorem reads_first (hfirst : ∀ (scanning : Scanning) (rest : List Token),
      (∀ kind ∈ stops, kind ∈ runStops) → scanning.state.cursor.Placed source →
      scanning.nesting = first → scanning.state.Faces (own ++ row.headD next :: rest) →
      ∃ after, scanning.step source (Manifest.scan source) stops = .again after ∧
        after.nesting = further ∧ after.state.Sees (row.headD next :: rest))
    (hown : own ≠ []) (hrow : (part stops further last next).Reads source row) :
    (part stops first last next).Reads source (own ++ row) := by
  intro scanning origin start rest hstops hlaying hnesting hsees
  obtain ⟨head, tail, rfl⟩ := List.exists_cons_of_ne_nil hown
  obtain ⟨behind, hbehind⟩ := exists_headD_cons row next rest
  rw [List.append_assoc, hbehind] at hsees
  obtain ⟨met, atFirst, hreaches, hsame, hfaces⟩ := exists_faces source hstops hsees
  have hatFirst := (hreaches.laying hlaying).1
  obtain ⟨after, hstep, hafter, hseesAfter⟩ :=
    hfirst _ _ hstops hatFirst.placed_after (hsame.trans hnesting) hfaces
  have hover : Reaches source stops scanning (met ++ [head]) after :=
    hreaches.trans (.onward hfaces.token? hstep (.here _))
  rw [← hbehind] at hseesAfter
  obtain ⟨more, ending, hrest, hlast, hend⟩ :=
    hrow _ _ _ _ hstops (hover.laying hlaying).1 hafter hseesAfter
  exact ⟨_, ending, hover.trans hrest, hlast, hend⟩

theorem reads_bracket (htrack : first.track token.kind = some further)
    (hgoes : first.isActive = true ∨ stops.contains token.kind = false)
    (hrow : (part stops further last next).Reads source row) :
    (part stops first last next).Reads source (token :: row) := by
  show (part stops first last next).Reads source ([token] ++ row)
  refine reads_first (fun scanning rest hstops hplaced hnesting hfaces => ?_)
    (List.cons_ne_nil _ _) hrow
  have htoken : scanning.state.Faces (token :: row.headD next :: rest) := hfaces
  refine ⟨({ scanning with nesting := further }.keep (token.text source)).advance scanning.state,
    ?_, rfl, htoken.next.toSees⟩
  have hends : scanning.endsAt stops token.kind = false := by
    unfold Scanning.endsAt
    rw [hnesting]
    rcases hgoes with h | h <;> rw [h] <;> simp
  unfold Scanning.step Scanning.tokenAt
  rw [htoken.token?]
  dsimp only
  rw [hends, htoken.significant, hnesting, htrack]
  rfl

theorem reads_onward (hnonempty : own ≠ [])
    (hown : (construct stops first (row.headD next)).Reads source own)
    (hrow : (part stops first last next).Reads source row) :
    (part stops first last next).Reads source (own ++ row) :=
  reads_first hown hnonempty hrow

end Region

end Manifest
