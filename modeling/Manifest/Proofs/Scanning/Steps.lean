import Manifest.Proofs.Checked.Scans

/-!
# Scans step by step

A scan inside of another one begins with fewer tokens left, so a scan goes the same way whatever
depth it is given, if that is enough: the scans that its steps open are like itself.  From its
first step to its last one a scan stands on one token after the other, and a stretch of its way
may be cut anywhere.
-/

namespace Manifest

/-! ## Scans of any depth -/

namespace Scan

/-- Where fewer than `bound` tokens are left, two scans go the same way. -/
def Same (source : List Char) (bound : Nat) (scan other : Scan) : Prop :=
  ∀ (offset : Nat) (stops : List TokenKind) (state : ParseState), state.remaining < bound →
    state.cursor.Placed source → offset ≤ state.offset source →
      other offset stops state = scan offset stops state

variable {source : List Char} {bound limit offset : Nat} {checked : CheckedScan}
  {scan other : Scan} {state : ParseState}

theorem agrees_congr (h : checked.Agrees source bound scan) (hsame : scan.Same source bound other) :
    checked.Agrees source bound other where
  lays := by
    intro offset stops state hbound hplaced hoffset
    rw [hsame offset stops state hbound hplaced hoffset]
    exact h.lays offset stops state hbound hplaced hoffset
  agrees := by
    intro offset stops state hbound hplaced hoffset
    rw [hsame offset stops state hbound hplaced hoffset]
    exact h.agrees offset stops state hbound hplaced hoffset

theorem agrees_mono (h : checked.Agrees source bound scan) (hle : limit ≤ bound) :
    checked.Agrees source limit scan where
  lays := fun offset stops state hbound => h.lays offset stops state (by omega)
  agrees := fun offset stops state hbound => h.agrees offset stops state (by omega)

/-- Scans whose inner scans go the same way go the same way, as their checks are the same. -/
theorem same_within (h : checked.Agrees source bound scan) (hsame : scan.Same source bound other) :
    (within source scan).Same source (bound + 1) (within source other) := by
  intro offset stops state hbound hplaced hoffset
  have hleft := (Checked.agrees_within h).agrees offset stops state hbound hplaced hoffset
  have hright := (Checked.agrees_within (agrees_congr h hsame)).agrees offset stops state hbound
    hplaced hoffset
  exact Except.ok.inj (hright.symm.trans hleft)

theorem same_ofDepth (source : List Char) (depth depth' : Nat) :
    (ofDepth source depth).Same source (min depth depth') (ofDepth source depth') := by
  induction depth generalizing depth' with
  | zero =>
      intro offset stops state hbound
      omega
  | succ depth ih =>
      cases depth' with
      | zero =>
          intro offset stops state hbound
          omega
      | succ depth' =>
          rw [Nat.succ_min_succ]
          exact same_within (agrees_mono (Checked.agrees_ofDepth source depth) (by omega))
            (ih depth')

/-- The scans that a scan opens are like itself. -/
theorem scan_unfold (stops : List TokenKind) (hplaced : state.cursor.Placed source)
    (hoffset : offset ≤ state.offset source) :
    Manifest.scan source offset stops state =
      within source (Manifest.scan source) offset stops state := by
  have hsame : (ofDepth source state.remaining).Same source state.remaining
      (Manifest.scan source) := by
    intro offset stops inner hbound hplaced hoffset
    exact same_ofDepth source state.remaining (inner.remaining + 1) offset stops inner (by omega)
      hplaced hoffset
  exact (same_within (Checked.agrees_ofDepth source state.remaining) hsame offset stops state
    (Nat.lt_succ_self _) hplaced hoffset).symm

end Scan

/-! ## Ways of a scan -/

namespace Scanning

/-- A scan goes on from one place to a later one.  On its way it stands on the tokens `met`. -/
inductive Reaches (source : List Char) (stops : List TokenKind) :
    Scanning → List Token → Scanning → Prop where
  | here (scanning : Scanning) : Reaches source stops scanning [] scanning
  | onward {first next last : Scanning} {token : Token} {met : List Token}
      (htoken : first.state.token? = some token)
      (hstep : first.step source (Manifest.scan source) stops = .again next)
      (rest : Reaches source stops next met last) : Reaches source stops first (token :: met) last

/-- Where a scan is after some steps, if it does not end before, and the tokens on which it
stood. -/
def follow (source : List Char) (stops : List TokenKind) :
    Nat → Scanning → List Token × Scanning
  | 0, scanning => ([], scanning)
  | count + 1, scanning =>
      match scanning.state.token?, scanning.step source (Manifest.scan source) stops with
      | some token, .again next =>
          (token :: (follow source stops count next).1, (follow source stops count next).2)
      | _, _ => ([], scanning)

variable {source : List Char} {stops : List TokenKind} {offset : Nat} {state origin : ParseState}
  {first second last next : Scanning} {met more : List Token}

theorem reaches_follow (source : List Char) (stops : List TokenKind) (count : Nat)
    (scanning : Scanning) :
    Reaches source stops scanning (follow source stops count scanning).1
      (follow source stops count scanning).2 := by
  induction count generalizing scanning with
  | zero => exact .here scanning
  | succ count ih =>
      unfold follow
      split
      · rename_i htoken hstep
        exact .onward htoken hstep (ih _)
      · exact .here scanning

theorem Reaches.trans (h : Reaches source stops first met second)
    (h' : Reaches source stops second more last) :
    Reaches source stops first (met ++ more) last := by
  induction h with
  | here => exact h'
  | onward htoken hstep _ ih => exact .onward htoken hstep (ih h')

theorem Reaches.iterate_eq (h : Reaches source stops first met last)
    (hdone : last.step source (Manifest.scan source) stops = .done last) {fuel : Nat}
    (hfuel : met.length < fuel) :
    iterate (step source (Manifest.scan source) stops) fuel first = last := by
  induction h generalizing fuel with
  | here =>
      obtain ⟨fuel, rfl⟩ := Nat.exists_eq_succ_of_ne_zero (Nat.ne_of_gt hfuel)
      unfold iterate
      rw [hdone]
  | onward htoken hstep _ ih =>
      obtain ⟨fuel, rfl⟩ := Nat.exists_eq_succ_of_ne_zero (Nat.ne_of_gt (Nat.zero_lt_of_lt hfuel))
      unfold iterate
      rw [hstep]
      exact ih hdone (Nat.lt_of_succ_lt_succ hfuel)

theorem laying_begin (hplaced : state.cursor.Placed source) :
    Laying source state (state.offset source) (.begin state) :=
  ParseState.reads_nothing hplaced (.refl _) (Int.le_refl _)

/-- A scan passes a token over with each step. -/
theorem Reaches.laying {start : Int} (h : Reaches source stops first met last)
    (hlaying : Laying source origin start first) :
    Laying source origin start last ∧
      met.length + last.state.remaining ≤ first.state.remaining := by
  induction h with
  | here => exact ⟨hlaying, Nat.le_of_eq (Nat.zero_add _)⟩
  | onward htoken hstep _ ih =>
      obtain ⟨hnext, hless⟩ :=
        laying_step (Scan.lays_scan source origin.remaining) (Nat.le_refl _) hlaying hstep
      obtain ⟨hlast, hle⟩ := ih hnext
      refine ⟨hlast, ?_⟩
      rw [List.length_cons]
      omega

theorem exists_reaches {start : Int} (stops : List TokenKind)
    (hlaying : Laying source origin start first) :
    ∃ met last, Reaches source stops first met last ∧
      last.step source (Manifest.scan source) stops = .done last := by
  induction hcount : first.state.remaining using Nat.strongRecOn generalizing first with
  | _ count ih =>
      cases hstep : first.step source (Manifest.scan source) stops with
      | done last =>
          obtain ⟨rfl, -⟩ := stopped_step hstep
          exact ⟨[], last, .here last, hstep⟩
      | again next =>
          obtain ⟨hnext, hless⟩ :=
            laying_step (Scan.lays_scan source origin.remaining) (Nat.le_refl _) hlaying hstep
          obtain ⟨met, last, hreaches, hdone⟩ := ih _ (by omega) hnext rfl
          cases htoken : first.state.token? with
          | some token => exact ⟨token :: met, last, .onward htoken hstep hreaches, hdone⟩
          | none =>
              unfold step at hstep
              rw [htoken] at hstep
              cases hstep

/-- A scan is what it has collected where its way ends. -/
theorem Reaches.scan_eq (h : Reaches source stops (.begin state) met last)
    (hdone : last.step source (Manifest.scan source) stops = .done last)
    (hplaced : state.cursor.Placed source) (hoffset : offset ≤ state.offset source) :
    Manifest.scan source offset stops state = (last.node source offset, last.state) := by
  obtain ⟨-, hle⟩ := h.laying (laying_begin hplaced)
  have hlength : met.length < state.remaining + 1 := by
    have hfirst : (begin state).state.remaining = state.remaining := rfl
    omega
  rw [Scan.scan_unfold stops hplaced hoffset]
  unfold Scan.within
  rw [h.iterate_eq hdone hlength]

end Scanning

end Manifest
