import Manifest.Proofs.Reports.Branches

/-!
# Scans report in time

A scan may begin before the last report, as long as it passes over quiet tokens up to there.
Whatever it takes out begins with a token that is not quiet, and is read in time.
-/

namespace Manifest

namespace Scanning

variable {source : List Char} {warnings : List Diagnostic} {bound : Nat} {scan : Scan}
  {stops : List TokenKind} {token : Token} {state : ParseState} {scanning other : Scanning}

/-! ## Variables, calls and indices -/

theorem timely_variableAt (h : scanning.state.Timely source warnings) (token : Token) :
    (scanning.variableAt source token).state.Timely source warnings := by
  unfold variableAt
  dsimp only
  split
  · exact h.next.next
  · exact h.next

theorem timely_inside (hscan : scan.Tells source warnings bound)
    (hbound : state.next.remaining < bound) (hloud : TokenKind.Loud stops)
    (h : state.Timely source warnings) :
    (scan.inside source stops state.next).2.next.Timely source warnings := by
  have hmove := Nat.lt_of_le_of_lt state.next.remaining_moveNext_le hbound
  exact (hscan.inside h.next.moveNext.clear hmove hloud).next

theorem timely_callAt (hscan : scan.Tells source warnings bound)
    (hbound : state.next.remaining < bound) (h : state.Timely source warnings) (token : Token)
    (scanning : Scanning) :
    (scanning.callAt source scan token state).state.Timely source warnings := by
  unfold callAt
  dsimp only
  split
  · exact timely_inside hscan hbound (by decide) h
  · exact h.next

theorem timely_dotAt (hscan : scan.Tells source warnings bound)
    (hbound : scanning.state.remaining ≤ bound) (h : scanning.state.Timely source warnings) :
    (scanning.dotAt source scan).state.Timely source warnings := by
  unfold dotAt
  dsimp only
  split
  · exact h.moveNext
  · rename_i token htoken
    split
    · have hless := ParseState.remaining_next_lt htoken
      have hle := scanning.state.remaining_moveNext_le
      exact timely_callAt hscan (by omega) h.moveNext token scanning
    · exact h.moveNext

theorem timely_applied? (hscan : scan.Tells source warnings bound)
    (hbound : scanning.state.next.remaining < bound) (h : scanning.state.Timely source warnings)
    (happlied : scanning.applied? source scan token = some other) :
    other.state.Timely source warnings := by
  unfold applied? at happlied
  dsimp only at happlied
  split at happlied
  · obtain rfl := Option.some.inj happlied
    exact timely_inside hscan hbound (by decide) h
  · split at happlied
    · split at happlied
      · rename_i reference last heq
        obtain rfl := Option.some.inj happlied
        have hreference := ParseState.timely_classReference h false
        split at heq
        · rw [heq] at hreference
          exact hreference.next
        · cases heq
      · split at happlied
        · obtain rfl := Option.some.inj happlied
          exact timely_inside hscan hbound (by decide) h
        · cases happlied
    · cases happlied

/-! ## Names, words and statements -/

theorem timely_nameAt (hscan : scan.Tells source warnings bound)
    (hbound : scanning.state.next.remaining < bound) (h : scanning.state.Timely source warnings)
    (token : Token) :
    (scanning.nameAt source scan stops token).state.Timely source warnings := by
  unfold nameAt
  dsimp only
  split
  · exact h.next
  · split
    · exact h.next
    · rename_i next _
      split
      · have hresource := ParseState.timely_resource hscan (token.text source) token.offset hbound
          h.next
        exact hresource.next
      · split
        · exact ParseState.timely_classAfterName hscan token.offset next.offset (next.text source)
            (Nat.lt_of_le_of_lt scanning.state.next.remaining_next_le hbound) h.next
        · exact h.next

theorem timely_wordAt (hscan : scan.Tells source warnings bound)
    (hbound : scanning.state.next.remaining < bound) (h : scanning.state.Timely source warnings)
    (token : Token) :
    (scanning.wordAt source scan stops token).state.Timely source warnings := by
  have hname : (scanning.nameAt source scan stops token).state.Timely source warnings :=
    timely_nameAt hscan hbound h token
  unfold wordAt
  dsimp only
  split
  · cases happlied : scanning.applied? source scan token with
    | some other => exact timely_applied? hscan hbound h happlied
    | none => exact hname
  · exact hname

theorem timely_requirementAt (hscan : scan.Tells source warnings bound)
    (hbound : scanning.state.next.remaining < bound) (h : scanning.state.Timely source warnings)
    (token : Token) : (scanning.requirementAt source scan token).state.Timely source warnings := by
  have hrequirement := ParseState.timely_requirementAt hscan hbound h token
  unfold requirementAt
  dsimp only
  split
  · exact hrequirement.next
  · exact hrequirement

/-- What begins with a token that is not quiet is read in time. -/
theorem timely_significantAt (hscan : scan.Tells source warnings bound)
    (hbound : scanning.state.remaining ≤ bound) (htoken : scanning.state.token? = some token)
    (h : scanning.state.Timely source warnings) :
    (scanning.significantAt source scan stops token).state.Timely source warnings := by
  have hbelow : scanning.state.next.remaining < bound :=
    Nat.lt_of_lt_of_le (ParseState.remaining_next_lt htoken) hbound
  unfold significantAt
  split
  · exact h.next
  · exact timely_variableAt h token
  · exact timely_requirementAt hscan hbelow h token
  · exact timely_requirementAt hscan hbelow h token
  · exact timely_requirementAt hscan hbelow h token
  · exact timely_wordAt hscan hbelow h token
  · exact timely_wordAt hscan hbelow h token
  · exact (ParseState.timely_caseStatement hscan hbelow h).next
  · exact ParseState.timely_condition hscan hbelow h true
  · exact ParseState.timely_condition hscan hbelow h false
  · exact timely_dotAt hscan hbound h
  · split
    · exact timely_callAt hscan hbelow h token scanning
    · exact h.next

theorem clear_tokenAt (hscan : scan.Tells source warnings bound)
    (hbound : scanning.state.remaining ≤ bound) (htoken : scanning.state.token? = some token)
    (h : scanning.state.Clear source warnings) :
    (scanning.tokenAt source scan stops token).state.Clear source warnings := by
  unfold tokenAt
  split
  · exact h.next
  · rename_i htrivia
    split
    · exact h.next
    · by_cases hstring : token.kind = .string
      · unfold significantAt
        rw [hstring]
        exact h.next
      · have hloud : ∀ other, scanning.state.token? = some other →
            other.kind.isQuiet = false := by
          intro other hother
          obtain rfl : token = other := Option.some.inj (htoken.symm.trans hother)
          have hkind : token.kind.isTrivia = false := Bool.eq_false_iff.2 htrivia
          unfold TokenKind.isQuiet
          rw [hkind, Bool.false_or, beq_eq_false_iff_ne]
          exact hstring
        exact (timely_significantAt hscan hbound htoken (h.timely hloud)).clear

/-! ## Loops -/

theorem clear_step (hscan : scan.Tells source warnings bound)
    (hbound : scanning.state.remaining ≤ bound) (h : scanning.state.Clear source warnings)
    (hstep : step source scan stops scanning = .again other) :
    other.state.Clear source warnings := by
  unfold step at hstep
  split at hstep
  · cases hstep
  · rename_i token htoken
    split at hstep
    · cases hstep
    · obtain rfl := Progress.again.inj hstep
      exact clear_tokenAt hscan hbound htoken h

end Scanning

/-! ## Scans -/

namespace Scan

variable {source : List Char} {warnings : List Diagnostic} {bound : Nat} {scan : Scan}

theorem tells_within (hscan : scan.Tells source warnings bound) :
    (within source scan).Tells source warnings (bound + 1) := by
  refine ⟨lays_within hscan.lays, fun offset stops state hloud hbound hclear => ?_⟩
  obtain ⟨last, ⟨-, hlast⟩, hstep⟩ := iterate_ends
    (fun scanning : Scanning =>
      Scanning.Laying source state (state.offset source) scanning ∧
        scanning.state.Clear source warnings)
    (fun scanning => scanning.state.remaining)
    (fun scanning other hscanning hstep => by
      have hle := Nat.le_trans hscanning.1.remaining_le (Nat.le_of_lt_succ hbound)
      obtain ⟨hlaying, hless⟩ :=
        Scanning.laying_step hscan.lays (Nat.le_of_lt_succ hbound) hscanning.1 hstep
      exact ⟨⟨hlaying, Scanning.clear_step hscan hle hscanning.2 hstep⟩, hless⟩)
    (state.remaining + 1) (.begin state)
    ⟨ParseState.reads_nothing hclear.placed (.refl _) (Int.le_refl _), hclear⟩
    (Nat.lt_succ_self _)
  obtain ⟨hend, hstopped⟩ := Scanning.stopped_step hstep
  unfold within
  dsimp only
  rw [hend]
  refine hlast.timely fun token htoken => ?_
  exact hloud token.kind (List.contains_iff_mem.1 (hstopped token htoken))

theorem tells_ofDepth (source : List Char) (warnings : List Diagnostic) (depth : Nat) :
    (ofDepth source depth).Tells source warnings depth := by
  induction depth with
  | zero => exact ⟨lays_ofDepth source 0, fun _ _ _ _ hbound => (Nat.not_lt_zero _ hbound).elim⟩
  | succ depth ih => exact tells_within ih

/-- A scan is in time wherever it begins. -/
theorem tells_scan (source : List Char) (warnings : List Diagnostic) (bound : Nat) :
    (Manifest.scan source).Tells source warnings bound := by
  refine ⟨lays_scan source bound, fun offset stops state hloud _ hclear => ?_⟩
  have hdepth := tells_ofDepth source warnings (state.remaining + 1)
  exact hdepth.timely offset stops state hloud (Nat.lt_succ_self _) hclear

end Scan

end Manifest
