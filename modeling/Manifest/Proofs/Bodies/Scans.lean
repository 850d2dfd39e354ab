import Manifest.Parse.Scan
import Manifest.Proofs.Bodies.Declarations

/-!
# Scans with their bodies

A scan may read declarations anywhere in a stretch of tokens.  By the depth of the scans inside
of it, each of them has its body as long as nothing is reported.
-/

namespace Manifest

namespace Scanning

variable {source : List Char} {scan : Scan} {stops : List TokenKind} {token : Token}
  {first state : ParseState} {scanning other : Scanning}

/-! ## Variables, calls and indices -/

theorem bodies_variableAt (h : first.Bodies scanning.children scanning.state) (token : Token) :
    first.Bodies (scanning.variableAt source token).children
      (scanning.variableAt source token).state := by
  unfold variableAt
  dsimp only
  split
  · exact h.concat (Node.bodied_leaf rfl)
  · exact h.concat (Node.bodied_leaf rfl)

theorem bodies_applied (hscan : scan.Bodied) (h : first.Bodies scanning.children state)
    (token : Token) (stops : List TokenKind) {form : Form Link}
    (hform : Node.lacksBody ⟨token.offset, none, form,
      [(scan.inside source stops state).1]⟩ = false) :
    first.Bodies (scanning.children ++ [⟨token.offset, none, form,
      [(scan.inside source stops state).1]⟩]) (scan.inside source stops state).2 :=
  h.append ((hscan.inside source stops state).parent hform)

theorem bodies_callAt (hscan : scan.Bodied) (h : first.Bodies scanning.children state)
    (token : Token) :
    first.Bodies (scanning.callAt source scan token state).children
      (scanning.callAt source scan token state).state := by
  have hnext : first.Bodies scanning.children state.next := h
  unfold callAt
  dsimp only
  split
  · exact bodies_applied hscan hnext token callStops rfl
  · exact h.concat (Node.bodied_leaf rfl)

theorem bodies_dotAt (hscan : scan.Bodied)
    (h : first.Bodies scanning.children scanning.state) :
    first.Bodies (scanning.dotAt source scan).children (scanning.dotAt source scan).state := by
  have hnamed : first.Bodies scanning.children scanning.state.moveNext := h
  unfold dotAt
  dsimp only
  split
  · exact h
  · split
    · exact bodies_callAt hscan hnamed _
    · exact h

theorem bodies_applied? (hscan : scan.Bodied)
    (h : first.Bodies scanning.children scanning.state)
    (happlied : scanning.applied? source scan token = some other) :
    first.Bodies other.children other.state := by
  have hnext : first.Bodies scanning.children scanning.state.next := h
  have hreference := ParseState.bodies_classReference source false scanning.state
  unfold applied? at happlied
  dsimp only at happlied
  split at happlied
  · obtain rfl := Option.some.inj happlied
    exact bodies_applied hscan hnext token callStops rfl
  · split at happlied
    · split at happlied
      · rename_i reference last heq
        obtain rfl := Option.some.inj happlied
        split at heq
        · rw [heq] at hreference
          exact h.append hreference
        · cases heq
      · split at happlied
        · obtain rfl := Option.some.inj happlied
          exact bodies_applied hscan hnext token indexStops rfl
        · cases happlied
    · cases happlied

/-! ## Names, words and statements -/

theorem bodies_nameAt (hscan : scan.Bodied)
    (h : first.Bodies scanning.children scanning.state) (token : Token) :
    first.Bodies (scanning.nameAt source scan stops token).children
      (scanning.nameAt source scan stops token).state := by
  have hnext : first.Bodies scanning.children scanning.state.next := h
  unfold nameAt
  dsimp only
  split
  · exact h
  · split
    · exact h
    · split
      · exact hnext.append (ParseState.bodies_resource hscan _ _ _)
      · split
        · exact hnext.append (ParseState.bodies_classAfterName hscan _ _ _ _)
        · exact h

theorem bodies_wordAt (hscan : scan.Bodied)
    (h : first.Bodies scanning.children scanning.state) (token : Token) :
    first.Bodies (scanning.wordAt source scan stops token).children
      (scanning.wordAt source scan stops token).state := by
  have hname : first.Bodies (scanning.nameAt source scan stops token).children
      (scanning.nameAt source scan stops token).state := bodies_nameAt hscan h token
  unfold wordAt
  dsimp only
  split
  · cases happlied : scanning.applied? source scan token with
    | some other => exact bodies_applied? hscan h happlied
    | none => exact hname
  · exact hname

theorem bodies_requirementAt (hscan : scan.Bodied)
    (h : first.Bodies scanning.children scanning.state) (token : Token) :
    first.Bodies (scanning.requirementAt source scan token).children
      (scanning.requirementAt source scan token).state := by
  have hrequirement :=
    h.append (ParseState.bodies_requirementAt source hscan token scanning.state)
  unfold requirementAt
  dsimp only
  split
  · exact hrequirement
  · exact hrequirement

theorem bodies_significantAt (hscan : scan.Bodied)
    (h : first.Bodies scanning.children scanning.state) (token : Token) :
    first.Bodies (scanning.significantAt source scan stops token).children
      (scanning.significantAt source scan stops token).state := by
  unfold significantAt
  split
  · exact h.concat (Node.bodied_string _ _)
  · exact bodies_variableAt h token
  · exact bodies_requirementAt hscan h token
  · exact bodies_requirementAt hscan h token
  · exact bodies_requirementAt hscan h token
  · exact bodies_wordAt hscan h token
  · exact bodies_wordAt hscan h token
  · exact h.append (ParseState.bodies_caseStatement hscan _)
  · exact h.append (ParseState.bodies_condition hscan true _)
  · exact h.append (ParseState.bodies_condition hscan false _)
  · exact bodies_dotAt hscan h
  · split
    · exact bodies_callAt hscan h token
    · exact h

theorem bodies_tokenAt (hscan : scan.Bodied)
    (h : first.Bodies scanning.children scanning.state) (token : Token) :
    first.Bodies (scanning.tokenAt source scan stops token).children
      (scanning.tokenAt source scan stops token).state := by
  unfold tokenAt
  split
  · exact h
  · split
    · exact h
    · exact bodies_significantAt hscan h token

/-! ## Loops -/

theorem bodies_step (hscan : scan.Bodied)
    (h : first.Bodies scanning.children scanning.state) :
    first.Bodies (step source scan stops scanning).state.children
      (step source scan stops scanning).state.state := by
  unfold step
  split
  · exact h
  · split
    · exact h
    · exact bodies_tokenAt hscan h _

end Scanning

/-! ## Scans -/

namespace Scan

variable {source : List Char} {scan : Scan}

theorem bodied_within (hscan : scan.Bodied) : (within source scan).Bodied where
  isBlob := fun _ _ _ => rfl
  bodies := by
    intro offset stops state
    apply ParseState.Bodies.parent _ rfl
    exact iterate_invariant
      (fun scanning : Scanning => state.Bodies scanning.children scanning.state)
      (fun _ hscanning => Scanning.bodies_step hscan hscanning) _ _
      (ParseState.bodies_nothing state)

theorem bodied_ofDepth (source : List Char) (depth : Nat) : (ofDepth source depth).Bodied := by
  induction depth with
  | zero =>
      refine ⟨fun _ _ _ => rfl, fun offset stops state => ?_⟩
      exact (ParseState.bodies_nothing state).parent rfl
  | succ depth ih => exact bodied_within ih

/-- Wherever a scan begins, what it finds has its bodies as long as nothing is reported. -/
theorem bodied_scan (source : List Char) : (Manifest.scan source).Bodied where
  isBlob := fun offset stops state =>
    (bodied_ofDepth source (state.remaining + 1)).isBlob offset stops state
  bodies := fun offset stops state =>
    (bodied_ofDepth source (state.remaining + 1)).bodies offset stops state

end Scan

end Manifest
