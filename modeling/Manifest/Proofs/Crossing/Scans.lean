import Manifest.Proofs.Crossing.Branches
import Manifest.Proofs.Crossing.Classes
import Manifest.Proofs.Crossing.Requirements
import Manifest.Proofs.Crossing.Resources

/-!
# Scans come over stretches

Each step of a scan comes over a bracket or a construct, or over blanks.  So where a scan ends on
a token, a stretch is behind it, and the scans inside of it have come over stretches as well.
-/

namespace Manifest

open Region

namespace Scanning

variable {source : List Char} {bound : Nat} {scan : Scan} {stops : List TokenKind}
  {nesting : Nesting} {token next : Token} {rest : List Token} {scanning after : Scanning}

/-! ## Words -/

/-- A name that is applied to nothing opens a resource, or declares a class, or stands for
itself. -/
theorem ahead_nameAt (hscan : scan.Crosses source bound)
    (hready : scanning.state.Ready source bound) (htoken : scanning.state.token? = some token)
    (hkind : token.kind = .identifier ∨ token.kind = .kwClass)
    (happlied : token.kind = .identifier → scanning.applied? source scan token = none)
    (hgoes : scanning.nesting.isActive = true ∨ stops.contains token.kind = false)
    (hend : (scanning.nameAt source scan stops token).state.Sees (next :: rest)) :
    (construct stops scanning.nesting next).Ahead source scanning.state (next :: rest) := by
  have hless := hready.remaining_next_lt htoken
  -- the name stands for itself if no block and no declaration begins with it
  have halone : scanning.state.next.Sees (next :: rest) →
      (next.kind = .leftBrace → scanning.nesting.opensBlocks stops = false) →
      (token.kind = .kwClass → next.kind = .identifier → scanning.nesting.keepsNames = true) →
      (construct stops scanning.nesting next).Ahead source scanning.state (next :: rest) := by
    intro hsees hblock hclass
    have hfaces := hready.next.loud.faces hsees
    have hcalled := fun h => kind_of_applied?_none hfaces (happlied h)
    refine ⟨[token], (hready.faces htoken hsees).toSees, .alone ?_⟩
    exact
      { significant := hready.loud token htoken
        untracked := by rcases hkind with h | h <;> rw [h] <;> rfl
        goes := hgoes
        statement := by rcases hkind with h | h <;> rw [h] <;> decide
        function := by rcases hkind with h | h <;> rw [h] <;> decide
        definition := fun h => by rcases hkind with h' | h' <;> cases h'.symm.trans h
        call := fun h => (hcalled h).1
        index := fun h => (hcalled h).2
        block := fun _ => hblock
        declaration := hclass
        method := fun h => by rcases hkind with h' | h' <;> cases h'.symm.trans h }
  unfold nameAt at hend
  dsimp only at hend
  split at hend
  · rename_i hkeeps
    refine halone hend (fun _ => ?_) fun _ _ => hkeeps
    unfold Nesting.opensBlocks
    rw [hkeeps]
    rfl
  · rename_i hkeeps
    split at hend
    · rename_i hnone
      exact (hend.token?_ne_none hnone).elim
    · rename_i second hsecond
      split at hend
      · rename_i hblock
        have hread := ParseState.crossed_resource hscan hready.next hless (token.text source)
          token.offset
        obtain ⟨closing, hclosing⟩ := hread.ready.exists_faces hend
        obtain ⟨row, hbehind, hrow⟩ := hread.ahead closing _ hclosing.toSees
        have hopens : scanning.nesting.opensBlocks stops = true := by
          have hgoes := hblock.2
          unfold endsAt at hgoes
          unfold Nesting.opensBlocks
          revert hgoes hkeeps
          cases scanning.nesting.keepsNames <;> cases scanning.nesting.isActive <;> simp
        exact ⟨token :: second :: (row ++ [closing]),
          by simpa using (hready.faces htoken (hready.next.faces hsecond hbehind).toSees).toSees,
          .resource hkind hblock.1 hopens hrow⟩
      · rename_i hblock
        split at hend
        · rename_i hclass
          obtain ⟨row, hbehind, hrow⟩ := ParseState.ahead_classAfterName hscan hready.next hend
          exact ⟨token :: second :: row,
            (hready.faces htoken (hready.next.faces hsecond hbehind).toSees).toSees,
            .classDecl hclass.1 hclass.2 (by simpa using hkeeps) hrow⟩
        · rename_i hclass
          have hsees : scanning.state.next.Sees (next :: rest) := hend
          obtain rfl := Option.some.inj
            ((hready.next.loud.faces hsees).token?.symm.trans hsecond)
          refine halone hsees (fun hbrace => ?_) fun hword hname => (hclass ⟨hword, hname⟩).elim
          have hends : scanning.endsAt stops .leftBrace = true := by
            simpa using fun h => hblock ⟨hbrace, h⟩
          unfold endsAt at hends
          unfold Nesting.opensBlocks
          revert hends
          cases scanning.nesting.keepsNames <;> cases scanning.nesting.isActive <;> simp

theorem ahead_wordAt (hscan : scan.Crosses source bound)
    (hready : scanning.state.Ready source bound) (htoken : scanning.state.token? = some token)
    (hkind : token.kind = .identifier ∨ token.kind = .kwClass)
    (hgoes : scanning.nesting.isActive = true ∨ stops.contains token.kind = false)
    (hend : (scanning.wordAt source scan stops token).state.Sees (next :: rest)) :
    (construct stops scanning.nesting next).Ahead source scanning.state (next :: rest) := by
  unfold wordAt at hend
  dsimp only at hend
  split at hend
  · rename_i hname
    cases happlied : scanning.applied? source scan token with
    | some after =>
        rw [happlied] at hend
        exact ahead_applied? hscan hready htoken hname happlied hend
    | none =>
        rw [happlied] at hend
        exact ahead_nameAt hscan hready htoken hkind (fun _ => happlied) hgoes hend
  · rename_i hname
    exact ahead_nameAt hscan hready htoken hkind (fun h => (hname h).elim) hgoes hend

/-! ## Steps -/

theorem ahead_significantAt (hscan : scan.Crosses source bound)
    (hready : scanning.state.Ready source bound) (htoken : scanning.state.token? = some token)
    (htrack : scanning.nesting.track token.kind = none)
    (hgoes : scanning.nesting.isActive = true ∨ stops.contains token.kind = false)
    (hend : (scanning.significantAt source scan stops token).state.Sees (next :: rest)) :
    (construct stops scanning.nesting next).Ahead source scanning.state (next :: rest) := by
  have hcondition : ∀ {allowElsif : Bool}, token.kind = .kwIf ∨ token.kind = .kwUnless →
      (token.kind != .kwUnless) = allowElsif →
      (scanning.state.condition source scan allowElsif).2.next.Sees (next :: rest) →
      (construct stops scanning.nesting next).Ahead source scanning.state (next :: rest) := by
    rintro allowElsif hkind rfl hend
    obtain ⟨branch, closing, more, hfaces, hbranch, hmore⟩ :=
      ParseState.exists_of_condition hscan hready htoken hend
    exact ⟨token :: (branch ++ closing :: more), by simpa using hfaces.toSees,
      .condition hkind hbranch hmore⟩
  have hrequirement : token.kind ∈ requirementKinds →
      (scanning.requirementAt source scan token).state.Sees (next :: rest) →
      (construct stops scanning.nesting next).Ahead source scanning.state (next :: rest) :=
    fun hkind hend => ahead_requirementAt hscan hready htoken hkind hend
  unfold significantAt at hend
  split at hend
  · rename_i hkind
    refine ⟨[token], (hready.faces htoken hend).toSees, .alone ?_⟩
    exact .of_kind (by rw [hkind]; decide) (fun h => nomatch hkind.symm.trans h)
      (by rw [hkind]; decide) (hready.loud token htoken) htrack hgoes
  · rename_i hkind
    exact ahead_variableAt hready htoken hkind hgoes hend
  · rename_i hkind
    exact hrequirement (by rw [hkind]; decide) hend
  · rename_i hkind
    exact hrequirement (by rw [hkind]; decide) hend
  · rename_i hkind
    exact hrequirement (by rw [hkind]; decide) hend
  · rename_i hkind
    exact ahead_wordAt hscan hready htoken (.inl hkind) hgoes hend
  · rename_i hkind
    exact ahead_wordAt hscan hready htoken (.inr hkind) hgoes hend
  · rename_i hkind
    obtain ⟨control, opening, arms, closing, hfaces, hcontrol, harms, hclosing⟩ :=
      ParseState.exists_of_caseStatement hscan hready htoken hend
    exact ⟨token :: (control ++ opening :: (arms ++ [closing])), by simpa using hfaces.toSees,
      .caseStatement hkind hcontrol harms hclosing⟩
  · rename_i hkind
    exact hcondition (.inl hkind) (by rw [hkind]; rfl) hend
  · rename_i hkind
    exact hcondition (.inr hkind) (by rw [hkind]; rfl) hend
  · rename_i hkind
    exact ahead_dotAt hscan hready htoken hkind hgoes hend
  · rename_i hstring hvariable hinclude hrequire hcontain hname hclass hcase hif hunless hdot
    split at hend
    · rename_i hfunction
      obtain ⟨row, hbehind, hrow⟩ :=
        ahead_callAt hscan hready.placed hready.bounded htoken hend
      refine ⟨token :: row, (hready.faces htoken hbehind).toSees, .function hfunction ?_ hrow⟩
      simpa [requirementKinds] using ⟨hinclude, hrequire, hcontain⟩
    · rename_i hfunction
      refine ⟨[token], (hready.faces htoken hend).toSees, .alone ?_⟩
      exact .of_kind (by simpa using ⟨hname, hdot, hclass, hcase, hif, hunless⟩)
        (fun h => (hvariable h).elim) hfunction (hready.loud token htoken) htrack hgoes

/-- A step of a scan adds a bracket or a construct to what is behind it. -/
theorem ahead_step {last : Nesting} (hscan : scan.Crosses source bound)
    (hplaced : scanning.state.cursor.Placed source) (hbound : scanning.state.remaining ≤ bound)
    (hstep : step source scan stops scanning = .again after)
    (h : (part stops after.nesting last next).Ahead source after.state (next :: rest)) :
    (part stops scanning.nesting last next).Ahead source scanning.state (next :: rest) := by
  unfold step at hstep
  split at hstep
  · cases hstep
  · rename_i token htoken
    split at hstep
    · cases hstep
    · rename_i hends
      have hgoes : scanning.nesting.isActive = true ∨ stops.contains token.kind = false := by
        unfold endsAt at hends
        revert hends
        cases scanning.nesting.isActive <;> simp
      obtain rfl := Progress.again.inj hstep
      unfold tokenAt at h
      split at h
      · rename_i htrivia
        obtain ⟨row, hsees, hrow⟩ := h
        exact ⟨row, ParseState.sees_of_trivia hplaced.begun htoken htrivia hsees, hrow⟩
      · rename_i hloud
        have hready : scanning.state.Ready source bound := by
          refine ⟨hplaced, hbound, fun other hother => ?_⟩
          obtain rfl := Option.some.inj (htoken.symm.trans hother)
          simpa using hloud
        split at h
        · rename_i further htrack
          obtain ⟨row, hsees, hrow⟩ := h
          exact ⟨token :: row, (hready.faces htoken hsees).toSees, .bracket htrack hgoes hrow⟩
        · rename_i htrack
          obtain ⟨row, behind, hbehind, hsees, hrow⟩ := h.first
          obtain ⟨own, hown, hconstruct⟩ :=
            ahead_significantAt hscan hready htoken htrack hgoes hsees
          rw [nesting_significantAt] at hrow
          rw [← hbehind, ← List.append_assoc] at hown
          exact ⟨own ++ row, hown, .onward hconstruct hrow⟩

/-- A scan ends on a stop token where no shape of bracket is active. -/
theorem stop_of_done (htoken : scanning.state.token? = some token)
    (hstep : step source scan stops scanning = .done after) :
    stops.contains token.kind = true ∧ scanning.nesting.isActive = false := by
  unfold step at hstep
  rw [htoken] at hstep
  dsimp only at hstep
  split at hstep
  · rename_i hends
    unfold endsAt at hends
    rw [Bool.and_eq_true, Bool.not_eq_true'] at hends
    exact hends.symm
  · cases hstep

/-- From wherever a scan is on its way, a part of a stretch leads to the token that it ends on. -/
theorem exists_part {first : ParseState} {start : Int} (hscan : scan.Crosses source bound)
    (hbound : first.remaining ≤ bound) (fuel : Nat) (hlaying : Laying source first start scanning)
    (hfuel : scanning.state.remaining < fuel)
    (hend : (iterate (step source scan stops) fuel scanning).state.Faces (next :: rest)) :
    ∃ last : Nesting, last.isActive = false ∧ stops.contains next.kind = true ∧
      (part stops scanning.nesting last next).Ahead source scanning.state (next :: rest) := by
  induction fuel generalizing scanning with
  | zero => omega
  | succ fuel ih =>
      cases hstep : step source scan stops scanning with
      | done last =>
          rw [iterate_done hstep] at hend
          obtain rfl := (stopped_step hstep).1
          obtain ⟨hstop, hactive⟩ := stop_of_done hend.token? hstep
          exact ⟨_, hactive, hstop, [], hend.toSees, .nothing⟩
      | again after =>
          obtain ⟨hafter, hless⟩ := laying_step hscan.lays hbound hlaying hstep
          rw [iterate_again hstep] at hend
          obtain ⟨last, hactive, hstop, hpart⟩ := ih hafter (by omega) hend
          exact ⟨last, hactive, hstop, ahead_step hscan hlaying.placed_after
            (Nat.le_trans hlaying.remaining_le hbound) hstep hpart⟩

end Scanning

/-! ## Scans -/

namespace Scan

variable {source : List Char} {bound : Nat} {scan : Scan}

theorem crosses_within (hscan : scan.Crosses source bound) :
    (within source scan).Crosses source (bound + 1) where
  lays := lays_within hscan.lays
  crosses := by
    intro offset stops state stop rest hbound hplaced _ hend
    obtain ⟨last, hactive, hstop, row, hsees, hrow⟩ :=
      Scanning.exists_part hscan (Nat.le_of_lt_succ hbound) (state.remaining + 1)
        (Scanning.laying_begin hplaced) (Nat.lt_succ_self _) hend
    exact ⟨row, hsees, .stretch hrow hactive hstop⟩

theorem crosses_ofDepth (source : List Char) (depth : Nat) :
    (ofDepth source depth).Crosses source depth := by
  -- a scan inside of another one has fewer tokens left, as in `lays_ofDepth`
  induction depth with
  | zero =>
      refine ⟨lays_ofDepth source 0, fun offset stops state stop rest hbound => ?_⟩
      exact (Nat.not_lt_zero _ hbound).elim
  | succ depth ih => exact crosses_within ih

/-- Where a scan ends on a token, a stretch is behind it. -/
theorem crosses_scan (source : List Char) (bound : Nat) :
    (Manifest.scan source).Crosses source bound where
  lays := lays_scan source bound
  crosses := fun offset stops state stop rest _ hplaced hoffset hend =>
    (crosses_ofDepth source (state.remaining + 1)).crosses offset stops state stop rest
      (Nat.lt_succ_self _) hplaced hoffset hend

end Scan

end Manifest
