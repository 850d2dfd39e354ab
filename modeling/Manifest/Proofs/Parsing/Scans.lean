import Manifest.Parse.Scan
import Manifest.Proofs.Parsing.Branches

/-!
# Scans lay out what they take out

Whatever a scan takes out begins where the token under the cursor does, and the scan
goes on behind it.  A scan inside of another one begins with fewer tokens left, so a
scan is given depth enough and ends by itself.
-/

namespace Manifest

open Node (Laid Fits)

namespace Scanning

/-- What a scan adds from a state on is laid out up to where it goes on. -/
def GrowsFrom (source : List Char) (origin : ParseState) (before after : Scanning) : Prop :=
  ∃ nodes, after.children = before.children ++ nodes ∧
    origin.moveNext.Reads source (origin.offset source) nodes after.state

variable {source : List Char} {bound : Nat} {scan : Scan} {stops : List TokenKind}
  {token : Token} {origin state : ParseState} {scanning other : Scanning} {nodes : List Node}

/-! ## Ways to go on -/

theorem reads_moveNext (hplaced : origin.cursor.Placed source) :
    origin.moveNext.Reads source (origin.offset source) [] origin.moveNext :=
  ParseState.reads_nothing (ParseState.placed_moveNext hplaced) (.refl _)
    (Int.ofNat_le.2 (origin.leadsTo_moveNext.offset_le hplaced))

theorem reads_of_next (hplaced : origin.cursor.Placed source)
    (h : origin.next.Reads source (origin.offset source) nodes state) :
    origin.moveNext.Reads source (origin.offset source) nodes state :=
  h.before (ParseState.placed_moveNext hplaced) origin.moveNext_leadsTo_next

theorem growsFrom_advance (hchildren : other.children = scanning.children ++ nodes)
    (h : origin.moveNext.Reads source (origin.offset source) nodes state.next) :
    GrowsFrom source origin scanning (other.advance state) :=
  ⟨nodes, hchildren, h⟩

theorem growsFrom_stay (hchildren : other.children = scanning.children ++ nodes)
    (h : origin.moveNext.Reads source (origin.offset source) nodes state) :
    GrowsFrom source origin scanning (other.stay state) :=
  ⟨nodes, hchildren, h⟩

theorem growsFrom_nothing (hchildren : other.children = scanning.children)
    (hplaced : origin.cursor.Placed source) :
    GrowsFrom source origin scanning (other.advance origin) := by
  refine growsFrom_advance (by rw [hchildren, List.append_nil]) ?_
  exact (reads_moveNext hplaced).onward origin.moveNext_leadsTo_next

/-! ## Variables, calls and indices -/

theorem growsFrom_variableAt (hplaced : scanning.state.cursor.Placed source)
    (htoken : scanning.state.token? = some token) :
    GrowsFrom source scanning.state scanning (scanning.variableAt source token) := by
  unfold variableAt
  dsimp only
  split
  · have hreads := ParseState.reads_token hplaced htoken
      (ParseState.fits_tokenLeaf hplaced htoken (.variableDefinition (token.text source) _) rfl)
    exact growsFrom_advance rfl (reads_of_next hplaced hreads.next)
  · have hreads := ParseState.reads_token hplaced htoken
      (ParseState.fits_tokenLeaf hplaced htoken (.variable (token.text source) _) rfl)
    exact growsFrom_stay rfl (reads_of_next hplaced hreads)

theorem reads_applied (hscan : scan.Lays source bound) (hplaced : state.cursor.Placed source)
    (htoken : state.token? = some token) (hbound : state.next.remaining < bound)
    {form : Form Link} (hform : form.ownLength = (token.text source).length) :
    state.moveNext.Reads source (state.offset source)
      [⟨token.offset, none, form, [(scan.inside source stops state.next).1]⟩]
      (scan.inside source stops state.next).2.next := by
  have hnext := ParseState.placed_next hplaced
  have hmove := state.next.remaining_moveNext_le
  have hinside := (hscan.inside hnext (Nat.lt_of_le_of_lt hmove hbound) stops).reads.before hnext
    state.next.leadsTo_moveNext
  have hoffset : state.offset source = token.offset := ParseState.offset_of_token? htoken
  have hlength := hplaced.length_text htoken
  have hstop : token.stop ≤ state.next.offset source := hplaced.stop_le_next htoken
  have hlater : state.next.offset source ≤ state.next.moveNext.offset source :=
    state.next.leadsTo_moveNext.offset_le hnext
  have hle := hinside.laid.le
  refine reads_of_next hplaced (ParseState.reads_node hnext hinside.leads
    (Node.fits_unended ?_ ?_ ?_ (hinside.laid.from ?_)))
  · exact Int.le_of_eq (congrArg Int.ofNat hoffset)
  · omega
  · omega
  · omega

theorem growsFrom_callAt (hscan : scan.Lays source bound) (hplaced : state.cursor.Placed source)
    (htoken : state.token? = some token) (hbound : state.next.remaining < bound) :
    GrowsFrom source state scanning (scanning.callAt source scan token state) := by
  unfold callAt
  dsimp only
  split
  · exact growsFrom_advance rfl (reads_applied hscan hplaced htoken hbound rfl)
  · have hreads := ParseState.reads_token hplaced htoken
      (ParseState.fits_tokenLeaf hplaced htoken (.functionCall _) rfl)
    exact growsFrom_advance rfl (reads_of_next hplaced hreads)

theorem growsFrom_dotAt (hscan : scan.Lays source bound)
    (hplaced : scanning.state.cursor.Placed source)
    (hbound : scanning.state.remaining ≤ bound) :
    GrowsFrom source scanning.state scanning (scanning.dotAt source scan) := by
  have hmove := reads_moveNext hplaced
  have hstay : ∀ other : Scanning, other.children = scanning.children →
      GrowsFrom source scanning.state scanning (other.stay scanning.state.moveNext) := by
    intro other hother
    exact growsFrom_stay (by rw [hother, List.append_nil]) hmove
  unfold dotAt
  dsimp only
  split
  · exact hstay scanning rfl
  · rename_i token htoken
    split
    · have hnamed := ParseState.placed_moveNext hplaced
      have hless := ParseState.remaining_next_lt htoken
      have hle := scanning.state.remaining_moveNext_le
      have hcall : GrowsFrom source scanning.state.moveNext scanning
          (scanning.callAt source scan token scanning.state.moveNext) :=
        growsFrom_callAt hscan hnamed htoken (by omega)
      rcases hcall with ⟨nodes, hchildren, hreads⟩
      refine ⟨nodes, hchildren, ?_⟩
      have hbefore := hreads.before hnamed scanning.state.moveNext.leadsTo_moveNext
      exact hmove.append hbefore
    · exact hstay (scanning.keep ['.']) rfl

theorem growsFrom_applied? (hscan : scan.Lays source bound)
    (hplaced : scanning.state.cursor.Placed source)
    (htoken : scanning.state.token? = some token) (hbound : scanning.state.remaining ≤ bound)
    (h : scanning.applied? source scan token = some other) :
    GrowsFrom source scanning.state scanning other := by
  have hless := ParseState.remaining_next_lt htoken
  have hbelow : scanning.state.next.remaining < bound := Nat.lt_of_lt_of_le hless hbound
  unfold applied? at h
  dsimp only at h
  split at h
  · obtain rfl := Option.some.inj h
    exact growsFrom_advance rfl (reads_applied hscan hplaced htoken hbelow rfl)
  · split at h
    · split at h
      · rename_i reference last heq
        obtain rfl := Option.some.inj h
        have hreference := ParseState.reads_classReference hplaced false
        split at heq
        · rw [heq] at hreference
          have hnext := (reads_moveNext hplaced).onward scanning.state.moveNext_leadsTo_next
          exact growsFrom_advance rfl (hnext.append hreference).next
        · cases heq
      · split at h
        · obtain rfl := Option.some.inj h
          exact growsFrom_advance rfl (reads_applied hscan hplaced htoken hbelow rfl)
        · cases h
    · cases h

/-! ## Names, words and statements -/

theorem growsFrom_nameAt (hscan : scan.Lays source bound)
    (hplaced : scanning.state.cursor.Placed source)
    (htoken : scanning.state.token? = some token) (hbound : scanning.state.remaining ≤ bound) :
    GrowsFrom source scanning.state scanning (scanning.nameAt source scan stops token) := by
  have hnext := ParseState.placed_next hplaced
  have hless := ParseState.remaining_next_lt htoken
  have hfollowing := scanning.state.next.remaining_next_le
  have hoffset : scanning.state.offset source = token.offset :=
    ParseState.offset_of_token? htoken
  have hlength := hplaced.length_text htoken
  have hstop : token.stop ≤ scanning.state.next.offset source := hplaced.stop_le_next htoken
  have htype : token.offset + (token.text source).length ≤
      scanning.state.next.offset source := by omega
  have hstart : token.offset ≤ scanning.state.next.offset source := by omega
  have hleads : scanning.state.moveNext.cursor.LeadsTo scanning.state.next.next.cursor :=
    scanning.state.moveNext_leadsTo_next.trans scanning.state.next.leadsTo_next
  have hstay : GrowsFrom source scanning.state scanning
      ((scanning.keep (token.text source)).stay scanning.state.next) :=
    growsFrom_stay (List.append_nil _).symm
      ((reads_moveNext hplaced).onward scanning.state.moveNext_leadsTo_next)
  unfold nameAt
  dsimp only
  split
  · exact growsFrom_nothing rfl hplaced
  · split
    · exact hstay
    · rename_i next hnextToken
      split
      · have hresource := ParseState.reads_resource hscan hnext (by omega) htype
        refine growsFrom_advance rfl ?_
        rw [hoffset]
        exact hresource.before (ParseState.placed_moveNext hplaced) hleads
      · split
        · have hclass := ParseState.reads_classAfterName hscan hnext hnextToken (by omega) hstart
          refine growsFrom_advance rfl ?_
          rw [hoffset]
          exact hclass.before (ParseState.placed_moveNext hplaced) hleads
        · exact hstay

theorem growsFrom_wordAt (hscan : scan.Lays source bound)
    (hplaced : scanning.state.cursor.Placed source)
    (htoken : scanning.state.token? = some token) (hbound : scanning.state.remaining ≤ bound) :
    GrowsFrom source scanning.state scanning (scanning.wordAt source scan stops token) := by
  have hname : GrowsFrom source scanning.state scanning
      (scanning.nameAt source scan stops token) :=
    growsFrom_nameAt hscan hplaced htoken hbound
  unfold wordAt
  dsimp only
  split
  · cases happlied : scanning.applied? source scan token with
    | some other => exact growsFrom_applied? hscan hplaced htoken hbound happlied
    | none => exact hname
  · exact hname

theorem growsFrom_requirementAt (hscan : scan.Lays source bound)
    (hplaced : scanning.state.cursor.Placed source)
    (htoken : scanning.state.token? = some token) (hbound : scanning.state.remaining ≤ bound) :
    GrowsFrom source scanning.state scanning (scanning.requirementAt source scan token) := by
  have hless := ParseState.remaining_next_lt htoken
  have hreads := ParseState.reads_requirementAt hscan (Nat.lt_of_lt_of_le hless hbound) hplaced
    htoken
  unfold requirementAt
  revert hreads
  rcases scanning.state.requirementAt source scan token with ⟨node, consumed, last⟩
  intro hreads
  cases consumed with
  | true => exact growsFrom_advance rfl (reads_of_next hplaced hreads)
  | false => exact growsFrom_stay rfl (reads_of_next hplaced hreads)

theorem growsFrom_significantAt (hscan : scan.Lays source bound)
    (hplaced : scanning.state.cursor.Placed source)
    (htoken : scanning.state.token? = some token) (hbound : scanning.state.remaining ≤ bound) :
    GrowsFrom source scanning.state scanning (scanning.significantAt source scan stops token) := by
  have hless := ParseState.remaining_next_lt htoken
  have hbelow : scanning.state.next.remaining < bound := Nat.lt_of_lt_of_le hless hbound
  unfold significantAt
  split
  · have hreads := ParseState.reads_token hplaced htoken
      (ParseState.fits_tokenString hplaced htoken)
    exact growsFrom_advance rfl (reads_of_next hplaced hreads)
  · exact growsFrom_variableAt hplaced htoken
  · exact growsFrom_requirementAt hscan hplaced htoken hbound
  · exact growsFrom_requirementAt hscan hplaced htoken hbound
  · exact growsFrom_requirementAt hscan hplaced htoken hbound
  · exact growsFrom_wordAt hscan hplaced htoken hbound
  · exact growsFrom_wordAt hscan hplaced htoken hbound
  · have hreads := ParseState.reads_caseStatement hscan hplaced hbelow
    exact growsFrom_advance rfl (reads_of_next hplaced hreads)
  · have hreads := ParseState.reads_condition hscan hplaced hbelow true
    exact growsFrom_advance rfl (reads_of_next hplaced hreads)
  · have hreads := ParseState.reads_condition hscan hplaced hbelow false
    exact growsFrom_advance rfl (reads_of_next hplaced hreads)
  · exact growsFrom_dotAt hscan hplaced hbound
  · split
    · exact growsFrom_callAt hscan hplaced htoken hbelow
    · exact growsFrom_nothing rfl hplaced

/-- Whatever begins with the token under the cursor is laid out behind it. -/
theorem growsFrom_tokenAt (hscan : scan.Lays source bound)
    (hplaced : scanning.state.cursor.Placed source)
    (htoken : scanning.state.token? = some token) (hbound : scanning.state.remaining ≤ bound) :
    GrowsFrom source scanning.state scanning (scanning.tokenAt source scan stops token) := by
  unfold tokenAt
  split
  · exact growsFrom_nothing rfl hplaced
  · split
    · exact growsFrom_nothing rfl hplaced
    · exact growsFrom_significantAt hscan hplaced htoken hbound

/-! ## Loops -/

/-- A scan on its way: what it has collected is laid out up to the token under the cursor. -/
def Laying (source : List Char) (first : ParseState) (start : Int) (scanning : Scanning) : Prop :=
  first.Reads source start scanning.children scanning.state

variable {first : ParseState} {start : Int} {last : Scanning}

theorem GrowsFrom.laying (h : GrowsFrom source scanning.state scanning other)
    (hlaying : Laying source first start scanning) : Laying source first start other := by
  rcases h with ⟨nodes, hchildren, hreads⟩
  unfold Laying
  rw [hchildren]
  exact ParseState.Reads.append hlaying
    (hreads.before hlaying.placed_after scanning.state.leadsTo_moveNext)

theorem laying_step (hscan : scan.Lays source bound) (hbound : first.remaining ≤ bound)
    (h : Laying source first start scanning)
    (hstep : step source scan stops scanning = .again other) :
    Laying source first start other ∧ other.state.remaining < scanning.state.remaining := by
  unfold step at hstep
  split at hstep
  · cases hstep
  · rename_i token htoken
    split at hstep
    · cases hstep
    · obtain rfl := Progress.again.inj hstep
      have hle := h.remaining_le
      have hgrows : GrowsFrom source scanning.state scanning
          (scanning.tokenAt source scan stops token) :=
        growsFrom_tokenAt hscan h.placed_after htoken (Nat.le_trans hle hbound)
      refine ⟨hgrows.laying h, ?_⟩
      rcases hgrows with ⟨nodes, -, hreads⟩
      have hless : scanning.state.moveNext.remaining < scanning.state.remaining :=
        Cursor.remaining_moveNext_lt htoken
      exact Nat.lt_of_le_of_lt hreads.remaining_le hless

theorem stopped_step (hstep : step source scan stops scanning = .done last) :
    last = scanning ∧ ∀ token, scanning.state.token? = some token →
      stops.contains token.kind = true := by
  unfold step at hstep
  split at hstep
  · rename_i hnone
    refine ⟨(Progress.done.inj hstep).symm, fun token htoken => ?_⟩
    rw [hnone] at htoken
    cases htoken
  · rename_i current hcurrent
    split at hstep
    · rename_i hends
      refine ⟨(Progress.done.inj hstep).symm, fun token htoken => ?_⟩
      obtain rfl : current = token := Option.some.inj (hcurrent.symm.trans htoken)
      unfold endsAt at hends
      exact (Bool.and_eq_true _ _ ▸ hends).2
    · cases hstep

end Scanning

/-! ## Scans -/

namespace Scan

variable {source : List Char} {bound : Nat} {scan : Scan}

theorem lays_within (hscan : scan.Lays source bound) :
    (within source scan).Lays source (bound + 1) := by
  intro offset stops state hbound hplaced hoffset
  have hbegin : Scanning.Laying source state (state.offset source) (.begin state) :=
    ParseState.reads_nothing hplaced (.refl _) (Int.le_refl _)
  obtain ⟨last, hlast, hstep⟩ := iterate_ends
    (Scanning.Laying source state (state.offset source)) (fun scanning => scanning.state.remaining)
    (fun _ _ hlaying hstep =>
      Scanning.laying_step hscan (Nat.le_of_lt_succ hbound) hlaying hstep)
    (state.remaining + 1) (.begin state) hbegin (Nat.lt_succ_self _)
  obtain ⟨hend, hstopped⟩ := Scanning.stopped_step hstep
  have hstop := ParseState.offset_le_currentStop hlast.placed_after
  have hle : state.offset source ≤ last.state.offset source := hlast.leads.offset_le hplaced
  have hends : (offset : Int) ≤ last.state.currentStop source :=
    Int.ofNat_le.2 (Nat.le_trans hoffset (Nat.le_trans hle hstop))
  unfold within
  dsimp only
  rw [hend]
  refine ⟨hplaced, hlast.leads, ?_, hstopped⟩
  refine Node.fits_ended (Int.le_refl _) hends (Int.le_refl _) ?_
  exact (hlast.laid.from (Int.ofNat_le.2 hoffset)).upTo (Int.ofNat_le.2 hstop)

theorem lays_ofDepth (source : List Char) (depth : Nat) :
    (ofDepth source depth).Lays source depth := by
  -- A scan inside of another one has fewer tokens left, so it is laid out at a lesser depth.
  induction depth with
  | zero =>
      intro offset stops state hbound
      exact (Nat.not_lt_zero _ hbound).elim
  | succ depth ih => exact lays_within ih

/-- A scan lays out whatever it begins on. -/
theorem lays_scan (source : List Char) (bound : Nat) :
    (Manifest.scan source).Lays source bound := by
  intro offset stops state _ hplaced hoffset
  have hdepth : state.remaining < state.remaining + 1 := Nat.lt_succ_self _
  exact lays_ofDepth source _ offset stops state hdepth hplaced hoffset

end Scan

end Manifest
