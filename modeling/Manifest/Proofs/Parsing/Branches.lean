import Manifest.Parse.Branching
import Manifest.Proofs.Parsing.Declarations

/-!
# Case statements and conditions are laid out

The arms of a case statement follow one another.  The branches of a condition are read
one after the other, and each is put inside the one before.
-/

namespace Manifest

open Node (Laid Fits)

variable {source : List Char} {bound : Nat} {scan : Scan} {first state after : ParseState}
  {start : Int} {token : Token}

/-! ## Case statements -/

namespace CaseArms

variable {read : CaseArms}

theorem reads_step (hscan : scan.Lays source bound) (hbound : first.remaining < bound)
    (h : first.Reads source start read.parts read.state) :
    first.Reads source start (step source scan read).state.parts
      (step source scan read).state.state := by
  have hle := h.remaining_le
  have harm := hscan.here h.placed_after (Nat.lt_of_le_of_lt hle hbound) caseArmStops
  unfold step
  split
  · exact h
  · dsimp only
    generalize scan.here source caseArmStops read.state = arm at harm
    split
    · rename_i hend
      exact h.append (harm.reads_end (Option.isNone_iff_eq_none.1 hend))
    · have hcolon := h.append harm.reads
      split
      · have hbody := hscan.here hcolon.next.placed_after
          (Nat.lt_of_le_of_lt hcolon.next.remaining_le hbound) bodyStops
        exact hcolon.next.append hbody.reads
      · exact hcolon

theorem reads_readAll (hscan : scan.Lays source bound) (hbound : first.remaining < bound)
    {control : Node} (h : first.Reads source start [control] state) :
    first.Reads source start (readAll source scan control state).parts
      (readAll source scan control state).state :=
  iterate_invariant (fun read : CaseArms => first.Reads source start read.parts read.state)
    (fun _ hread => reads_step hscan hbound hread) _ _ h

end CaseArms

namespace ParseState

/-- A case statement ends with the token on which the parse is left. -/
theorem reads_caseStatement (hscan : scan.Lays source bound)
    (hplaced : state.cursor.Placed source) (hbound : state.next.remaining < bound) :
    state.next.Reads source (state.offset source) [(state.caseStatement source scan).1]
      (state.caseStatement source scan).2.next := by
  have hnext := placed_next hplaced
  have hle := offset_le_next hplaced
  have hcontrol := (hscan.here hnext hbound conditionStops).reads
  unfold caseStatement
  dsimp only
  generalize scan.here source conditionStops state.next = control at hcontrol
  have hread := CaseArms.reads_readAll hscan hbound hcontrol
  generalize CaseArms.readAll source scan control.1 control.2.next = read at hread
  have hparts := hread.next.laid.from (Int.ofNat_le.2 hle)
  refine reads_node hnext hread.next.leads ?_
  cases htoken : read.state.token? with
  | none => exact Node.fits_enclosing rfl hparts
  | some token =>
      have hoffset : read.state.offset source = token.offset := offset_of_token? htoken
      have hlater : state.next.offset source ≤ read.state.offset source :=
        hread.leads.offset_le hnext
      have hrange : token.offset ≤ token.stop := token.range.start_le_stop
      have hstop : token.stop ≤ read.state.next.offset source :=
        hread.placed_after.stop_le_next htoken
      have hown : state.offset source ≤ token.stop := by omega
      exact Node.fits_ended (Int.le_refl _) (Int.ofNat_le.2 hown) (Int.ofNat_le.2 hstop) hparts

end ParseState

/-! ## Conditions -/

def Branch.Fits (start : Int) (branch : Branch) (stop : Int) : Prop :=
  start ≤ branch.offset ∧ Laid branch.offset [branch.condition, branch.consequence] stop

def Branch.Row (start : Int) : List Branch → Int → Prop
  | [], stop => start ≤ stop
  | branch :: branches, stop => ∃ middle, branch.Fits start middle ∧ Row middle branches stop

namespace Branch

variable {branch : Branch} {branches : List Branch} {middle stop : Int}
  {otherwise? : Option Node}

theorem Row.concat (h : Row start branches middle) (h' : branch.Fits middle stop) :
    Row start (branches ++ [branch]) stop := by
  induction branches generalizing start with
  | nil => exact ⟨stop, ⟨Int.le_trans h h'.1, h'.2⟩, Int.le_refl _⟩
  | cons earlier branches ih =>
      rcases h with ⟨between, hearlier, hrest⟩
      exact ⟨between, hearlier, ih hrest⟩

theorem fits_node (h : branch.Fits start middle) (hrest : Laid middle otherwise?.toList stop) :
    Node.Fits start (branch.node otherwise?) stop :=
  (Node.fits_enclosing rfl (h.2.append hrest)).from h.1

/-- Each branch encloses those after it. -/
theorem laid_nested (h : Row start branches middle) (hrest : Laid middle otherwise?.toList stop) :
    Laid start (branches.foldr (fun branch otherwise? => some (branch.node otherwise?))
      otherwise?).toList stop := by
  induction branches generalizing start with
  | nil => exact hrest.from h
  | cons branch branches ih =>
      rcases h with ⟨between, hbranch, hbranches⟩
      exact (fits_node hbranch (ih hbranches)).laid

end Branch

theorem ParseState.reads_branch (hscan : scan.Lays source bound)
    (hplaced : state.cursor.Placed source) (hbound : state.next.remaining < bound) :
    (state.branch source scan).1.offset = state.offset source ∧
      state.next.Reads source (state.next.offset source)
        [(state.branch source scan).1.condition, (state.branch source scan).1.consequence]
        (state.branch source scan).2.next ∧
      (state.branch source scan).2.next.cursor.Settled := by
  have hcondition := (hscan.here (placed_next hplaced) hbound conditionStops).reads
  have hconsequence := hscan.here hcondition.placed_after
    (Nat.lt_of_le_of_lt hcondition.remaining_le hbound) bodyStops
  exact ⟨rfl, hcondition.append hconsequence.reads,
    settled_next (hconsequence.leads.placed hconsequence.placed)⟩

namespace Branches

/-- The branches so far are laid out, and the parse looks for a further one. -/
structure Open (source : List Char) (first : ParseState) (start : Int) (read : Branches) :
    Prop where
  placed : first.cursor.Placed source
  leads : first.cursor.LeadsTo read.state.cursor
  settled : read.state.cursor.Settled
  noOtherwise : read.otherwise? = none
  row : Branch.Row start read.branches (read.state.offset source)

/-- All branches are laid out up to where the parse goes on. -/
structure Closed (source : List Char) (first : ParseState) (start : Int) (read : Branches) :
    Prop where
  leads : first.cursor.LeadsTo read.state.next.cursor
  row : ∃ middle, Branch.Row start read.branches middle ∧
    Laid middle read.otherwise?.toList (read.state.next.offset source)

variable {read next last : Branches} {allowElsif : Bool}

/-- No further branch: the token that was looked at is left, or one behind it. -/
theorem Open.close (h : Open source first start read)
    (hleads : read.state.cursor.LeadsTo after.next.cursor) :
    Closed source first start { read with state := after } where
  leads := h.leads.trans hleads
  row := by
    refine ⟨read.state.offset source, h.row, ?_⟩
    rw [show ({ read with state := after } : Branches).otherwise? = none from h.noOtherwise]
    exact Node.laid_nil (Int.ofNat_le.2 (hleads.offset_le (h.leads.placed h.placed)))

theorem Open.leave (h : Open source first start read) :
    Closed source first start { read with state := read.state.previous } := by
  refine h.close ?_
  rw [ParseState.cursor_next_previous h.settled]
  exact .refl _

theorem open_step (hscan : scan.Lays source bound) (hbound : first.remaining < bound)
    (h : Open source first start read)
    (hstep : step source scan allowElsif read = .again next) :
    Open source first start next ∧ next.state.remaining < read.state.remaining := by
  unfold step at hstep
  split at hstep
  · dsimp only at hstep
    split at hstep
    · cases hstep
    · cases hstep
  · rename_i hkind
    obtain ⟨token, htoken, -⟩ := Option.map_eq_some_iff.1 hkind
    split at hstep
    · have hplaced := h.leads.placed h.placed
      have hless := ParseState.remaining_next_lt htoken
      have hle : read.state.remaining ≤ first.remaining := h.leads.remaining_le
      obtain ⟨hoffset, hbranch, hsettled⟩ := ParseState.reads_branch hscan hplaced
        (show read.state.next.remaining < bound by omega)
      dsimp only at hstep
      obtain rfl := Progress.again.inj hstep
      have hbehind := hbranch.remaining_le
      have hlater := ParseState.offset_le_next hplaced
      refine ⟨⟨h.placed, h.leads.trans (read.state.leadsTo_next.trans hbranch.leads),
        hsettled, h.noOtherwise, ?_⟩, ?_⟩
      · refine h.row.concat ⟨?_, ?_⟩
        · exact Int.le_of_eq (congrArg Int.ofNat hoffset)
        · rw [hoffset]
          exact hbranch.laid.from (Int.ofNat_le.2 hlater)
      · exact Nat.lt_of_le_of_lt hbehind hless
    · cases hstep
  · cases hstep

theorem closed_step (hscan : scan.Lays source bound) (hbound : first.remaining < bound)
    (h : Open source first start read)
    (hstep : step source scan allowElsif read = .done last) :
    Closed source first start last := by
  have hplaced := h.leads.placed h.placed
  have hnext := ParseState.placed_next hplaced
  have hle : read.state.remaining ≤ first.remaining := h.leads.remaining_le
  unfold step at hstep
  split at hstep
  · dsimp only at hstep
    split at hstep
    · have hbrace := ParseState.placed_next hnext
      have hbelow : read.state.next.next.remaining ≤ read.state.remaining :=
        Nat.le_trans read.state.next.remaining_next_le read.state.remaining_next_le
      have hotherwise := (hscan.here hbrace (by omega) bodyStops).reads
      obtain rfl := Progress.done.inj hstep
      have hbefore := hotherwise.before hplaced
        (read.state.leadsTo_next.trans read.state.next.leadsTo_next)
      have hlater : read.state.offset source ≤ read.state.next.next.offset source :=
        (read.state.leadsTo_next.trans read.state.next.leadsTo_next).offset_le hplaced
      exact ⟨h.leads.trans hbefore.leads, _, h.row,
        hotherwise.laid.from (Int.ofNat_le.2 hlater)⟩
    · obtain rfl := Progress.done.inj hstep
      refine h.close ?_
      rw [ParseState.cursor_next_previous h.settled.next]
      exact read.state.leadsTo_next
  · split at hstep
    · cases hstep
    · obtain rfl := Progress.done.inj hstep
      exact h.leave
  · obtain rfl := Progress.done.inj hstep
    exact h.leave

theorem closed_readAll (hscan : scan.Lays source bound) (hbound : first.remaining < bound)
    (h : Open source first start ⟨[], none, state⟩) (allowElsif : Bool) :
    Closed source first start (readAll source scan allowElsif state) := by
  obtain ⟨last, hlast, hstep⟩ := iterate_ends (Open source first start)
    (fun read => read.state.remaining) (fun _ _ hread hstep => open_step hscan hbound hread hstep)
    (state.remaining + 1) ⟨[], none, state⟩ h (Nat.lt_succ_self _)
  exact closed_step hscan hbound hlast hstep

end Branches

/-- A condition is laid out with all its branches, up to where the parse goes on. -/
theorem ParseState.reads_condition (hscan : scan.Lays source bound)
    (hplaced : state.cursor.Placed source) (hbound : state.next.remaining < bound)
    (allowElsif : Bool) :
    state.next.Reads source (state.offset source) [(state.condition source scan allowElsif).1]
      (state.condition source scan allowElsif).2.next := by
  have hnext := placed_next hplaced
  obtain ⟨hoffset, hbranch, hsettled⟩ := reads_branch hscan hplaced hbound
  unfold condition
  dsimp only
  generalize state.branch source scan = branch at hoffset hbranch hsettled
  have hopen : Branches.Open source state.next (branch.2.next.offset source)
      ⟨[], none, branch.2.next⟩ :=
    ⟨hnext, hbranch.leads, hsettled, rfl, Int.le_refl _⟩
  obtain ⟨hleads, middle, hrow, hotherwise⟩ := Branches.closed_readAll hscan hbound hopen allowElsif
  refine reads_node hnext hleads ?_
  have hfirst : branch.1.Fits (state.offset source) (branch.2.next.offset source) := by
    refine ⟨Int.le_of_eq (by rw [hoffset]), ?_⟩
    rw [hoffset]
    exact hbranch.laid.from (Int.ofNat_le.2 (offset_le_next hplaced))
  exact Branch.fits_node hfirst (Branch.laid_nested hrow hotherwise)

end Manifest
