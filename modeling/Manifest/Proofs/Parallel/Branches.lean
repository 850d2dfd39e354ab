import Manifest.Proofs.Checked.Branches
import Manifest.Proofs.Parallel.Declarations

/-!
# Case statements and conditions side by side

Arms are linked by their number among the parts, which is the same on both sides.  A condition
looks for a further branch and goes back without one, so two conditions meet when they go on.
-/

namespace Manifest

open Parallel (bodyStops_significant)

variable {p : Parallel} {bound bound' limit limit' : Nat} {scan twin : Scan}
  {left right : ParseState}

/-! ## Case statements -/

namespace CaseArms

structure Alike (p : Parallel) (bound bound' : Nat) (read other : CaseArms) : Prop where
  parts : List.Forall₂ p.nodes read.parts other.parts
  arms : other.arms = read.arms
  states : p.Abreast bound bound' read.state other.state

variable {read other : CaseArms}

theorem caseArmStops_significant : ∀ kind ∈ caseArmStops, kind.isTrivia = false := by
  decide

theorem paired_step (hp : p.Lawful) (hscan : p.Twins bound bound' scan twin)
    (h : Alike p bound bound' read other) :
    p.Steps CaseArms.state (Alike p bound bound') (step p.left scan read)
      (step p.right twin other) := by
  have harm := hscan.here hp caseArmStops_significant h.states.toBeside
  have hleads := hscan.lays.here h.states.placed h.states.below caseArmStops
  have hnone : other.state.token?.isNone = read.state.token?.isNone := by
    rw [← Option.not_isSome, ← Option.not_isSome, h.states.isSome hp]
  unfold step
  rw [hnone, h.states.isAt hp, h.arms, ← h.parts.length_eq]
  split
  · exact .done h
  · dsimp only
    generalize scan.here p.left caseArmStops read.state = arm at harm hleads ⊢
    generalize twin.here p.right caseArmStops other.state = arm' at harm ⊢
    rcases harm with hlost | ⟨hnode, hcolon⟩
    · rw [hlost.token?]
      exact .failed hlost
    · have hparts : List.Forall₂ p.nodes (read.parts ++ [arm.1]) (other.parts ++ [arm'.1]) :=
        List.rel_append h.parts (.cons hnode .nil)
      have hnone : arm'.2.token?.isNone = arm.2.token?.isNone := by
        rw [← Option.not_isSome, ← Option.not_isSome, hcolon.isSome hp]
      rw [hnone, ← hparts.length_eq]
      split
      · exact .done ⟨hparts, rfl, hcolon⟩
      · rcases hcolon.next hp with hlost | ⟨-, hbrace⟩
        · rw [hlost.isAt]
          exact .lost hlost
        · rw [hbrace.isAt hp]
          split
          · have hplaced := ParseState.placed_next hbrace.placed
            have hbelow := Nat.lt_of_le_of_lt arm.2.next.remaining_next_le hbrace.below
            have hbody := (hbrace.next hp).andThen
              (hscan.lays.here hplaced hbelow bodyStops).leads
              fun _ hstates => hscan.here hp bodyStops_significant hstates.toBeside
            rcases hbody.next hp with hlost | ⟨hbody, hstates⟩
            · exact .lost hlost
            · exact .again ⟨List.rel_append hparts (.cons hbody .nil), rfl, hstates⟩
          · exact .again ⟨hparts, rfl, hbrace⟩

variable {control control' : Node}

theorem readAll_of_none {source : List Char} {state : ParseState} (h : state.token? = none) :
    readAll source scan control state = ⟨[control], [], state⟩ := by
  unfold readAll iterate step
  rw [h]
  rfl

theorem alike_readAll (hp : p.Lawful) (hscan : p.Twins bound bound' scan twin)
    (h : p.Abreast bound bound' left right) (hcontrol : p.nodes control control') :
    p.Lost (readAll p.left scan control left).state ∨
      Alike p bound bound' (readAll p.left scan control left)
        (readAll p.right twin control' right) :=
  Parallel.steps_iterate CaseArms.state CaseArms.state
    (fun _ _ hread => paired_step hp hscan hread)
    (fun read hnone => by unfold step; rw [hnone]; rfl)
    (fun _ _ _ hread => remaining_step hscan.lays hread.states.below hread.states.placed)
    (fun _ _ _ hread => remaining_step hscan.lays' hread.states.below' hread.states.placed')
    ⟨[control], [], left⟩ ⟨[control'], [], right⟩ ⟨.cons hcontrol .nil, rfl, h⟩

/-! ## Arms are neighbours -/

def Neighbours (read : CaseArms) : Prop :=
  0 < read.parts.length ∧ Link.Arms read.arms read.parts.length

end CaseArms

theorem Link.Arms.mono {arms : List (Link × Link)} {count more : Nat} (h : Link.Arms arms count)
    (hle : count ≤ more) : Link.Arms arms more := by
  obtain ⟨firsts, harms, hfirsts, hpairs⟩ := h
  refine ⟨firsts, harms, fun index hindex => ?_, hpairs⟩
  have hbounds := hfirsts index hindex
  omega

theorem Link.Arms.concat {arms : List (Link × Link)} {count : Nat} (h : Link.Arms arms count)
    (hpos : 0 < count) :
    Link.Arms (arms ++ [(.child count, .child (count + 1))]) (count + 2) := by
  obtain ⟨firsts, harms, hfirsts, hpairs⟩ := h
  refine ⟨firsts ++ [count], by rw [harms]; simp, fun index hindex => ?_, ?_⟩
  · rcases List.mem_append.1 hindex with hbefore | hlast
    · have hbounds := hfirsts index hbefore
      omega
    · obtain rfl := List.mem_singleton.1 hlast
      omega
  · refine List.pairwise_append.2 ⟨hpairs, List.pairwise_singleton _ _, ?_⟩
    intro index hindex later hlater
    obtain rfl := List.mem_singleton.1 hlater
    exact (hfirsts index hindex).2

namespace CaseArms

variable {source : List Char} {read : CaseArms}

theorem Neighbours.step (h : read.Neighbours) : (step source scan read).state.Neighbours := by
  have hpart : ∀ arm : Node, Link.Arms read.arms (read.parts ++ [arm]).length := fun arm =>
    h.2.mono (by rw [List.length_append]; exact Nat.le_add_right _ _)
  have hpos : ∀ arm : Node, 0 < (read.parts ++ [arm]).length := fun arm => by
    rw [List.length_append]
    exact Nat.lt_of_lt_of_le h.1 (Nat.le_add_right _ _)
  unfold CaseArms.step
  split
  · exact h
  · dsimp only
    split
    · exact ⟨hpos _, hpart _⟩
    · split
      · have hconcat := h.2.concat h.1
        refine ⟨?_, ?_⟩
        · show 0 < (read.parts ++ [_] ++ [_]).length
          simp
        · show Link.Arms _ (read.parts ++ [_] ++ [_]).length
          rw [Progress.state_again]
          simpa using hconcat
      · exact ⟨hpos _, hpart _⟩

theorem neighbours_readAll (source : List Char) (scan : Scan) (control : Node)
    (state : ParseState) : (readAll source scan control state).Neighbours :=
  iterate_invariant Neighbours (fun _ hread => hread.step) _ _
    ⟨Nat.one_pos, [], rfl, fun _ hindex => (List.not_mem_nil hindex).elim, List.Pairwise.nil⟩

end CaseArms

namespace Parallel

theorem conditionStops_significant : ∀ kind ∈ conditionStops, kind.isTrivia = false := by
  decide

theorem meets_caseStatement (hp : p.Lawful) (hscan : p.Twins bound bound' scan twin)
    (h : p.Abreast limit limit' left right) (hbelow : left.next.remaining < bound)
    (hbelow' : right.next.remaining < bound') :
    p.Meets bound bound'
      (p.nodes (left.caseStatement p.left scan).1 (right.caseStatement p.right twin).1)
      (left.caseStatement p.left scan).2 (right.caseStatement p.right twin).2 := by
  have hcontrol := (((h.next hp).bounded hbelow hbelow').andThen
    (hscan.lays.here (ParseState.placed_next h.placed) hbelow conditionStops).leads
    fun _ hstates => hscan.here hp conditionStops_significant hstates.toBeside).next hp
  unfold ParseState.caseStatement
  dsimp only
  generalize scan.here p.left conditionStops left.next = control at hcontrol ⊢
  generalize twin.here p.right conditionStops right.next = control' at hcontrol ⊢
  have hneighbours := CaseArms.neighbours_readAll p.left scan control.1 control.2.next
  rcases hcontrol with hlost | ⟨hnode, hstates⟩
  · rw [CaseArms.readAll_of_none hlost.token?]
    exact .inl hlost
  · have hread := CaseArms.alike_readAll hp hscan hstates hnode
    generalize CaseArms.readAll p.left scan control.1 control.2.next = read
      at hread hneighbours ⊢
    generalize CaseArms.readAll p.right twin control'.1 control'.2.next = other at hread ⊢
    rcases hread with hlost | halike
    · exact .inl hlost
    · have hstop : Option.Rel p.places (read.state.token?.map Token.stop)
          (other.state.token?.map Token.stop) := by
        rcases halike.states.cases hp with ⟨hleft, hright, -⟩ |
          ⟨token, mate, hleft, hright, htokens⟩
        · rw [hleft, hright]
          exact .none
        · rw [hleft, hright]
          exact .some (hp.stop htokens)
      have hnodes := hp.builds.caseStatement (h.offset hp) hstop halike.parts hneighbours.1
        hneighbours.2
      rw [Option.map_map, Option.map_map] at hnodes
      refine halike.states.meets ?_
      rw [halike.arms]
      exact hnodes

end Parallel

/-! ## Conditions -/

namespace Branch

structure Alike (p : Parallel) (branch other : Branch) : Prop where
  offset : p.places branch.offset other.offset
  condition : p.nodes branch.condition other.condition
  consequence : p.nodes branch.consequence other.consequence

variable {branch other : Branch} {branches others : List Branch}
  {otherwise? otherwise?' : Option Node}

theorem Alike.node (hp : p.Lawful) (h : Alike p branch other)
    (hrest : Option.Rel p.nodes otherwise? otherwise?') :
    p.nodes (branch.node otherwise?) (other.node otherwise?') :=
  hp.builds.branch h.offset h.condition h.consequence hrest

theorem rel_nested (hp : p.Lawful) (h : List.Forall₂ (Alike p) branches others)
    (hrest : Option.Rel p.nodes otherwise? otherwise?') :
    Option.Rel p.nodes
      (branches.foldr (fun branch otherwise? => some (branch.node otherwise?)) otherwise?)
      (others.foldr (fun branch otherwise? => some (branch.node otherwise?)) otherwise?') := by
  induction h with
  | nil => exact hrest
  | cons hbranch _ ih => exact .some (hbranch.node hp ih)

end Branch

theorem Parallel.meets_branch (hp : p.Lawful) (hscan : p.Twins bound bound' scan twin)
    (h : p.Abreast limit limit' left right) (hbelow : left.next.remaining < bound)
    (hbelow' : right.next.remaining < bound') :
    p.Meets bound bound'
      (Branch.Alike p (left.branch p.left scan).1 (right.branch p.right twin).1)
      (left.branch p.left scan).2 (right.branch p.right twin).2 := by
  have hstretch := hscan.lays.here (ParseState.placed_next h.placed) hbelow conditionStops
  have hcondition := (((h.next hp).bounded hbelow hbelow').andThen hstretch.leads
    fun _ hstates => hscan.here hp conditionStops_significant hstates.toBeside).next hp
  have hreads := hstretch.reads
  have hbelow := Nat.lt_of_le_of_lt hreads.remaining_le hbelow
  refine hcondition.andThen (hscan.lays.here hreads.placed_after hbelow bodyStops).leads
    fun hnode hstates => ?_
  exact (hscan.here hp bodyStops_significant hstates.toBeside).imp fun hconsequence =>
    ⟨h.offset hp, hnode, hconsequence⟩

namespace Branches

/-- Like branches were read, up to the same place, where a further one is looked for. -/
structure Seeking (p : Parallel) (bound bound' : Nat) (read other : Branches) : Prop where
  branches : List.Forall₂ (Branch.Alike p) read.branches other.branches
  otherwise? : Option.Rel p.nodes read.otherwise? other.otherwise?
  states : p.Abreast bound bound' read.state other.state
  settled : read.state.cursor.Settled
  settled' : other.state.cursor.Settled

structure Alike (p : Parallel) (bound bound' : Nat) (read other : Branches) : Prop where
  branches : List.Forall₂ (Branch.Alike p) read.branches other.branches
  otherwise? : Option.Rel p.nodes read.otherwise? other.otherwise?
  states : p.Abreast bound bound' read.state.next other.state.next

variable {source : List Char} {read other next : Branches} {allowElsif : Bool}

theorem remaining_step (hscan : scan.Lays source bound) (hbound : read.state.remaining < bound)
    (hplaced : read.state.cursor.Placed source)
    (h : step source scan allowElsif read = .again next) :
    next.state.remaining < read.state.remaining := by
  unfold step at h
  split at h
  · dsimp only at h
    split at h
    · cases h
    · cases h
  · rename_i hkind
    obtain ⟨token, htoken, -⟩ := Option.map_eq_some_iff.1 hkind
    have hless := ParseState.remaining_next_lt htoken
    have hreads := (ParseState.reads_branch hscan hplaced (Nat.lt_trans hless hbound)).2.1
    split at h
    · dsimp only at h
      obtain rfl := Progress.again.inj h
      exact Nat.lt_of_le_of_lt hreads.remaining_le hless
    · cases h
  · cases h

/-- Steps of two conditions: the left parse is lost, or is so when it goes on. -/
abbrev Steps (p : Parallel) (bound bound' : Nat) : Progress Branches → Progress Branches → Prop :=
  Progress.Paired (fun read => p.Lost read.state) (fun read => p.Lost read.state.next)
    (Seeking p bound bound') (Alike p bound bound')

/-- Without a further branch both go back, and go on with the token they looked at. -/
theorem Seeking.leave (h : Seeking p bound bound' read other) :
    Alike p bound bound' { read with state := read.state.previous }
      { other with state := other.state.previous } where
  branches := h.branches
  otherwise? := h.otherwise?
  states := by
    rw [ParseState.next_previous h.settled, ParseState.next_previous h.settled']
    exact h.states

theorem paired_step (hp : p.Lawful) (hscan : p.Twins bound bound' scan twin) (allowElsif : Bool)
    (h : Seeking p bound bound' read other) :
    Steps p bound bound' (step p.left scan allowElsif read)
      (step p.right twin allowElsif other) := by
  have hnext := h.states.next hp
  unfold step
  rw [h.states.kind? hp]
  split
  · dsimp only
    have hback : read.state.next.previous.next = read.state.next :=
      ParseState.next_previous (Cursor.settled_next h.settled.begun)
    have hback' : other.state.next.previous.next = other.state.next :=
      ParseState.next_previous (Cursor.settled_next h.settled'.begun)
    rcases hnext with hlost | ⟨-, hbrace⟩
    · rw [hlost.isAt]
      refine .failed ?_
      dsimp only
      rw [hback]
      exact hlost
    · rw [hbrace.isAt hp]
      split
      · have hplaced := ParseState.placed_next hbrace.placed
        have hbelow := Nat.lt_of_le_of_lt read.state.next.remaining_next_le hbrace.below
        have hbody := (hbrace.next hp).andThen (hscan.lays.here hplaced hbelow bodyStops).leads
          fun _ hstates => hscan.here hp bodyStops_significant hstates.toBeside
        rcases hbody.next hp with hlost | ⟨hnode, hstates⟩
        · exact .failed hlost
        · exact .done ⟨h.branches, .some hnode, hstates⟩
      · refine .done ⟨h.branches, h.otherwise?, ?_⟩
        dsimp only
        rw [hback, hback']
        exact hbrace
  · split
    · have hbelow := Nat.lt_of_le_of_lt read.state.remaining_next_le h.states.below
      have hbelow' := Nat.lt_of_le_of_lt other.state.remaining_next_le h.states.below'
      have hbranch := Parallel.meets_branch hp hscan h.states hbelow hbelow'
      have hsettled := (ParseState.reads_branch hscan.lays h.states.placed hbelow).2.2
      have hsettled' := (ParseState.reads_branch hscan.lays' h.states.placed' hbelow').2.2
      rcases hbranch.next hp with hlost | ⟨halike, hstates⟩
      · exact .lost hlost
      · exact .again ⟨List.rel_append h.branches (.cons halike .nil), h.otherwise?, hstates,
          hsettled, hsettled'⟩
    · exact .done h.leave
  · exact .done h.leave

/-- From the end of the left text, no branch is found. -/
theorem step_of_lost (read : Branches) (hlost : p.Lost read.state) (source : List Char)
    (scan : Scan) (allowElsif : Bool) :
    step source scan allowElsif read = .done { read with state := read.state.previous } ∧
      p.Lost read.state.previous.next := by
  refine ⟨?_, ?_⟩
  · unfold step
    rw [hlost.kind?]
  · have hsettled : read.state.cursor.Settled := by
      obtain ⟨-, behind, hcursor⟩ := hlost
      rw [hcursor]
      trivial
    rw [ParseState.next_previous hsettled]
    exact hlost

theorem alike_readAll (hp : p.Lawful) (hscan : p.Twins bound bound' scan twin)
    (allowElsif : Bool) (h : p.Abreast bound bound' left right)
    (hsettled : left.cursor.Settled) (hsettled' : right.cursor.Settled) :
    p.Lost (readAll p.left scan allowElsif left).state.next ∨
      Alike p bound bound' (readAll p.left scan allowElsif left)
        (readAll p.right twin allowElsif right) :=
  iterate_paired (fun read => read.state.remaining) (fun other => other.state.remaining)
    (fun _ _ hread => paired_step hp hscan allowElsif hread)
    (fun read hlost => ⟨_, step_of_lost read hlost p.left scan allowElsif⟩)
    (fun _ _ _ hread => remaining_step hscan.lays hread.states.below hread.states.placed)
    (fun _ _ _ hread => remaining_step hscan.lays' hread.states.below' hread.states.placed')
    ⟨[], none, left⟩ ⟨[], none, right⟩ ⟨.nil, .none, h, hsettled, hsettled'⟩
    (Nat.lt_succ_self _) (Nat.lt_succ_self _)

end Branches

/-- Conditions from the same place on are alike with all their branches. -/
theorem Parallel.meets_condition (hp : p.Lawful) (hscan : p.Twins bound bound' scan twin)
    (h : p.Abreast limit limit' left right) (hbelow : left.next.remaining < bound)
    (hbelow' : right.next.remaining < bound') (allowElsif : Bool) :
    p.Meets bound bound'
      (p.nodes (left.condition p.left scan allowElsif).1
        (right.condition p.right twin allowElsif).1)
      (left.condition p.left scan allowElsif).2.next
      (right.condition p.right twin allowElsif).2.next := by
  have hsettled := (ParseState.reads_branch hscan.lays h.placed hbelow).2.2
  have hsettled' := (ParseState.reads_branch hscan.lays' h.placed' hbelow').2.2
  have hbranch := (meets_branch hp hscan h hbelow hbelow').next hp
  unfold ParseState.condition
  dsimp only
  generalize left.branch p.left scan = branch at hsettled hbranch ⊢
  generalize right.branch p.right twin = branch' at hsettled' hbranch ⊢
  rcases hbranch with hlost | ⟨hfirst, hstates⟩
  · refine .inl ?_
    obtain ⟨hstep, hprevious⟩ :=
      Branches.step_of_lost ⟨[], none, branch.2.next⟩ hlost p.left scan allowElsif
    unfold Branches.readAll iterate
    rw [hstep]
    exact hprevious
  · rcases Branches.alike_readAll hp hscan allowElsif hstates hsettled hsettled' with
      hlost | halike
    · exact .inl hlost
    · exact halike.states.meets
        (hfirst.node hp (Branch.rel_nested hp halike.branches halike.otherwise?))

end Manifest
