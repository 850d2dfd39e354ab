import Manifest.Parse.Branching
import Manifest.Proofs.Bodies.Resources

/-!
# Declarations, cases and conditions with their bodies

A declaration has its body, or the missing body is reported.  The one exception is a defined type
whose name is not over before the text is.
-/

namespace Manifest

variable {source : List Char} {scan : Scan} {state first : ParseState}

/-! ## Parameters -/

namespace Params

variable {read : Params} {token : Token}

def nodes (read : Params) : List Node :=
  read.params ++ read.default?.toList

theorem bodied_param {opened : OpenParam} {default? : Option Node}
    (h : ∀ default ∈ default?.toList, default.Bodied) :
    (param source opened default?).Bodied :=
  Node.bodied_iff.2 ⟨rfl, List.forall_mem_cons.2 ⟨Node.bodied_leaf rfl, h⟩⟩

theorem bodies_close (source : List Char) (h : first.Bodies read.nodes read.state) :
    first.Bodies (read.close source).nodes read.state := by
  refine h.imp fun hnodes => ?_
  obtain ⟨hparams, hdefault⟩ := List.forall_mem_append.1 hnodes
  unfold nodes close
  rw [Option.toList_none, List.append_nil]
  dsimp only
  split
  · exact List.forall_mem_append.2 ⟨hparams,
      List.forall_mem_singleton.2 (bodied_param hdefault)⟩
  · exact hparams

theorem bodies_stepType (h : first.Bodies read.nodes read.state) :
    first.Bodies (stepType source token read).nodes (stepType source token read).state := by
  unfold stepType
  dsimp only
  split
  · exact h
  · split
    · have hclosed : first.Bodies (read.close source).nodes read.state := bodies_close source h
      exact hclosed
    · exact h

theorem bodies_stepRest (hscan : scan.Bodied) (h : first.Bodies read.nodes read.state) :
    first.Bodies (stepRest source scan token read).state.nodes
      (stepRest source scan token read).state.state := by
  unfold stepRest
  split
  · -- A new default takes the place of an older one.
    have hparams : first.Bodies read.params read.state :=
      h.imp fun hnodes => (List.forall_mem_append.1 hnodes).1
    have hdefault := hparams.append (hscan.here source paramDefaultStops read.state.next)
    dsimp only
    split
    · have hclosed : first.Bodies (close source { read with
          default? := some (scan.here source paramDefaultStops read.state.next).1
          state := (scan.here source paramDefaultStops read.state.next).2 }).nodes
          (scan.here source paramDefaultStops read.state.next).2 := bodies_close source hdefault
      exact hclosed
    · split
      · exact hdefault
      · exact hdefault
  · split
    · have hclosed : first.Bodies (read.close source).nodes read.state := bodies_close source h
      exact hclosed
    · exact h

theorem bodies_step (hscan : scan.Bodied) (h : first.Bodies read.nodes read.state) :
    first.Bodies (step source scan read).state.nodes (step source scan read).state.state := by
  unfold step
  split
  · exact h
  · split
    · exact h
    · split
      · exact bodies_stepType h
      · exact bodies_stepRest hscan h

theorem bodies_readAll (hscan : scan.Bodied) (state : ParseState) :
    state.Bodies (readAll source scan state).params (readAll source scan state).state := by
  have hclosed : state.Bodies (nodes (readAll source scan state))
      (readAll source scan state).state := by
    apply bodies_close source
    exact iterate_invariant (fun read : Params => state.Bodies read.nodes read.state)
      (fun _ hread => bodies_step hscan hread) _ _ (ParseState.bodies_nothing state)
  exact hclosed.imp fun hnodes => (List.forall_mem_append.1 hnodes).1

end Params

/-! ## Declarations -/

namespace NodeNames

theorem reported_step (source : List Char) (read : NodeNames) :
    (step source read).state.state.reported = read.state.reported := by
  unfold step
  split
  · rfl
  · split
    · rfl
    · split <;> rfl

theorem bodies_readAll (source : List Char) (state : ParseState) :
    state.Bodies [] (readAll source state).state := by
  have hreported := iterate_invariant
    (fun read : NodeNames => read.state.reported = state.reported)
    (fun read hread => (reported_step source read).trans hread) (state.remaining + 1)
    ⟨[], state⟩ rfl
  exact fun hnone => ⟨hreported.symm.trans hnone, List.forall_mem_nil _⟩

end NodeNames

namespace ParseState

/-- What is built of some nodes and a body has its bodies: without the body there is a report. -/
theorem bodies_declarationBody (build : Option Node → Node) {offset : Int} {form : Form Link}
    {nodes : List Node} (hscan : scan.Bodied) (h : first.Bodies nodes state)
    (hbuild : ∀ body, build (some body) = ⟨offset, none, form, nodes ++ [body]⟩) :
    first.Bodies [build (state.declarationBody source scan).1]
      (state.declarationBody source scan).2 := by
  unfold declarationBody
  split
  · have hbody := h.append (hscan.inside source bodyStops state)
    have hblob : (scan.inside source bodyStops state).1.isBlob = true := hscan.isBlob _ _ _
    dsimp only
    rw [hbuild]
    apply hbody.parent
    apply Node.lacksBody_of_blob
    exact ⟨_, List.mem_append_right nodes List.mem_cons_self, hblob⟩
  · dsimp only
    split
    · exact bodies_record first _ _ state
    · exact bodies_record first _ _ state

theorem bodies_paramList (source : List Char) (hscan : scan.Bodied) (state : ParseState) :
    state.Bodies (state.paramList source scan).1 (state.paramList source scan).2 := by
  unfold paramList
  split
  · exact Params.bodies_readAll hscan state
  · exact bodies_nothing state

theorem bodies_inheritance (source : List Char) (state : ParseState) :
    state.Bodies (state.inheritance source).1.toList (state.inheritance source).2 := by
  unfold inheritance
  split
  · dsimp only
    split
    · split
      · exact bodies_node (Node.bodied_classRef _ _ _) state
      · exact bodies_nothing state
    · exact bodies_nothing state
  · exact bodies_nothing state

theorem bodies_classAfterName (hscan : scan.Bodied) (offset nameOffset : Nat)
    (name : List Char) (state : ParseState) :
    state.Bodies [(state.classAfterName source scan offset nameOffset name).1]
      (state.classAfterName source scan offset nameOffset name).2 := by
  have hname : state.Bodies [Node.leaf nameOffset (.identifier name)] state.next :=
    bodies_node (Node.bodied_leaf rfl) state
  have hparams := hname.append (bodies_paramList source hscan state.next)
  have hinherits := hparams.append (bodies_inheritance source _)
  unfold classAfterName
  exact bodies_declarationBody (Node.classDecl offset (some (nameOffset, name)) _ _) hscan
    hinherits fun _ => rfl

theorem bodies_classDecl (hscan : scan.Bodied) (state : ParseState) :
    state.Bodies (state.classDecl source scan).1 (state.classDecl source scan).2 := by
  unfold classDecl
  dsimp only
  split
  · exact bodies_nothing state
  · split
    · exact bodies_classAfterName hscan _ _ _ state.next
    · exact bodies_nothing state

/-- A defined type whose name is over has its body, or the missing body is reported. -/
theorem bodies_defineDecl (hscan : scan.Bodied) {name : List Char} {cursor : Cursor}
    (hname : state.next.cursor.collectText source defineNameStops = (some name, cursor)) :
    state.Bodies [(state.defineDecl source scan).1] (state.defineDecl source scan).2 := by
  have hparams : state.Bodies _ _ :=
    bodies_paramList source hscan { state with cursor := cursor.skipTrivia }
  unfold defineDecl
  rw [hname]
  exact bodies_declarationBody (Node.defineDecl _ (some name) _) hscan hparams fun _ => rfl

/-- A defined type whose name is not over is kept without its name, and without a report. -/
theorem defineDecl_of_none {cursor : Cursor}
    (hname : state.next.cursor.collectText source defineNameStops = (none, cursor)) :
    state.defineDecl source scan =
      (Node.defineDecl (state.offset source) none [] none, { state.next with cursor }) := by
  unfold defineDecl
  rw [hname]

theorem bodies_nodeDecl (hscan : scan.Bodied) (state : ParseState) :
    state.Bodies [(state.nodeDecl source scan).1] (state.nodeDecl source scan).2 := by
  have hnames : state.Bodies [] (NodeNames.readAll source state.next).state :=
    NodeNames.bodies_readAll source state.next
  unfold nodeDecl
  exact bodies_declarationBody (Node.nodeDecl _ _) hscan hnames fun _ => rfl

end ParseState

/-! ## Case statements -/

namespace CaseArms

variable {read : CaseArms}

theorem bodies_step (hscan : scan.Bodied) (h : first.Bodies read.parts read.state) :
    first.Bodies (step source scan read).state.parts (step source scan read).state.state := by
  have harm := h.append (hscan.here source caseArmStops read.state)
  unfold step
  split
  · exact h
  · dsimp only
    split
    · exact harm
    · split
      · exact harm.append (hscan.here source bodyStops _)
      · exact harm

theorem bodies_readAll (hscan : scan.Bodied) {control : Node}
    (h : first.Bodies [control] state) :
    first.Bodies (readAll source scan control state).parts
      (readAll source scan control state).state :=
  iterate_invariant (fun read : CaseArms => first.Bodies read.parts read.state)
    (fun _ hread => bodies_step hscan hread) _ _ h

end CaseArms

theorem ParseState.bodies_caseStatement (hscan : scan.Bodied) (state : ParseState) :
    state.Bodies [(state.caseStatement source scan).1] (state.caseStatement source scan).2 := by
  have hcontrol : state.Bodies [(scan.here source conditionStops state.next).1]
      (scan.here source conditionStops state.next).2.next :=
    hscan.here source conditionStops state.next
  exact Bodies.parent (CaseArms.bodies_readAll hscan hcontrol) rfl

/-! ## Conditions -/

namespace Branch

def nodes (branch : Branch) : List Node :=
  [branch.condition, branch.consequence]

variable {branch : Branch} {otherwise? : Option Node}

theorem bodied_node (h : ∀ node ∈ branch.nodes, node.Bodied)
    (hotherwise : ∀ node ∈ otherwise?.toList, node.Bodied) :
    (branch.node otherwise?).Bodied :=
  Node.bodied_iff.2 ⟨rfl, List.forall_mem_append.2 ⟨h, hotherwise⟩⟩

theorem bodied_chain {more : List Branch}
    (hotherwise : ∀ node ∈ otherwise?.toList, node.Bodied)
    (hmore : ∀ node ∈ more.flatMap nodes, node.Bodied)
    (h : ∀ node ∈ branch.nodes, node.Bodied) : (branch.chain more otherwise?).Bodied := by
  unfold chain
  apply bodied_node h
  clear h
  induction more with
  | nil => exact hotherwise
  | cons next more ih =>
      rw [List.flatMap_cons, List.forall_mem_append] at hmore
      exact List.forall_mem_singleton.2 (bodied_node hmore.1 (ih hmore.2))

end Branch

theorem ParseState.bodies_branch (source : List Char) (hscan : scan.Bodied) (state : ParseState) :
    state.Bodies (state.branch source scan).1.nodes (state.branch source scan).2 := by
  have hcondition : state.Bodies [(scan.here source conditionStops state.next).1] _ :=
    hscan.here source conditionStops state.next
  exact hcondition.append (hscan.here source bodyStops _)

namespace Branches

variable {read : Branches} {allowElsif : Bool}

def nodes (read : Branches) : List Node :=
  read.otherwise?.toList ++ read.branches.flatMap Branch.nodes

theorem bodies_step (hscan : scan.Bodied) (h : first.Bodies read.nodes read.state) :
    first.Bodies (step source scan allowElsif read).state.nodes
      (step source scan allowElsif read).state.state := by
  unfold step
  split
  · dsimp only
    split
    · have hbranches : first.Bodies (read.branches.flatMap Branch.nodes) read.state :=
        h.imp fun hnodes => (List.forall_mem_append.1 hnodes).2
      have hall := hbranches.append (hscan.here source bodyStops read.state.next.next)
      exact hall.imp fun hnodes =>
        List.forall_mem_append.2 (List.forall_mem_append.1 hnodes).symm
    · exact h
  · split
    · have hall := h.append (ParseState.bodies_branch source hscan read.state)
      have hnodes : read.nodes ++ (read.state.branch source scan).1.nodes =
          read.otherwise?.toList ++
            (read.branches ++ [(read.state.branch source scan).1]).flatMap Branch.nodes := by
        rw [List.flatMap_append, List.flatMap_singleton, ← List.append_assoc]
        rfl
      rw [hnodes] at hall
      exact hall
    · exact h
  · exact h

theorem bodies_readAll (source : List Char) (hscan : scan.Bodied) (allowElsif : Bool)
    (state : ParseState) :
    state.Bodies (readAll source scan allowElsif state).nodes
      (readAll source scan allowElsif state).state :=
  iterate_invariant (fun read : Branches => state.Bodies read.nodes read.state)
    (fun _ hread => bodies_step hscan hread) _ _ (ParseState.bodies_nothing state)

end Branches

theorem ParseState.bodies_condition (hscan : scan.Bodied) (allowElsif : Bool)
    (state : ParseState) :
    state.Bodies [(state.condition source scan allowElsif).1]
      (state.condition source scan allowElsif).2 := by
  have hbranch : state.Bodies (state.branch source scan).1.nodes
      (state.branch source scan).2.next := bodies_branch source hscan state
  have hall := hbranch.append (Branches.bodies_readAll source hscan allowElsif _)
  refine hall.imp fun hnodes => List.forall_mem_singleton.2 ?_
  obtain ⟨hfirst, hmore⟩ := List.forall_mem_append.1 hnodes
  obtain ⟨hotherwise, hbranches⟩ := List.forall_mem_append.1 hmore
  exact Branch.bodied_chain hotherwise hbranches hfirst

end Manifest
