import Manifest.Proofs.Tree.Links

/-!
# Declarations and their bodies

As long as a parse reports nothing, the declarations that it reads have their bodies.  A stretch
of a parse carries that on: if nothing is reported up to its end, nothing was before it, and the
declarations that are read in it have their bodies.
-/

namespace Manifest

/-! ## Declarations and their bodies -/

namespace Node

def lacksBody (node : Node) : Bool :=
  match node.form with
  | .classDecl _ _ _ | .defineDecl _ _ | .nodeDecl _ => node.body?.isNone
  | _ => false

/-- All declarations in a tree have their bodies. -/
def Bodied (node : Node) : Prop :=
  ∀ element ∈ node.walk, element.lacksBody = false

variable {node : Node} {offset : Int} {ownEnd? : Option Int} {form : Form Link}
  {children nodes : List Node}

theorem bodied_iff :
    Bodied ⟨offset, ownEnd?, form, children⟩ ↔
      lacksBody ⟨offset, ownEnd?, form, children⟩ = false ∧ ∀ child ∈ children, child.Bodied :=
  forall_mem_walk

theorem bodied_leaf (h : lacksBody (leaf offset form) = false) : Bodied (leaf offset form) :=
  bodied_iff.2 ⟨h, fun _ hchild => by cases hchild⟩

theorem bodied_classRef (offset nameOffset : Int) (name : List Char) :
    Bodied (classRef offset nameOffset name) := by
  refine bodied_iff.2 ⟨rfl, fun child hchild => ?_⟩
  rw [List.mem_singleton.1 hchild]
  exact bodied_leaf rfl

theorem bodied_string (offset : Int) (raw : List Char) : Bodied (string offset raw) := by
  refine bodied_iff.2 ⟨rfl, fun child hchild => ?_⟩
  unfold interpolated at hchild
  split at hchild
  · obtain ⟨reference, -, rfl⟩ := List.mem_map.1 hchild
    exact bodied_leaf rfl
  · cases hchild

theorem lacksBody_of_blob (h : ∃ child ∈ node.children, child.isBlob = true) :
    node.lacksBody = false := by
  obtain ⟨blob, hmem, hblob⟩ := h
  have hlast : (((node.children.zipIdx.filter (·.1.isBlob)).getLast?.map (·.2)).bind
      fun index => node.children[index]?).isNone = false := by
    obtain ⟨index, hindex⟩ := List.mem_iff_getElem?.1 hmem
    have hpair : (blob, index) ∈ node.children.zipIdx.filter (·.1.isBlob) :=
      List.mem_filter.2 ⟨List.mem_zipIdx_iff_getElem?.2 hindex, hblob⟩
    obtain ⟨pair, hpair⟩ :=
      Option.isSome_iff_exists.1 (List.getLast?_isSome.2 (List.ne_nil_of_mem hpair))
    have hfound : node.children[pair.2]? = some pair.1 :=
      List.mem_zipIdx_iff_getElem?.1 (List.mem_filter.1 (List.mem_of_getLast? hpair)).1
    rw [hpair, Option.map_some, Option.bind_some, hfound]
    rfl
  have hfirst : ((node.children.findIdx? isBlob).bind
      fun index => node.children[index]?).isNone = false := by
    obtain ⟨index, hindex⟩ := Option.isSome_iff_exists.1
      (List.findIdx?_isSome.trans (List.any_eq_true.2 ⟨blob, hmem, hblob⟩))
    obtain ⟨hlt, -⟩ := List.findIdx?_eq_some_iff_getElem.1 hindex
    rw [hindex, Option.bind_some, List.getElem?_eq_getElem hlt]
    rfl
  rcases node with ⟨offset, ownEnd?, form, children⟩
  unfold lacksBody
  cases form with
  | classDecl name params inherits => exact hlast
  | defineDecl name params => exact hlast
  | nodeDecl names => exact hfirst
  | _ => rfl

end Node

/-! ## Stretches without a report -/

namespace ParseState

variable {state middle after : ParseState} {nodes others : List Node} {node : Node}

/-- If nothing is reported up to `after`, nothing was before, and all declarations in the nodes
that were read in between have their bodies. -/
def Bodies (state : ParseState) (nodes : List Node) (after : ParseState) : Prop :=
  after.reported = [] → state.reported = [] ∧ ∀ node ∈ nodes, node.Bodied

theorem bodies_nothing (state : ParseState) : state.Bodies [] state :=
  fun hnone => ⟨hnone, List.forall_mem_nil _⟩

theorem bodies_node (hnode : node.Bodied) (state : ParseState) : state.Bodies [node] state :=
  fun hnone => ⟨hnone, List.forall_mem_singleton.2 hnode⟩

/-- Behind a report nothing is left to be said. -/
theorem bodies_record (state : ParseState) (nodes : List Node) (diagnostic : Diagnostic)
    (after : ParseState) : state.Bodies nodes (after.record diagnostic) := by
  intro hnone
  unfold record at hnone
  split at hnone
  · rename_i hreported
    split at hnone
    · rw [hreported] at hnone
      cases hnone
    · cases hnone
  · cases hnone

theorem Bodies.append (h : state.Bodies nodes middle) (h' : middle.Bodies others after) :
    state.Bodies (nodes ++ others) after := by
  intro hnone
  obtain ⟨hmiddle, hothers⟩ := h' hnone
  obtain ⟨hstate, hnodes⟩ := h hmiddle
  exact ⟨hstate, List.forall_mem_append.2 ⟨hnodes, hothers⟩⟩

theorem Bodies.concat (h : state.Bodies nodes after) (hnode : node.Bodied) :
    state.Bodies (nodes ++ [node]) after :=
  h.append (bodies_node hnode after)

theorem Bodies.imp (h : state.Bodies nodes after)
    (hnodes : (∀ node ∈ nodes, node.Bodied) → ∀ node ∈ others, node.Bodied) :
    state.Bodies others after :=
  fun hnone => (h hnone).imp_right hnodes

/-- A node that lacks no body itself holds the bodies of its children. -/
theorem Bodies.parent {offset : Int} {ownEnd? : Option Int} {form : Form Link}
    (h : state.Bodies nodes after)
    (hnode : Node.lacksBody ⟨offset, ownEnd?, form, nodes⟩ = false) :
    state.Bodies [⟨offset, ownEnd?, form, nodes⟩] after :=
  h.imp fun hnodes => List.forall_mem_singleton.2 (Node.bodied_iff.2 ⟨hnode, hnodes⟩)

end ParseState

/-! ## Scans -/

structure Scan.Bodied (scan : Scan) : Prop where
  isBlob : ∀ offset stops state, (scan offset stops state).1.isBlob = true
  bodies : ∀ offset stops (state : ParseState),
    state.Bodies [(scan offset stops state).1] (scan offset stops state).2

namespace Scan

variable {scan : Scan} {source : List Char}

theorem Bodied.here (h : scan.Bodied) (source : List Char) (stops : List TokenKind)
    (state : ParseState) :
    state.Bodies [(scan.here source stops state).1] (scan.here source stops state).2 :=
  h.bodies _ stops state

theorem Bodied.inside (h : scan.Bodied) (source : List Char) (stops : List TokenKind)
    (state : ParseState) :
    state.Bodies [(scan.inside source stops state).1] (scan.inside source stops state).2 :=
  h.bodies _ stops state.moveNext

end Scan

end Manifest
