import Manifest.Proofs.Parallel.Basic

/-!
# Trees with other places

A tree with its offsets, the ends of its own that nodes were given, and the types of its
parameters replaced by functions of them.  Forgetting where a tree stands is one case, and
shifting it is another.
-/

namespace Manifest

def Form.retype {ρ : Type} (type : List Char → List Char) : Form ρ → Form ρ
  | .classParam text parameter default => .classParam (type text) parameter default
  | form => form

namespace Node

mutual

def remap (place : Int → Int) (type : List Char → List Char) : Node → Node
  | ⟨offset, ownEnd?, form, children⟩ =>
      ⟨place offset, ownEnd?.map place, form.retype type, remapAll place type children⟩

def remapAll (place : Int → Int) (type : List Char → List Char) : List Node → List Node
  | [] => []
  | node :: nodes => remap place type node :: remapAll place type nodes

end

/-- The tree as it is, wherever it stands: all offsets, ends and types of parameters are the
same. -/
def forgetPlaces (node : Node) : Node :=
  node.remap (fun _ => 0) fun _ => []

/-- The tree further on in a text. -/
def shift (count : Nat) (node : Node) : Node :=
  node.remap (· + count) id

theorem remapAll_eq (place : Int → Int) (type : List Char → List Char) (nodes : List Node) :
    remapAll place type nodes = nodes.map (remap place type) := by
  induction nodes with
  | nil => rfl
  | cons node nodes ih => exact congrArg (remap place type node :: ·) ih

@[simp]
theorem remap_mk (place : Int → Int) (type : List Char → List Char) (offset : Int)
    (ownEnd? : Option Int) (form : Form Link) (children : List Node) :
    remap place type ⟨offset, ownEnd?, form, children⟩ =
      ⟨place offset, ownEnd?.map place, form.retype type, children.map (remap place type)⟩ := by
  rw [remap, remapAll_eq]

/-! ## Nothing replaced -/

theorem retype_id (form : Form Link) : form.retype id = form := by
  cases form <;> rfl

mutual

theorem remap_id : (node : Node) → node.remap id id = node
  | ⟨offset, ownEnd?, form, children⟩ => by
      rw [remap, remapAll_id children, retype_id, Option.map_id]
      rfl

theorem remapAll_id : (nodes : List Node) → remapAll id id nodes = nodes
  | [] => rfl
  | node :: nodes => by rw [remapAll, remap_id node, remapAll_id nodes]

end

/-! ## Nodes further on -/

theorem offset_shift (count : Nat) (node : Node) :
    (node.shift count).offset = node.offset + count := by
  obtain ⟨offset, ownEnd?, form, children⟩ := node
  unfold shift
  rw [remap_mk]

theorem ownLength_retype (form : Form Link) (type : List Char → List Char) :
    (form.retype type).ownLength = form.ownLength := by
  cases form <;> rfl

mutual

theorem endOffset_shift (count : Nat) :
    (node : Node) → (node.shift count).endOffset = node.endOffset + count
  | ⟨offset, ownEnd?, form, children⟩ => by
      have hleast : (ownEnd?.map (· + (count : Int))).getD
          (offset + count + (form.retype id).ownLength) =
            ownEnd?.getD (offset + form.ownLength) + count := by
        cases ownEnd? with
        | none =>
            rw [ownLength_retype]
            show offset + count + form.ownLength = offset + form.ownLength + count
            omega
        | some ownEnd => rfl
      unfold shift
      rw [remap, endOffset, endOffset, hleast]
      exact endOffsetOf_shift count _ children

theorem endOffsetOf_shift (count : Nat) (least : Int) : (nodes : List Node) →
    endOffsetOf (least + count) (remapAll (· + (count : Int)) id nodes) =
      endOffsetOf least nodes + count
  | [] => rfl
  | node :: nodes => by
      have hend := endOffset_shift count node
      unfold shift at hend
      rw [remapAll, endOffsetOf, endOffsetOf, hend]
      have hmax : max (least + count) (node.endOffset + count) =
          max least node.endOffset + count := by
        omega
      rw [hmax]
      exact endOffsetOf_shift count _ nodes

end

end Node

/-! ## Nodes that are the same once they are remapped -/

namespace Parallel

variable {p : Parallel} {place place' : Int → Int} {type type' : List Char → List Char}

/-- Nodes are compared by remapping them on both sides. -/
structure Remaps (p : Parallel) (place place' : Int → Int) (type type' : List Char → List Char) :
    Prop where
  nodes : ∀ {node other : Node},
    p.nodes node other ↔ node.remap place type = other.remap place' type'
  places : ∀ {offset offset' : Nat}, p.places offset offset' →
    ∀ more : Int, place (offset + more) = place' (offset' + more)
  offset : ∀ {token mate : Token}, p.tokens token mate → p.places token.offset mate.offset
  text : ∀ {token mate : Token}, p.tokens token mate → mate.text p.right = token.text p.left
  types : ∀ {range range' : TextRange}, p.ranges range range' →
    type (Params.typeText p.left range) = type' (Params.typeText p.right range')

theorem link_eq {node? node?' : Option Node} (hnode : Option.Rel p.nodes node? node?')
    (link : Link) :
    (node?.map fun _ => link) = node?'.map fun _ => link := by
  cases hnode <;> rfl

theorem length_eq {node? node?' : Option Node} (hnode : Option.Rel p.nodes node? node?') :
    node?.toList.length = node?'.toList.length := by
  cases hnode <;> rfl

namespace Remaps

open Node (remap)

variable (h : p.Remaps place place' type type') {nodes nodes' : List Node}
  {node? node?' : Option Node} {offset offset' : Nat}

include h

theorem place_eq (hplaces : p.places offset offset') :
    place (offset : Int) = place' (offset' : Int) := by
  have hplace := h.places hplaces 0
  rwa [Int.add_zero, Int.add_zero] at hplace

theorem map_eq (hnodes : List.Forall₂ p.nodes nodes nodes') :
    nodes.map (remap place type) = nodes'.map (remap place' type') := by
  induction hnodes with
  | nil => rfl
  | cons hnode _ ih => exact List.cons_eq_cons.2 ⟨h.nodes.1 hnode, ih⟩

theorem toList_eq (hnode : Option.Rel p.nodes node? node?') :
    node?.toList.map (remap place type) = node?'.toList.map (remap place' type') := by
  cases hnode with
  | none => rfl
  | some hnode => exact congrArg (fun node => [node]) (h.nodes.1 hnode)

theorem stop_eq {stop? stop?' : Option Nat} (hstop : Option.Rel p.places stop? stop?') :
    (stop?.map Int.ofNat).map place = (stop?'.map Int.ofNat).map place' := by
  cases hstop with
  | none => rfl
  | some hstop => exact congrArg some (h.place_eq hstop)

theorem string (raw : List Char) (hplaces : p.places offset offset') :
    (Node.string offset raw).remap place type = (Node.string offset' raw).remap place' type' := by
  unfold Node.string Node.interpolated
  rw [Node.remap_mk, Node.remap_mk, h.place_eq hplaces]
  split
  -- variables in a literal stand at distances from its quote that its text gives
  · have hvariable : ∀ reference : Reference,
        (Node.ofReference (offset + 1) reference).remap place type =
          (Node.ofReference (offset' + 1) reference).remap place' type' := by
      intro reference
      have hplace := h.places hplaces (1 + reference.position)
      unfold Node.ofReference Node.leaf
      rw [Node.remap_mk, Node.remap_mk, Int.add_assoc, hplace, Int.add_assoc]
      rfl
    have hvariables : remap place type ∘ Node.ofReference (offset + 1) =
        remap place' type' ∘ Node.ofReference (offset' + 1) := funext hvariable
    rw [List.map_map, List.map_map, hvariables]
    rfl
  · rfl

theorem builds : p.Builds where
  string := fun raw hplaces => h.nodes.2 (h.string raw hplaces)
  plainVariable := fun name hplaces => h.nodes.2 (by
    unfold Node.plainVariable Node.leaf
    rw [Node.remap_mk, Node.remap_mk, h.place_eq hplaces]
    rfl)
  plainDefinition := fun name hplaces => h.nodes.2 (by
    unfold Node.plainDefinition Node.leaf
    rw [Node.remap_mk, Node.remap_mk, h.place_eq hplaces]
    rfl)
  classRef := fun name hplaces hname => h.nodes.2 (by
    unfold Node.classRef Node.leaf
    rw [Node.remap_mk, Node.remap_mk, h.place_eq hplaces]
    simp only [List.map_cons, List.map_nil, Node.remap_mk, h.place_eq hname]
    rfl)
  functionCall := fun name hplaces hnodes => h.nodes.2 (by
    rw [Node.remap_mk, Node.remap_mk, h.place_eq hplaces, h.map_eq hnodes]
    rfl)
  typeReference := fun name hplaces hnode => h.nodes.2 (by
    rw [Node.remap_mk, Node.remap_mk, h.place_eq hplaces, h.map_eq (.cons hnode .nil)]
    rfl)
  attributeNode := fun htokens hvalue => h.nodes.2 (by
    unfold ResourceAttributes.attributeNode
    rw [Node.remap_mk, Node.remap_mk, h.place_eq (h.offset htokens), h.toList_eq hvalue,
      h.text htokens, link_eq hvalue]
    rfl)
  resource := fun kind hplaces htitle hattributes hstop => h.nodes.2 (by
    unfold Node.resource
    rw [Node.remap_mk, Node.remap_mk, List.map_append, List.map_append, h.place_eq hplaces,
      h.toList_eq htitle, h.map_eq hattributes, link_eq htitle, length_eq htitle,
      hattributes.length_eq, h.stop_eq hstop]
    rfl)
  param := fun hranges htokens hdefault => h.nodes.2 (by
    have hname := h.place_eq (h.offset htokens)
    unfold Params.param Node.plainDefinition Node.leaf
    simp only [Node.remap_mk, List.map_cons, h.toList_eq hdefault, h.text htokens, hname,
      h.place_eq hranges.1, link_eq hdefault]
    unfold Form.retype
    dsimp only
    rw [h.types hranges]
    rfl)
  classDecl := fun name hplaces hname hparams hinherits hbody _ _ _ => h.nodes.2 (by
    have hname := h.place_eq hname
    unfold Node.classDecl Node.leaf
    simp only [Node.remap_mk, List.map_append, Option.toList_some, List.map_cons, List.map_nil,
      h.place_eq hplaces, hname, h.map_eq hparams, h.toList_eq hinherits, h.toList_eq hbody,
      link_eq hinherits, hparams.length_eq]
    rfl)
  defineDecl := fun name hplaces hparams hbody _ _ => h.nodes.2 (by
    unfold Node.defineDecl
    rw [Node.remap_mk, Node.remap_mk, List.map_append, List.map_append, h.place_eq hplaces,
      h.map_eq hparams, h.toList_eq hbody, hparams.length_eq]
    rfl)
  nodeDecl := fun names hplaces hbody _ => h.nodes.2 (by
    unfold Node.nodeDecl
    rw [Node.remap_mk, Node.remap_mk, h.place_eq hplaces, h.toList_eq hbody]
    rfl)
  caseStatement := fun hplaces hstop hparts _ _ => h.nodes.2 (by
    rw [Node.remap_mk, Node.remap_mk, h.place_eq hplaces, h.stop_eq hstop, h.map_eq hparts]
    rfl)
  branch := fun hplaces hcondition hconsequence hotherwise => h.nodes.2 (by
    unfold Branch.node
    rw [Node.remap_mk, Node.remap_mk, List.map_append, List.map_append, h.place_eq hplaces,
      h.map_eq (.cons hcondition (.cons hconsequence .nil)), h.toList_eq hotherwise,
      link_eq hotherwise]
    rfl)
  blob := fun raw hplaces hstop hnodes => h.nodes.2 (by
    rw [Node.remap_mk, Node.remap_mk, h.place_eq hplaces, h.map_eq hnodes, Option.map_some,
      Option.map_some, h.place_eq hstop]
    rfl)

end Remaps

end Parallel

end Manifest
