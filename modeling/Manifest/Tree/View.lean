import Manifest.Text.TextRange
import Manifest.Tree.Node

/-!
# Views of a tree

Walking a tree, finding what stands at an offset, the outline of its
declarations, and its listing.
-/

namespace Manifest

namespace Node

mutual

def walk : Node → List Node
  | ⟨offset, ownEnd?, form, children⟩ => ⟨offset, ownEnd?, form, children⟩ :: walkAll children

def walkAll : List Node → List Node
  | [] => []
  | node :: nodes => walk node ++ walkAll nodes

end

mutual

/-- From a node down to the deepest node at an offset, always into the first child that holds
it.  The deepest node comes first, then the nodes above it. -/
def pathBelow (offset : Int) (above : List Node) : Node → List Node
  | ⟨start, ownEnd?, form, children⟩ =>
      pathAmong offset (⟨start, ownEnd?, form, children⟩ :: above) children

def pathAmong (offset : Int) (above : List Node) : List Node → List Node
  | [] => above
  | node :: nodes =>
      if node.contains offset then pathBelow offset above node else pathAmong offset above nodes

end

def pathAt (root : Node) (offset : Int) : List Node :=
  if root.contains offset then pathBelow offset [] root else []

def elementAt (root : Node) (offset : Int) : Option Node :=
  (root.pathAt offset).head?

def childrenOfKind (node : Node) (kind : ElementKind) : List Node :=
  node.children.filter fun child => child.kind == kind

def render (node : Node) : String :=
  let base := node.kind.title ++
    "(" ++ toString node.offset ++ ".." ++ toString node.endOffset ++ ")"
  match node.label? with
  | some label => base ++ "[" ++ String.ofList label ++ "]"
  | none => base

/-- The line of a node in a tree listing: raw text follows the node that keeps it. -/
def line (node : Node) : String :=
  match node.form with
  | .blob (text :: more) =>
      node.render ++ " raw=" ++ Quoted.render ([' '].intercalate (text :: more))
  | _ => node.render

mutual

def linesAt (indent : String) (depth : Nat) : Node → List String
  | ⟨offset, ownEnd?, form, children⟩ =>
      (String.join (List.replicate depth indent) ++ line ⟨offset, ownEnd?, form, children⟩) ::
        linesOfAll indent (depth + 1) children

def linesOfAll (indent : String) (depth : Nat) : List Node → List String
  | [] => []
  | node :: nodes => linesAt indent depth node ++ linesOfAll indent depth nodes

end

def format (indent : String) (root : Node) : String :=
  "\n".intercalate (linesAt indent 0 root)

end Node

structure OutlineEntry where
  kind : ElementKind
  name : List Char
  range : TextRange
  children : List OutlineEntry

namespace Node

def anonymous : List Char :=
  "<anonymous>".toList

/-- The name of a declaration in an outline; a resource is named with its title, where that
is a string. -/
def outlineName (node : Node) : List Char :=
  match node.form with
  | .classDecl (some name) _ _ => (node.linkedName? name).getD []
  | .defineDecl (some name) _ => name
  | .nodeDecl names => Form.joinNames names
  | .resource type title _ =>
      match title.bind node.linkedString? with
      | some value => type ++ '[' :: value ++ [']']
      | none => type
  | _ => anonymous

mutual

/-- The outline of a tree: its root, if that is outlined, with what lies below it. -/
def outlineEntries : Node → Except BoundsError (List OutlineEntry)
  | ⟨offset, ownEnd?, form, children⟩ => do
      let node : Node := ⟨offset, ownEnd?, form, children⟩
      let nested ← outlineOfAll children
      if form.kind.isOutlined then
        let range ← TextRange.ofBounds offset node.endOffset
        return [⟨form.kind, node.outlineName, range, nested⟩]
      else
        return nested

def outlineOfAll : List Node → Except BoundsError (List OutlineEntry)
  | [] => return []
  | node :: nodes => do
      let entries ← outlineEntries node
      let more ← outlineOfAll nodes
      return entries ++ more

end

def outline (root : Node) : Except BoundsError (List OutlineEntry) :=
  outlineOfAll root.children

end Node

mutual

def OutlineEntry.lines (depth : Nat) : OutlineEntry → List String
  | ⟨kind, name, range, children⟩ =>
      (String.join (List.replicate depth "  ") ++ kind.name ++ " " ++ String.ofList name ++
        " (" ++ toString range.start ++ ".." ++ toString range.stop ++ ")") ::
        OutlineEntry.linesOfAll (depth + 1) children

def OutlineEntry.linesOfAll (depth : Nat) : List OutlineEntry → List String
  | [] => []
  | entry :: entries => OutlineEntry.lines depth entry ++ OutlineEntry.linesOfAll depth entries

end

end Manifest
