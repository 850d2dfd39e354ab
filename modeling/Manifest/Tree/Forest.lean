import Manifest.Tree.Node

/-!
# Forests under construction

Elements that are made one by one and moved about.  Each element knows its
parent and its children, children stand in the order of their offsets, and a
move keeps both sides in step.  A finished element is read off as a node.
-/

namespace Manifest

/-- An element of a forest; elements refer to each other by number. -/
structure Element where
  offset : Int
  /-- Where the element ends at least, if that was said. -/
  ownEnd? : Option Int
  form : Form Nat
  parent? : Option Nat
  children : List Nat
  deriving DecidableEq, Repr

/-- Elements, each with the number of its place. -/
structure Forest where
  elements : List Element
  deriving DecidableEq, Repr

namespace Forest

def empty : Forest :=
  ⟨[]⟩

def size (forest : Forest) : Nat :=
  forest.elements.length

def get? (forest : Forest) (id : Nat) : Option Element :=
  forest.elements[id]?

def modify (forest : Forest) (id : Nat) (change : Element → Element) : Forest :=
  ⟨forest.elements.modify id change⟩

def offsetOf (forest : Forest) (id : Nat) : Int :=
  ((forest.get? id).map Element.offset).getD 0

def parentOf? (forest : Forest) (id : Nat) : Option Nat :=
  (forest.get? id).bind Element.parent?

def childrenOf (forest : Forest) (id : Nat) : List Nat :=
  ((forest.get? id).map Element.children).getD []

/-- Put an element before the first one of a greater offset. -/
def insertByOffset (offsetOf : Nat → Int) (id : Nat) : List Nat → List Nat
  | [] => [id]
  | other :: others =>
      if offsetOf id < offsetOf other then
        id :: other :: others
      else
        other :: insertByOffset offsetOf id others

def detach (forest : Forest) (id : Nat) : Forest :=
  match forest.parentOf? id with
  | none => forest
  | some parent =>
      (forest.modify parent fun element =>
        { element with children := element.children.erase id }).modify id fun element =>
          { element with parent? := none }

def attach (forest : Forest) (id parent : Nat) : Forest :=
  let offsetOf := forest.offsetOf
  (forest.modify id fun element => { element with parent? := some parent }).modify parent
    fun element => { element with children := insertByOffset offsetOf id element.children }

/-- Give an element another parent, or none.  An element that already has that parent stays
where it is. -/
def setParent (forest : Forest) (id : Nat) (parent? : Option Nat) : Forest :=
  if forest.parentOf? id = parent? then
    forest
  else
    match parent? with
    | none => forest.detach id
    | some parent => (forest.detach id).attach id parent

def setForm (forest : Forest) (id : Nat) (change : Form Nat → Form Nat) : Forest :=
  forest.modify id fun element => { element with form := change element.form }

def add (forest : Forest) (offset : Int) (form : Form Nat) (parent? : Option Nat) : Forest :=
  let added : Forest := ⟨forest.elements ++ [⟨offset, none, form, none, []⟩]⟩
  added.setParent forest.size parent?

def addReferences (forest : Forest) (id : Nat) (start : Int) (references : List Reference) :
    Forest :=
  references.foldl
    (fun forest reference =>
      forest.add (start + reference.position)
        (.variable ('$' :: reference.name) reference.length) (some id))
    forest

/-- Make an element.  A string literal gets the variables that it mentions, and a parameter takes
its variable as a child. -/
def create (forest : Forest) (offset : Int) (form : Form Nat) (parent? : Option Nat) : Forest :=
  let id := forest.size
  let added := forest.add offset form parent?
  match form with
  | .string raw =>
      if Quotation.isQuotedBy '"' raw then
        added.addReferences id (offset + 1) (Reference.findAll (Quotation.inner raw))
      else
        added
  | .classParam _ parameter _ => added.setParent parameter (some id)
  | _ => added

inductive Edit where
  | create (offset : Int) (form : Form Nat) (parent? : Option Nat)
  | setParent (id : Nat) (parent? : Option Nat)
  | setEnd (id : Nat) (stop : Int)
  | appendRaw (id : Nat) (text : List Char)
  | rename (id : Nat) (name : List Char)
  | setNodeNames (id : Nat) (names : List (List Char))
  | setName (id name : Nat)
  | setTitle (id title : Nat)
  | addAttribute (id added : Nat)
  | setValue (id value : Nat)
  | setDefault (id default : Nat)
  | setInherits (id parent : Nat)
  | setParams (id : Nat) (params : List Nat)
  | addCase (id arm body : Nat)
  deriving DecidableEq, Repr

end Forest

namespace Form

def appendRaw (text : List Char) : Form Nat → Form Nat
  | .blob raw => .blob (raw ++ [text])
  | form => form

def rename (name : List Char) : Form Nat → Form Nat
  | .identifier _ => .identifier name
  | .variable _ length => .variable name length
  | .variableDefinition _ length => .variableDefinition name length
  | .typeReference _ => .typeReference name
  | .functionCall _ => .functionCall name
  | .resourceAttribute _ value => .resourceAttribute name value
  | .defineDecl _ params => .defineDecl (some name) params
  | form => form

def setNodeNames (names : List (List Char)) : Form Nat → Form Nat
  | .nodeDecl _ => .nodeDecl names
  | form => form

def setName (id : Nat) : Form Nat → Form Nat
  | .classRef _ => .classRef (some id)
  | .classDecl _ params inherits => .classDecl (some id) params inherits
  | form => form

def setTitle (id : Nat) : Form Nat → Form Nat
  | .resource type _ attributes => .resource type (some id) attributes
  | form => form

def addAttribute (id : Nat) : Form Nat → Form Nat
  | .resource type title attributes => .resource type title (attributes ++ [id])
  | form => form

def setValue (id : Nat) : Form Nat → Form Nat
  | .resourceAttribute name _ => .resourceAttribute name (some id)
  | form => form

def setDefault (id : Nat) : Form Nat → Form Nat
  | .classParam type parameter _ => .classParam type parameter (some id)
  | form => form

def setInherits (id : Nat) : Form Nat → Form Nat
  | .classDecl name params _ => .classDecl name params (some id)
  | form => form

def setParams (ids : List Nat) : Form Nat → Form Nat
  | .classDecl name _ inherits => .classDecl name ids inherits
  | .defineDecl name _ => .defineDecl name ids
  | form => form

def addCase (arm body : Nat) : Form Nat → Form Nat
  | .caseStmt control cases => .caseStmt control (cases ++ [(arm, body)])
  | form => form

end Form

namespace Forest

/-- Take an element as a child, and refer to it from the form. -/
def adopt (forest : Forest) (id child : Nat) (change : Form Nat → Form Nat) : Forest :=
  (forest.setParent child (some id)).setForm id change

/-- The forest after an edit.  Parameters and arms are referred to without becoming children. -/
def apply (forest : Forest) : Edit → Forest
  | .create offset form parent? => forest.create offset form parent?
  | .setParent id parent? => forest.setParent id parent?
  | .setEnd id stop => forest.modify id fun element => { element with ownEnd? := some stop }
  | .appendRaw id text => forest.setForm id (Form.appendRaw text)
  | .rename id name => forest.setForm id (Form.rename name)
  | .setNodeNames id names => forest.setForm id (Form.setNodeNames names)
  | .setName id name => forest.adopt id name (Form.setName name)
  | .setTitle id title => forest.adopt id title (Form.setTitle title)
  | .addAttribute id added => forest.adopt id added (Form.addAttribute added)
  | .setValue id value => forest.adopt id value (Form.setValue value)
  | .setDefault id default => forest.adopt id default (Form.setDefault default)
  | .setInherits id parent => forest.adopt id parent (Form.setInherits parent)
  | .setParams id params => forest.setForm id (Form.setParams params)
  | .addCase id arm body => forest.setForm id (Form.addCase arm body)

def link (forest : Forest) (children : List Nat) (id : Nat) : Link :=
  match children.idxOf? id with
  | some index => .child index
  | none =>
      let form? := (forest.get? id).map Element.form
      .detached (form?.bind Form.name?) (form?.bind Form.stringValue?)

def nodeToDepth? (forest : Forest) : Nat → Nat → Option Node
  | 0, _ => none
  | depth + 1, id => do
      let element ← forest.get? id
      return ⟨element.offset, element.ownEnd?, element.form.map (forest.link element.children),
        element.children.filterMap (forest.nodeToDepth? depth)⟩

/-- The node of an element.  A row of parents is not longer than there are elements, unless it goes
in a circle; a circle is cut after one round. -/
def node? (forest : Forest) (id : Nat) : Option Node :=
  forest.nodeToDepth? (forest.size + 1) id

def ancestorsUpTo (forest : Forest) : Nat → Nat → List Nat
  | 0, _ => []
  | count + 1, id =>
      match forest.parentOf? id with
      | some parent => parent :: forest.ancestorsUpTo count parent
      | none => []

def ancestors (forest : Forest) (id : Nat) : List Nat :=
  forest.ancestorsUpTo forest.size id

def roots (forest : Forest) : List Nat :=
  (List.range forest.size).filter fun id => (forest.parentOf? id).isNone

end Forest

end Manifest
