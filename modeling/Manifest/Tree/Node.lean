import Manifest.Tree.Interpolation
import Manifest.Tree.Kind
import Manifest.Tree.Quotation

/-!
# The syntax tree

A node has an offset, perhaps an end of its own, a form and children.  The form
says what the node stands for; where it speaks of another node, it does so by a
link to a child.  The tree keeps all that was recognised, and the rest as raw text.
-/

namespace Manifest

/-- What a node stands for, and what is known of it beyond its children.  Other nodes are
referred to by values of `ρ`. -/
inductive Form (ρ : Type) where
  | element (kind : ElementKind)
  /-- A stretch of tokens; `raw` holds those that nothing else was made of. -/
  | blob (raw : List (List Char))
  | identifier (name : List Char)
  /-- A variable; in a string it is spelled longer than its name.  The length stays when the
  variable is renamed. -/
  | variable (name : List Char) (length : Int)
  /-- A variable that is given a value; its length stays too. -/
  | variableDefinition (name : List Char) (length : Int)
  | string (raw : List Char)
  | classRef (name : Option ρ)
  | typeReference (name : List Char)
  | functionCall (name : List Char)
  | resource (type : List Char) (title : Option ρ) (attributes : List ρ)
  | resourceAttribute (name : List Char) (value : Option ρ)
  | classParam (type : List Char) (parameter : ρ) (default : Option ρ)
  | classDecl (name : Option ρ) (params : List ρ) (inherits : Option ρ)
  | defineDecl (name : Option (List Char)) (params : List ρ)
  | nodeDecl (names : List (List Char))
  | caseStmt (control : Option ρ) (cases : List (ρ × ρ))
  | condition (test consequence otherwise : Option ρ)
  deriving DecidableEq, Repr

namespace Form

variable {ρ σ : Type}

def map (f : ρ → σ) : Form ρ → Form σ
  | .element kind => .element kind
  | .blob raw => .blob raw
  | .identifier name => .identifier name
  | .variable name length => .variable name length
  | .variableDefinition name length => .variableDefinition name length
  | .string raw => .string raw
  | .classRef name => .classRef (name.map f)
  | .typeReference name => .typeReference name
  | .functionCall name => .functionCall name
  | .resource type title attributes => .resource type (title.map f) (attributes.map f)
  | .resourceAttribute name value => .resourceAttribute name (value.map f)
  | .classParam type parameter default => .classParam type (f parameter) (default.map f)
  | .classDecl name params inherits => .classDecl (name.map f) (params.map f) (inherits.map f)
  | .defineDecl name params => .defineDecl name (params.map f)
  | .nodeDecl names => .nodeDecl names
  | .caseStmt control cases =>
      .caseStmt (control.map f) (cases.map fun (arm, body) => (f arm, f body))
  | .condition test consequence otherwise =>
      .condition (test.map f) (consequence.map f) (otherwise.map f)

def kind : Form ρ → ElementKind
  | .element kind => kind
  | .blob _ => .blob
  | .identifier _ => .identifier
  | .variable _ _ => .variable
  | .variableDefinition _ _ => .variableDefinition
  | .string _ => .string
  | .classRef _ => .classRef
  | .typeReference _ => .typeReference
  | .functionCall _ => .functionCall
  | .resource _ _ _ => .resource
  | .resourceAttribute _ _ => .resourceAttribute
  | .classParam _ _ _ => .classParam
  | .classDecl _ _ _ => .classDecl
  | .defineDecl _ _ => .defineDecl
  | .nodeDecl _ => .nodeDecl
  | .caseStmt _ _ => .caseStmt
  | .condition _ _ _ => .condition

def name? : Form ρ → Option (List Char)
  | .identifier name => some name
  | .variable name _ => some name
  | .variableDefinition name _ => some name
  | .typeReference name => some name
  | .functionCall name => some name
  | .resourceAttribute name _ => some name
  | .defineDecl name _ => name
  | _ => none

def stringValue? : Form ρ → Option (List Char)
  | .string raw => some (Quotation.value raw)
  | _ => none

/-- How much text a form takes by itself. -/
def ownLength : Form ρ → Int
  | .identifier name => name.length
  | .variable _ length => length
  | .variableDefinition _ length => length
  | .string raw => raw.length
  | .typeReference name => name.length
  | .functionCall name => name.length
  | .resource type _ _ => type.length
  | .resourceAttribute name _ => name.length
  | _ => 0

def joinNames (names : List (List Char)) : List Char :=
  [',', ' '].intercalate names

def isBlob : Form ρ → Bool
  | .blob _ => true
  | _ => false

end Form

inductive Link where
  /-- The child at an index. -/
  | child (index : Nat)
  /-- A node that is no child of this one; its name and its value as a string are known. -/
  | detached (name? stringValue? : Option (List Char))
  deriving DecidableEq, Repr

structure Node where
  offset : Int
  /-- Where the node ends at least, if that was said. -/
  ownEnd? : Option Int
  form : Form Link
  children : List Node

namespace Node

def kind (node : Node) : ElementKind :=
  node.form.kind

def linkedName? (node : Node) : Link → Option (List Char)
  | .child index => node.children[index]?.bind fun child => child.form.name?
  | .detached name? _ => name?

def linkedString? (node : Node) : Link → Option (List Char)
  | .child index => node.children[index]?.bind fun child => child.form.stringValue?
  | .detached _ stringValue? => stringValue?

def label? (node : Node) : Option (List Char) :=
  match node.form with
  | .string raw => some (Quotation.value raw)
  | .classRef name => name.bind node.linkedName?
  | .resource type _ _ => some type
  | .classParam type parameter _ =>
      some (type ++ ' ' :: (node.linkedName? parameter).getD [])
  | .classDecl name _ _ => name.bind node.linkedName?
  | .nodeDecl names => some (Form.joinNames names)
  | form => form.name?

/-- Where a node ends without its children. -/
def leastEnd (node : Node) : Int :=
  node.ownEnd?.getD (node.offset + node.form.ownLength)

mutual

/-- Where a node ends: nowhere before one of its children. -/
def endOffset : Node → Int
  | ⟨offset, ownEnd?, form, children⟩ =>
      endOffsetOf (ownEnd?.getD (offset + form.ownLength)) children

def endOffsetOf (least : Int) : List Node → Int
  | [] => least
  | node :: nodes => endOffsetOf (max least node.endOffset) nodes

end

def contains (node : Node) (offset : Int) : Bool :=
  decide (node.offset ≤ offset ∧ offset < node.endOffset)

def isBlob (node : Node) : Bool :=
  node.form.isBlob

def isEmptyBlob (node : Node) : Bool :=
  match node.form with
  | .blob raw => raw.isEmpty && node.children.isEmpty
  | _ => false

def leaf (offset : Int) (form : Form Link) : Node :=
  ⟨offset, none, form, []⟩

def plainVariable (offset : Int) (name : List Char) : Node :=
  leaf offset (.variable name name.length)

def plainDefinition (offset : Int) (name : List Char) : Node :=
  leaf offset (.variableDefinition name name.length)

/-- The variable of a reference in a string whose inner text begins at `start`. -/
def ofReference (start : Int) (reference : Reference) : Node :=
  leaf (start + reference.position) (.variable ('$' :: reference.name) reference.length)

/-- The variables that a literal mentions; only double quotes let it mention any. -/
def interpolated (offset : Int) (raw : List Char) : List Node :=
  if Quotation.isQuotedBy '"' raw then
    (Reference.findAll (Quotation.inner raw)).map (ofReference (offset + 1))
  else
    []

def string (offset : Int) (raw : List Char) : Node :=
  ⟨offset, none, .string raw, interpolated offset raw⟩

def classRef (offset nameOffset : Int) (name : List Char) : Node :=
  ⟨offset, none, .classRef (some (.child 0)), [leaf nameOffset (.identifier name)]⟩

/-- The child that is the body of a declaration: the last stretch of tokens of a declaration
with parameters, the first one of a node declaration. -/
def bodyIndex? (node : Node) : Option Nat :=
  match node.form with
  | .classDecl _ _ _ | .defineDecl _ _ =>
      (node.children.zipIdx.filter fun (child, _) => child.isBlob).getLast?.map (·.2)
  | .nodeDecl _ => node.children.findIdx? isBlob
  | _ => none

def body? (node : Node) : Option Node := do
  node.children[← node.bodyIndex?]?

end Node

end Manifest
