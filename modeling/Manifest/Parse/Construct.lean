import Manifest.Parse.TopLevel

/-!
# Reading single constructs

Each construct of the grammar can be read by itself, wherever the cursor stands.
The answer holds a node that was filled with what was read.
-/

namespace Manifest

inductive Construct where
  | manifest
  | stretch (stops : List TokenKind)
  | requirement
  | classReference (report : Bool)
  | classDecl
  /-- A class whose name is under the cursor. -/
  | classAfterName
  | defineDecl
  | nodeDecl
  | params
  | resource (type : List Char)
  | resourceAttributes (type : List Char)
  | caseStatement
  | condition (allowElsif : Bool)
  deriving DecidableEq, Repr

inductive ConstructValue where
  | nothing
  | flag (value : Bool)
  | count (value : Nat)
  deriving DecidableEq, Repr

structure ReadConstruct where
  value : ConstructValue
  node : Node
  state : ParseState

namespace ReadConstruct

/-- What was read into a stretch of tokens at the beginning of the text. -/
def into (value : ConstructValue) (nodes : List Node) (state : ParseState) : ReadConstruct :=
  ⟨value, ⟨0, none, .blob [], nodes⟩, state⟩

end ReadConstruct

namespace Construct

/-- Read a construct from the cursor on.  `valid` says whether the text still is; only a whole
manifest asks for it. -/
def read (source : List Char) (reportGap valid : Bool) (construct : Construct)
    (state : ParseState) : Except NotRequirement ReadConstruct :=
  let scan := scan source
  let offset := state.offset source
  match construct with
  | .manifest =>
      let interruption := { Interruption.never with invalid := fun _ => !valid }
      let read := TopLevel.readAll source reportGap interruption state
      .ok ⟨.nothing, read.root source, read.state⟩
  | .stretch stops =>
      let (node, state) := scan offset stops state
      .ok (.into .nothing [node] state)
  | .requirement => do
      let (node, consumed, state) ← state.requirement source scan
      return .into (.flag consumed) [node] state
  | .classReference report =>
      let (reference?, state) := state.classReference source report
      .ok (.into (.flag reference?.isNone) reference?.toList state)
  | .classDecl =>
      let (nodes, state) := state.classDecl source scan
      .ok (.into .nothing nodes state)
  | .classAfterName =>
      let (node, state) := state.classAfterName source scan offset offset (state.text source)
      .ok ⟨.nothing, node, state⟩
  | .defineDecl =>
      let (node, state) := state.defineDecl source scan
      .ok (.into .nothing [node] state)
  | .nodeDecl =>
      let (node, state) := state.nodeDecl source scan
      .ok (.into .nothing [node] state)
  | .params =>
      let read := Params.readAll source scan state
      .ok ⟨.count read.params.length, Node.classDecl offset none read.params none none, read.state⟩
  | .resource type =>
      let (nodes, state) := state.resource source scan type offset
      .ok (.into .nothing nodes state)
  | .resourceAttributes type =>
      let (node, state) := state.resourceBody source scan type offset none
      .ok ⟨.nothing, node, state⟩
  | .caseStatement =>
      let (node, state) := state.caseStatement source scan
      .ok (.into .nothing [node] state)
  | .condition allowElsif =>
      let (node, state) := state.condition source scan allowElsif
      .ok (.into .nothing [node] state)

end Construct

end Manifest
