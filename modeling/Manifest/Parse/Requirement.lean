import Manifest.Parse.Iteration
import Manifest.Parse.State

/-!
# Class references and requirements

`Class['name']`, and the lists of names after `include`, `require` and `contain`:
bare names, strings and class references, with or without brackets around them.
-/

namespace Manifest

def classTypeName : List Char :=
  "Class".toList

def indexStops : List TokenKind :=
  [.rightBracket]

def requirementKinds : List TokenKind :=
  [.fnInclude, .fnRequire, .fnContain]

def requirementNameKinds : List TokenKind :=
  [.identifier, .string]

structure NotRequirement where
  deriving DecidableEq, Repr

def NotRequirement.message (_ : NotRequirement) : String :=
  ""

namespace ParseState

def malformedReference (source : List Char) (report : Bool) (state : ParseState) :
    Option Node × ParseState :=
  (none, if report then state.reportHere source .malformedClassReference else state)

def quotedClassRef (source : List Char) (token : Token) : Node :=
  Node.classRef token.offset (token.offset + 1 : Nat) (Quotation.unquote (token.text source))

/-- Read `Class['name']` from `Class` on.  The cursor ends on the closing bracket, or on the
first token that does not fit; then there is no reference. -/
def classReference (source : List Char) (report : Bool) (state : ParseState) :
    Option Node × ParseState :=
  let bracket := state.next
  if bracket.isAt .leftBracket then
    let name := bracket.next
    match name.token? with
    | some token =>
        if token.kind = .string then
          let closing := name.next
          if closing.isAt .rightBracket then
            (some (quotedClassRef source token), closing)
          else
            closing.malformedReference source report
        else
          name.malformedReference source report
    | none => name.malformedReference source report
  else
    bracket.malformedReference source report

end ParseState

structure RequirementNames where
  names : List Node
  state : ParseState

namespace RequirementNames

def afterName (names : List Node) (state : ParseState) : Progress RequirementNames :=
  let following := state.next
  if following.isAt .comma then .again ⟨names, following.next⟩ else .done ⟨names, following⟩

/-- Read `Class`.  A malformed reference is reported, and its index is kept as a stretch of
tokens; without an index the list ends. -/
def ofClassType (source : List Char) (scan : Scan) (read : RequirementNames) :
    Progress RequirementNames :=
  match read.state.classReference source true with
  | (some reference, state) => afterName (read.names ++ [reference]) state
  | (none, failed) =>
      let bracket := ParseState.next { failed with cursor := read.state.cursor }
      if bracket.isAt .leftBracket then
        let (index, state) := scan.inside source indexStops bracket
        afterName (read.names ++ [index]) state
      else
        .done ⟨read.names, bracket⟩

def step (source : List Char) (scan : Scan) (read : RequirementNames) :
    Progress RequirementNames :=
  match read.state.token? with
  | none => .done read
  | some token =>
      if token.kind = .string then
        afterName (read.names ++ [ParseState.quotedClassRef source token]) read.state
      else if token.kind = .identifier then
        if token.text source = classTypeName then
          ofClassType source scan read
        else
          afterName
            (read.names ++ [Node.classRef token.offset token.offset (token.text source)])
            read.state
      else
        .done read

def readAll (source : List Char) (scan : Scan) (state : ParseState) : RequirementNames :=
  iterate (step source scan) (state.remaining + 1) ⟨[], state⟩

end RequirementNames

namespace ParseState

/-- The bracket that closes a list of names. -/
def listClosing? : TokenKind → Option TokenKind
  | .leftBracket => some .rightBracket
  | .leftParen => some .rightParen
  | _ => none

/-- The names after the opening bracket of a list.  What is left before the closing bracket is
kept as a stretch of tokens. -/
def bracketedNames (source : List Char) (scan : Scan) (closing : TokenKind)
    (state : ParseState) : List Node × ParseState :=
  let read := RequirementNames.readAll source scan state.next
  if !read.state.isAt closing && read.state.token?.isSome then
    let (rest, state) := scan.here source [closing] read.state
    (read.names ++ [rest], state)
  else
    (read.names, read.state)

/-- The names of a requirement whose word is under the cursor, and whether the cursor ends on
a token that belongs to it. -/
def requirementNames (source : List Char) (scan : Scan) (state : ParseState) :
    List Node × Bool × ParseState :=
  let following := state.next
  match following.kind? with
  | none => ([], false, following)
  | some kind =>
      if requirementNameKinds.contains kind then
        let read := RequirementNames.readAll source scan following
        (read.names, false, read.state)
      else
        match listClosing? kind with
        | none => ([], false, following)
        | some closing =>
            let (names, state) := bracketedNames source scan closing following
            (names, state.token?.isSome, state)

def requirementAt (source : List Char) (scan : Scan) (token : Token) (state : ParseState) :
    Node × Bool × ParseState :=
  let (names, consumed, state) := requirementNames source scan state
  (⟨token.offset, none, .functionCall (token.text source), names⟩, consumed, state)

def requirement (source : List Char) (scan : Scan) (state : ParseState) :
    Except NotRequirement (Node × Bool × ParseState) :=
  match state.token? with
  | some token =>
      if requirementKinds.contains token.kind then .ok (requirementAt source scan token state)
      else .error {}
  | none => .error {}

end ParseState

end Manifest
