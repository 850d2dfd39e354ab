import Manifest.Parse.Resource

/-!
# Declarations

Classes, defined types and nodes: a name, parameters where there are any, and a
body.  A declaration without a body is reported, and kept as far as it goes.
-/

namespace Manifest

def defaultParamType : List Char :=
  "Any".toList

def paramDefaultStops : List TokenKind :=
  [.comma, .rightParen]

def defineNameStops : List TokenKind :=
  [.whitespace, .comment, .blockComment, .leftBrace, .leftParen]

structure OpenParam where
  type : TextRange
  token : Token
  deriving DecidableEq, Repr

/-- The parameters that are read; a parameter is closed by a comma or by the end of the list. -/
structure Params where
  params : List Node
  /-- The range of the type so far. -/
  type? : Option TextRange
  open? : Option OpenParam
  default? : Option Node
  /-- How many more square brackets the type has opened than closed. -/
  depth : Int
  state : ParseState

namespace Params

def typeText (source : List Char) (type : TextRange) : List Char :=
  match type.slice source with
  | [] => defaultParamType
  | text => text

def param (source : List Char) (opened : OpenParam) (default? : Option Node) : Node :=
  let name := opened.token.text source
  ⟨opened.type.start, none,
    .classParam (typeText source opened.type) (.child 0)
      (default?.map fun _ => .child 1),
    Node.plainDefinition opened.token.offset name :: default?.toList⟩

def close (source : List Char) (read : Params) : Params :=
  { params :=
      match read.open? with
      | some opened => read.params ++ [param source opened read.default?]
      | none => read.params
    type? := none
    open? := none
    default? := none
    depth := 0
    state := read.state }

def depthAfter (depth : Int) : TokenKind → Int
  | .leftBracket => depth + 1
  | .rightBracket => depth - 1
  | _ => depth

/-- Read a token where no parameter is open: its variable, or a token of its type.  A comma
outside of the brackets of the type begins anew. -/
def stepType (source : List Char) (token : Token) (read : Params) : Params :=
  let following := read.state.next
  if token.kind = .variable then
    let type := read.type?.getD (TextRange.empty token.offset)
    { read with type? := some type, open? := some ⟨type, token⟩, state := following }
  else
    let type := (read.type?.map fun type => type.cover token.range).getD token.range
    let depth := depthAfter read.depth token.kind
    if token.kind = .comma ∧ depth ≤ 0 then
      { read.close source with state := following }
    else
      { read with type? := some type, depth, state := following }

/-- Read a token after the variable of a parameter: an equals sign with the default after it, a
comma, or anything else, which is passed over. -/
def stepRest (source : List Char) (scan : Scan) (token : Token) (read : Params) :
    Progress Params :=
  if token.kind = .equals then
    let (default, state) := scan.here source paramDefaultStops read.state.next
    let read := { read with default? := some default, state }
    if state.isAt .comma then .again { read.close source with state := state.next }
    else if state.token?.isNone || state.isAt .rightParen then .done read
    else .again { read with state := state.next }
  else if token.kind = .comma then
    .again { read.close source with state := read.state.next }
  else
    .again { read with state := read.state.next }

def step (source : List Char) (scan : Scan) (read : Params) : Progress Params :=
  match read.state.token? with
  | none => .done read
  | some token =>
      if token.kind = .rightParen then
        .done read
      else
        match read.open? with
        | none => .again (stepType source token read)
        | some _ => stepRest source scan token read

/-- Read parameters after the opening parenthesis under the cursor.  The cursor ends on the
closing one. -/
def readAll (source : List Char) (scan : Scan) (state : ParseState) : Params :=
  let first := state.next
  (iterate (step source scan) (first.remaining + 1) ⟨[], none, none, none, 0, first⟩).close
    source

end Params

namespace Node

def classDecl (offset : Nat) (name? : Option (Nat × List Char)) (params : List Node)
    (inherits? : Option Node) (body? : Option Node) : Node :=
  let names := name?.toList.map fun (offset, name) => leaf offset (.identifier name)
  ⟨offset, none,
    .classDecl (name?.map fun _ => .child 0)
      (linksFrom names.length params.length)
      (inherits?.map fun _ => .child (names.length + params.length)),
    names ++ params ++ inherits?.toList ++ body?.toList⟩

def defineDecl (offset : Nat) (name? : Option (List Char)) (params : List Node)
    (body? : Option Node) : Node :=
  ⟨offset, none, .defineDecl name? (linksFrom 0 params.length), params ++ body?.toList⟩

def nodeDecl (offset : Nat) (names : List (List Char)) (body? : Option Node) : Node :=
  ⟨offset, none, .nodeDecl names, body?.toList⟩

end Node

structure NodeNames where
  names : List (List Char)
  state : ParseState

namespace NodeNames

def step (source : List Char) (read : NodeNames) : Progress NodeNames :=
  match read.state.token? with
  | none => .done read
  | some token =>
      if token.kind = .leftBrace then
        .done read
      else if token.kind = .comma then
        .again { read with state := read.state.next }
      else
        .again ⟨read.names ++ [token.text source], read.state.next⟩

def readAll (source : List Char) (state : ParseState) : NodeNames :=
  iterate (step source) (state.remaining + 1) ⟨[], state⟩

end NodeNames

namespace ParseState

/-- Read the body of a declaration from its brace on.  Another token is reported and left for
what comes after the declaration. -/
def declarationBody (source : List Char) (scan : Scan) (state : ParseState) :
    Option Node × ParseState :=
  if state.isAt .leftBrace then
    let (body, last) := scan.inside source bodyStops state
    (some body, last)
  else
    let reported := state.reportHere source .expectedBody
    (none, if state.token?.isSome then reported.previous else reported)

/-- Read a parameter list if one begins here; the cursor ends after it. -/
def paramList (source : List Char) (scan : Scan) (state : ParseState) :
    List Node × ParseState :=
  if state.isAt .leftParen then
    let read := Params.readAll source scan state
    (read.params, read.state.next)
  else
    ([], state)

def inheritance (source : List Char) (state : ParseState) : Option Node × ParseState :=
  if state.isAt .kwInherits then
    let parent := state.next
    match parent.token? with
    | some token =>
        if token.kind = .identifier then
          (some (Node.classRef token.offset token.offset (token.text source)), parent.next)
        else
          (none, parent)
    | none => (none, parent)
  else
    (none, state)

def classAfterName (source : List Char) (scan : Scan) (offset nameOffset : Nat)
    (name : List Char) (state : ParseState) : Node × ParseState :=
  let (params, state) := paramList source scan state.next
  let (inherits?, state) := inheritance source state
  let (body?, state) := declarationBody source scan state
  (Node.classDecl offset (some (nameOffset, name)) params inherits? body?, state)

/-- Read a class from its word on; without a name there is no class. -/
def classDecl (source : List Char) (scan : Scan) (state : ParseState) :
    List Node × ParseState :=
  let named := state.next
  match named.token? with
  | none => ([], named)
  | some token =>
      if token.kind = .identifier then
        let (node, last) :=
          classAfterName source scan (state.offset source) token.offset (token.text source) named
        ([node], last)
      else
        ([], named.previous)

/-- Read a defined type from its word on.  Its name is all that stands before a blank, a
comment or an opening bracket. -/
def defineDecl (source : List Char) (scan : Scan) (state : ParseState) : Node × ParseState :=
  let offset := state.offset source
  match state.next.cursor.collectText source defineNameStops with
  | (none, cursor) => (Node.defineDecl offset none [] none, { state.next with cursor })
  | (some name, cursor) =>
      let (params, last) := paramList source scan { state with cursor := cursor.skipTrivia }
      let (body?, last) := declarationBody source scan last
      (Node.defineDecl offset (some name) params body?, last)

def nodeDecl (source : List Char) (scan : Scan) (state : ParseState) : Node × ParseState :=
  let read := NodeNames.readAll source state.next
  let (body?, last) := declarationBody source scan read.state
  (Node.nodeDecl (state.offset source) read.names body?, last)

end ParseState

end Manifest
