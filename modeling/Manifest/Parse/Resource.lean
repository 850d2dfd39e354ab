import Manifest.Parse.Requirement
import Manifest.Text.Uppercase

/-!
# Resources

The body of a resource: a title with a colon, unless the type begins with a
capital, and attributes up to the closing brace.
-/

namespace Manifest

def bodyStops : List TokenKind :=
  [.rightBrace]

def attributeValueStops : List TokenKind :=
  [.comma, .rightBrace]

def classResourceType : List Char :=
  "class".toList

namespace Token

/-- Whether a token names an attribute; the star stands for many. -/
def namesAttribute (token : Token) : Bool :=
  token.kind == .star ||
    [TokenCategory.identifier, .keyword, .function].contains token.kind.category

end Token

/-- The attributes of a resource that are read; an attribute is closed by a comma or by the end
of the body. -/
structure ResourceAttributes where
  attributes : List Node
  name? : Option Token
  value? : Option Node
  state : ParseState

namespace ResourceAttributes

def attributeNode (source : List Char) (name : Token) (value? : Option Node) : Node :=
  ⟨name.offset, none,
    .resourceAttribute (name.text source) (value?.map fun _ => .child 0), value?.toList⟩

/-- Close the attribute that is open; a value without a name is dropped. -/
def close (source : List Char) (read : ResourceAttributes) : ResourceAttributes :=
  match read.name? with
  | some name =>
      { read with
        attributes := read.attributes ++ [attributeNode source name read.value?]
        name? := none
        value? := none }
  | none => { read with value? := none }

def step (source : List Char) (scan : Scan) (read : ResourceAttributes) :
    Progress ResourceAttributes :=
  match read.state.token? with
  | none => .done read
  | some token =>
      if token.kind = .rightBrace then
        .done read
      else
        let name? :=
          if read.name?.isNone && token.namesAttribute then some token else read.name?
        if token.kind = .paramAssign then
          let (value, state) := scan.here source attributeValueStops read.state.next
          .again { read with name?, value? := some value, state }
        else if token.kind = .comma then
          .again { ({ read with name? } : ResourceAttributes).close source with
            state := read.state.next }
        else
          .again { read with name?, state := read.state.next }

def readAll (source : List Char) (scan : Scan) (state : ParseState) : ResourceAttributes :=
  let first := state.next
  (iterate (step source scan) (first.remaining + 1) ⟨[], none, none, first⟩).close source

end ResourceAttributes

namespace Node

def linksFrom (first count : Nat) : List Link :=
  (List.range' first count).map Link.child

def resource (offset : Nat) (type : List Char) (title? : Option Node) (attributes : List Node)
    (stop? : Option Nat) : Node :=
  ⟨offset, stop?.map Int.ofNat,
    .resource type (title?.map fun _ => .child 0)
      (linksFrom title?.toList.length attributes.length),
    title?.toList ++ attributes⟩

end Node

namespace ParseState

def resourceBody (source : List Char) (scan : Scan) (type : List Char) (offset : Nat)
    (title? : Option Node) (state : ParseState) : Node × ParseState :=
  let read := ResourceAttributes.readAll source scan state
  (Node.resource offset type title? read.attributes (read.state.token?.map Token.stop),
    read.state)

/-- The title that begins with a token: a class name in quotes where the type is `class`, a
string or a bare word, a variable, or a bracketed list. -/
def resourceTitle (source : List Char) (scan : Scan) (type : List Char) (token : Token)
    (state : ParseState) : Option Node × ParseState :=
  match token.kind with
  | .string =>
      if type = classResourceType then (some (quotedClassRef source token), state)
      else (some (Node.string token.offset (token.text source)), state)
  | .identifier | .kwDefault => (some (Node.string token.offset (token.text source)), state)
  | .variable => (some (Node.plainVariable token.offset (token.text source)), state)
  | .leftBracket =>
      let (titles, state) := scan token.offset indexStops state.moveNext
      (some titles, state)
  | _ => (none, state)

def restOfBody (source : List Char) (scan : Scan) (state : ParseState) :
    List Node × ParseState :=
  let (rest, state) := scan.here source bodyStops state
  ([rest], state)

/-- Read a resource from its opening brace on.  The cursor ends on the closing brace.  Without a
title or its colon there is no resource, and what is left of the body is kept as it is. -/
def resource (source : List Char) (scan : Scan) (type : List Char) (offset : Nat)
    (state : ParseState) : List Node × ParseState :=
  if startsWithCapital type then
    let (node, state) := resourceBody source scan type offset none state
    ([node], state)
  else
    let first := state.next
    match first.token? with
    | none => ([], first)
    | some token =>
        match resourceTitle source scan type token first with
        | (none, state) =>
            restOfBody source scan (state.report .unexpectedResourceTitle token.range)
        | (some title, state) =>
            let colon := state.next
            if colon.isAt .colon then
              let (node, state) := resourceBody source scan type offset (some title) colon
              ([node], state)
            else
              let reported := colon.reportHere source .missingTitleColon
              if colon.token?.isSome then restOfBody source scan reported else ([], reported)

end ParseState

end Manifest
