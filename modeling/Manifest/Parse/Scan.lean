import Manifest.Parse.Branching
import Manifest.Parse.Declaration
import Manifest.Parse.Nesting

/-!
# Tolerant scans

A scan goes from the cursor to the first stop token outside of brackets, takes
out what it recognises on the way, and keeps all else as raw text.  It never
fails.  What is recognised may hold scans of its own; those begin further on in
the text, so the number of tokens that are left bounds their depth.
-/

namespace Manifest

def callStops : List TokenKind :=
  [.rightParen]

/-- A scan on its way: how deep it is, and what it has collected. -/
structure Scanning where
  nesting : Nesting
  raw : List (List Char)
  children : List Node
  state : ParseState

namespace Scanning

def keep (text : List Char) (scanning : Scanning) : Scanning :=
  { scanning with raw := scanning.raw ++ [text] }

def add (nodes : List Node) (scanning : Scanning) : Scanning :=
  { scanning with children := scanning.children ++ nodes }

/-- Go on from a state whose token is still to be scanned. -/
def stay (state : ParseState) (scanning : Scanning) : Scanning :=
  { scanning with state }

/-- Go on after the token of a state. -/
def advance (state : ParseState) (scanning : Scanning) : Scanning :=
  { scanning with state := state.next }

def endsAt (stops : List TokenKind) (scanning : Scanning) (kind : TokenKind) : Bool :=
  !scanning.nesting.isActive && stops.contains kind

def variableAt (source : List Char) (token : Token) (scanning : Scanning) : Scanning :=
  let name := token.text source
  let following := scanning.state.next
  if following.isAt .equals then
    (scanning.add [Node.plainDefinition token.offset name]).advance following
  else
    (scanning.add [Node.plainVariable token.offset name]).stay following

def callAt (source : List Char) (scan : Scan) (token : Token) (state : ParseState)
    (scanning : Scanning) : Scanning :=
  let name := token.text source
  let following := state.next
  if following.isAt .leftParen then
    let (arguments, last) := scan.inside source callStops following
    (scanning.add [⟨token.offset, none, .functionCall name, [arguments]⟩]).advance last
  else
    (scanning.add [Node.leaf token.offset (.functionCall name)]).advance state

def dotAt (source : List Char) (scan : Scan) (scanning : Scanning) : Scanning :=
  let named := scanning.state.moveNext
  match named.token? with
  | none => scanning.stay named
  | some token =>
      if token.kind = .identifier ∨ token.kind.category = .function then
        scanning.callAt source scan token named
      else
        (scanning.keep ['.']).stay named

def applied? (source : List Char) (scan : Scan) (token : Token) (scanning : Scanning) :
    Option Scanning :=
  let name := token.text source
  let following := scanning.state.next
  if following.isAt .leftParen then
    let (arguments, last) := scan.inside source callStops following
    some ((scanning.add [⟨token.offset, none, .functionCall name, [arguments]⟩]).advance last)
  else if following.isAt .leftBracket then
    match
      if name = classTypeName then (scanning.state.classReference source false) else
        (none, following) with
    | (some reference, last) => some ((scanning.add [reference]).advance last)
    | (none, _) =>
        if startsWithCapital name then
          let (index, last) := scan.inside source indexStops following
          some ((scanning.add [⟨token.offset, none, .typeReference name, [index]⟩]).advance last)
        else
          none
  else
    none

/-- A name or the word `class` on its own: it opens a resource or a class declaration, or is
kept as it is.  Where the nesting keeps names, it is always kept. -/
def nameAt (source : List Char) (scan : Scan) (stops : List TokenKind) (token : Token)
    (scanning : Scanning) : Scanning :=
  let name := token.text source
  if scanning.nesting.keepsNames then
    (scanning.keep name).advance scanning.state
  else
    let following := scanning.state.next
    match following.token? with
    | none => (scanning.keep name).stay following
    | some next =>
        if next.kind = .leftBrace ∧ scanning.endsAt stops .leftBrace = false then
          let (nodes, last) := following.resource source scan name token.offset
          (scanning.add nodes).advance last
        else if token.kind = .kwClass ∧ next.kind = .identifier then
          let (node, last) :=
            following.classAfterName source scan token.offset next.offset (next.text source)
          (scanning.add [node]).advance last
        else
          (scanning.keep name).stay following

def wordAt (source : List Char) (scan : Scan) (stops : List TokenKind) (token : Token)
    (scanning : Scanning) : Scanning :=
  let applied? := if token.kind = .identifier then scanning.applied? source scan token else none
  applied?.getD (scanning.nameAt source scan stops token)

def requirementAt (source : List Char) (scan : Scan) (token : Token) (scanning : Scanning) :
    Scanning :=
  let (node, consumed, last) := scanning.state.requirementAt source scan token
  if consumed then (scanning.add [node]).advance last else (scanning.add [node]).stay last

def significantAt (source : List Char) (scan : Scan) (stops : List TokenKind) (token : Token)
    (scanning : Scanning) : Scanning :=
  match token.kind with
  | .string =>
      (scanning.add [Node.string token.offset (token.text source)]).advance scanning.state
  | .variable => scanning.variableAt source token
  | .fnInclude | .fnRequire | .fnContain => scanning.requirementAt source scan token
  | .identifier | .kwClass => scanning.wordAt source scan stops token
  | .kwCase =>
      let (node, last) := scanning.state.caseStatement source scan
      (scanning.add [node]).advance last
  | .kwIf =>
      let (node, last) := scanning.state.condition source scan true
      (scanning.add [node]).advance last
  | .kwUnless =>
      let (node, last) := scanning.state.condition source scan false
      (scanning.add [node]).advance last
  | .dot => scanning.dotAt source scan
  | kind =>
      if kind.category = .function then
        scanning.callAt source scan token scanning.state
      else
        (scanning.keep (token.text source)).advance scanning.state

def tokenAt (source : List Char) (scan : Scan) (stops : List TokenKind) (token : Token)
    (scanning : Scanning) : Scanning :=
  if token.isTrivia then
    scanning.advance scanning.state
  else
    match scanning.nesting.track token.kind with
    | some nesting =>
        ({ scanning with nesting }.keep (token.text source)).advance scanning.state
    | none => scanning.significantAt source scan stops token

/-- Scan what begins with the token under the cursor, unless that ends the scan. -/
def step (source : List Char) (scan : Scan) (stops : List TokenKind) (scanning : Scanning) :
    Progress Scanning :=
  match scanning.state.token? with
  | none => .done scanning
  | some token =>
      if scanning.endsAt stops token.kind then .done scanning
      else .again (scanning.tokenAt source scan stops token)

def node (source : List Char) (offset : Nat) (scanning : Scanning) : Node :=
  ⟨offset, some (scanning.state.currentStop source), .blob scanning.raw, scanning.children⟩

def begin (state : ParseState) : Scanning :=
  ⟨.flat, [], [], state⟩

end Scanning

namespace Scan

def within (source : List Char) (inner : Scan) : Scan := fun offset stops state =>
  let scanning :=
    iterate (Scanning.step source inner stops) (state.remaining + 1) (.begin state)
  (scanning.node source offset, scanning.state)

/-- A scan whose scans inside are at most `depth` deep. -/
def ofDepth (source : List Char) : Nat → Scan
  | 0 => fun offset _ state => ((Scanning.begin state).node source offset, state)
  | depth + 1 => within source (ofDepth source depth)

end Scan

/-- Scan a stretch of tokens from the cursor to the first stop token outside of brackets, or to
the end of the text.  The stretch ends with the stop token, on which the cursor is left. -/
def scan (source : List Char) : Scan := fun offset stops state =>
  Scan.ofDepth source (state.remaining + 1) offset stops state

end Manifest
