import Manifest.Diagnostic
import Manifest.Parse.Cursor
import Manifest.Tree.Node

/-!
# States of a parse

A parse moves a cursor and reports findings.  A finding at the place of the one
before it is dropped, so that one fault is not reported twice.
-/

namespace Manifest

/-- Where a parse stands, and what it has reported, latest first. -/
structure ParseState where
  cursor : Cursor
  reported : List Diagnostic
  deriving DecidableEq, Repr

namespace ParseState

def ofTokens (tokens : List Token) : ParseState :=
  ⟨.start tokens, []⟩

def diagnostics (state : ParseState) : List Diagnostic :=
  state.reported.reverse

def token? (state : ParseState) : Option Token :=
  state.cursor.token?

def kind? (state : ParseState) : Option TokenKind :=
  state.cursor.kind?

def isAt (state : ParseState) (kind : TokenKind) : Bool :=
  state.kind? == some kind

def offset (source : List Char) (state : ParseState) : Nat :=
  state.cursor.offset source

/-- How far the parse has to go at most. -/
def remaining (state : ParseState) : Nat :=
  state.cursor.remaining

def text (source : List Char) (state : ParseState) : List Char :=
  (state.token?.map (Token.text source)).getD []

def moveNext (state : ParseState) : ParseState :=
  { state with cursor := state.cursor.moveNext }

def next (state : ParseState) : ParseState :=
  { state with cursor := state.cursor.next }

def previous (state : ParseState) : ParseState :=
  { state with cursor := state.cursor.previous }

def currentRange (source : List Char) (state : ParseState) : TextRange :=
  match state.token? with
  | some token => token.range
  | none => TextRange.empty (state.offset source)

/-- Where the token under the cursor ends, or the text outside the tokens. -/
def currentStop (source : List Char) (state : ParseState) : Nat :=
  match state.token? with
  | some token => token.stop
  | none => source.length

/-- Add a report, unless the last one has the same start. -/
def record (diagnostic : Diagnostic) (state : ParseState) : ParseState :=
  match state.reported with
  | last :: _ =>
      if last.start = diagnostic.start then state
      else { state with reported := diagnostic :: state.reported }
  | [] => { state with reported := [diagnostic] }

def report (finding : Finding) (range : TextRange) (state : ParseState) : ParseState :=
  state.record (Diagnostic.of finding range none)

def reportHere (source : List Char) (finding : Finding) (state : ParseState) : ParseState :=
  state.report finding (state.currentRange source)

end ParseState

/-- A scan of a stretch of tokens: given where the stretch begins in the text and the kinds that
end it, it gives the stretch as a node, and the state on the token that ended it. -/
abbrev Scan :=
  Nat → List TokenKind → ParseState → Node × ParseState

namespace Scan

def here (scan : Scan) (source : List Char) (stops : List TokenKind) (state : ParseState) :
    Node × ParseState :=
  scan (state.offset source) stops state

def inside (scan : Scan) (source : List Char) (stops : List TokenKind) (state : ParseState) :
    Node × ParseState :=
  scan.here source stops state.moveNext

end Scan

end Manifest
