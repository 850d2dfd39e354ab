import Manifest.Parse.Scan

/-!
# Top-level declarations

A manifest is parsed declaration by declaration.  Between two of them the parse
asks whether it should go on; declarations that are read are never touched again.
-/

namespace Manifest

/-- What a host answers each time a parse asks: whether the text has become invalid, and whether
the parse is cancelled.  The questions of one sort are counted from zero. -/
structure Interruption where
  invalid : Nat → Bool
  cancelled : Nat → Bool

namespace Interruption

def never : Interruption :=
  ⟨fun _ => false, fun _ => false⟩

def flagAfter : Option Nat → Nat → Bool
  | some first, question => decide (first ≤ question)
  | none, _ => false

def after (invalid? cancelled? : Option Nat) : Interruption :=
  ⟨flagAfter invalid?, flagAfter cancelled?⟩

end Interruption

structure TopLevel where
  declarations : List Node
  /-- Whether a statement that is no declaration was reported. -/
  reportedGap : Bool
  state : ParseState
  /-- How often the host was asked whether the text is invalid. -/
  validityQuestions : Nat
  /-- How often the host was asked whether the parse is cancelled. -/
  cancellationQuestions : Nat

namespace TopLevel

/-- The first statement of other kinds is reported, where that is wanted. -/
def gap (reportGap : Bool) (token : Token) (read : TopLevel) : TopLevel :=
  if reportGap && !read.reportedGap then
    { read with
      state := read.state.report .unsupportedTopLevelStatement token.range
      reportedGap := true }
  else
    read

def declaration (source : List Char) (reportGap : Bool) (token : Token) (read : TopLevel) :
    TopLevel :=
  match token.kind with
  | .kwClass =>
      let (nodes, state) := read.state.classDecl source (scan source)
      { read with declarations := read.declarations ++ nodes, state }
  | .kwNode =>
      let (node, state) := read.state.nodeDecl source (scan source)
      { read with declarations := read.declarations ++ [node], state }
  | .kwDefine =>
      let (node, state) := read.state.defineDecl source (scan source)
      { read with declarations := read.declarations ++ [node], state }
  | _ => read.gap reportGap token

/-- Ask the host, and read a declaration if it lets the parse go on.  Cancellation is asked for
only when the text is still valid. -/
def step (source : List Char) (reportGap : Bool) (interruption : Interruption)
    (read : TopLevel) : Progress TopLevel :=
  match read.state.token? with
  | none => .done read
  | some token =>
      let asked := { read with validityQuestions := read.validityQuestions + 1 }
      if interruption.invalid read.validityQuestions then
        .done asked
      else
        let asked := { asked with cancellationQuestions := read.cancellationQuestions + 1 }
        if interruption.cancelled read.cancellationQuestions then
          .done asked
        else
          let read := asked.declaration source reportGap token
          .again { read with state := read.state.next }

def readAll (source : List Char) (reportGap : Bool) (interruption : Interruption)
    (state : ParseState) : TopLevel :=
  let first := ParseState.next { state with cursor := state.cursor.rewind }
  iterate (step source reportGap interruption) (first.remaining + 1) ⟨[], false, first, 0, 0⟩

def root (source : List Char) (read : TopLevel) : Node :=
  ⟨0, some source.length, .element .root, read.declarations⟩

end TopLevel

end Manifest
