import Manifest.Parse.Resource

/-!
# Case statements and conditions

`case` with its arms, and `if` or `unless` with the branches that go with it.
-/

namespace Manifest

def conditionStops : List TokenKind :=
  [.leftBrace]

def caseArmStops : List TokenKind :=
  [.colon]

structure CaseArms where
  /-- All stretches of tokens, the control expression first. -/
  parts : List Node
  /-- The parts that are the match and the body of an arm. -/
  arms : List (Link × Link)
  state : ParseState

namespace CaseArms

def step (source : List Char) (scan : Scan) (read : CaseArms) : Progress CaseArms :=
  if read.state.token?.isNone || read.state.isAt .rightBrace then
    .done read
  else
    let (arm, colon) := scan.here source caseArmStops read.state
    let parts := read.parts ++ [arm]
    if colon.token?.isNone then
      .done { read with parts, state := colon }
    else
      let brace := colon.next
      if brace.isAt .leftBrace then
        let (body, state) := scan.here source bodyStops brace.next
        .again
          { parts := parts ++ [body]
            arms := read.arms ++ [(.child read.parts.length, .child parts.length)]
            state := state.next }
      else
        .again { read with parts, state := brace }

def readAll (source : List Char) (scan : Scan) (control : Node) (state : ParseState) : CaseArms :=
  iterate (step source scan) (state.remaining + 1) ⟨[control], [], state⟩

end CaseArms

structure Branch where
  offset : Nat
  condition : Node
  consequence : Node

namespace Branch

/-- The node of a branch; `otherwise?` is what goes with it when its condition fails. -/
def node (branch : Branch) (otherwise? : Option Node) : Node :=
  ⟨branch.offset, none,
    .condition (some (.child 0)) (some (.child 1)) (otherwise?.map fun _ => .child 2),
    [branch.condition, branch.consequence] ++ otherwise?.toList⟩

/-- The node of a branch with the branches after it, each inside the one before. -/
def chain (first : Branch) (more : List Branch) (otherwise? : Option Node) : Node :=
  first.node (more.foldr (fun branch otherwise? => some (branch.node otherwise?)) otherwise?)

end Branch

structure Branches where
  branches : List Branch
  otherwise? : Option Node
  state : ParseState

namespace ParseState

def branch (source : List Char) (scan : Scan) (state : ParseState) : Branch × ParseState :=
  let (condition, brace) := scan.here source conditionStops state.next
  let (consequence, last) := scan.here source bodyStops brace.next
  (⟨state.offset source, condition, consequence⟩, last)

end ParseState

namespace Branches

/-- Read a further branch.  When no branch follows, the token that was looked at is left for
the scan around the condition. -/
def step (source : List Char) (scan : Scan) (allowElsif : Bool) (read : Branches) :
    Progress Branches :=
  match read.state.kind? with
  | some .kwElse =>
      let brace := read.state.next
      if brace.isAt .leftBrace then
        let (otherwise, state) := scan.here source bodyStops brace.next
        .done { read with otherwise? := some otherwise, state }
      else
        .done { read with state := brace.previous }
  | some .kwElsif =>
      if allowElsif then
        let (branch, state) := read.state.branch source scan
        .again { read with branches := read.branches ++ [branch], state := state.next }
      else
        .done { read with state := read.state.previous }
  | _ => .done { read with state := read.state.previous }

def readAll (source : List Char) (scan : Scan) (allowElsif : Bool) (state : ParseState) :
    Branches :=
  iterate (step source scan allowElsif) (state.remaining + 1) ⟨[], none, state⟩

end Branches

namespace ParseState

/-- Read a case statement from its word on.  The cursor ends on the closing brace. -/
def caseStatement (source : List Char) (scan : Scan) (state : ParseState) : Node × ParseState :=
  let (control, brace) := scan.here source conditionStops state.next
  let read := CaseArms.readAll source scan control brace.next
  (⟨state.offset source, read.state.token?.map fun token => (token.stop : Int),
    .caseStmt (some (.child 0)) read.arms, read.parts⟩, read.state)

/-- Read a condition from its word on.  The cursor ends on the last token of its last branch. -/
def condition (source : List Char) (scan : Scan) (allowElsif : Bool) (state : ParseState) :
    Node × ParseState :=
  let (first, last) := state.branch source scan
  let read := Branches.readAll source scan allowElsif last.next
  (first.chain read.branches read.otherwise?, read.state)

end ParseState

end Manifest
