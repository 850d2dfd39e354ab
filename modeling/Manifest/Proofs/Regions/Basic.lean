import Manifest.Proofs.Forms.Facing

/-!
# Regions

A region is what the parse reads in one go: a stretch up to a stop token, a construct that a scan
takes out, or a part of one.  Here is said which rows of tokens a region contains, blanks aside.
Little is asked of the tokens: an arm may lack its body or its colon, a resource its title, a
class its body.  But nothing in a region runs on past its end:

* each arm of a case statement has a colon before the brace that closes the statement,
* the word of a condition or of a case statement has its braces behind it,
* in a resource no brace closes outside of the title and of the values, and
* in a parameter list no parenthesis closes outside of the defaults.
-/

namespace Manifest

/-- Whether a name with an opening brace behind it opens a block.  Not so in square and round
brackets, and where the brace ends the scan. -/
def Nesting.opensBlocks (stops : List TokenKind) (nesting : Nesting) : Bool :=
  !nesting.keepsNames && (nesting.isActive || !stops.contains .leftBrace)

/-- What the parse reads in one go.  Of the tokens behind it, it looks at the next one at most. -/
inductive Region where
  /-- A stretch up to a stop token. -/
  | stretch (stops : List TokenKind) (stop : Token)
  /-- A part of a stretch, between two places with their nestings. -/
  | part (stops : List TokenKind) (first last : Nesting) (next : Token)
  /-- What a scan takes out or keeps as one. -/
  | construct (stops : List TokenKind) (nesting : Nesting) (next : Token)
  /-- The arguments of a function, if there are any. -/
  | arguments (next : Token)
  /-- A name of a requirement. -/
  | name
  | names (next : Token)
  /-- A resource behind its opening brace. -/
  | resource (type : List Char) (closing : Token)
  | title
  | attributes (closing : Token)
  /-- A class behind its name. -/
  | classRest (next : Token)
  | paramList (next : Token)
  /-- Parameters up to a parenthesis; `opened` where the variable of one is already there. -/
  | params (opened : Bool) (closing : Token)
  /-- A block in braces, if there is one. -/
  | block (next : Token)
  /-- The test and the block of a condition, up to the brace that closes the block. -/
  | branch (closing : Token)
  /-- What belongs to a condition behind its first branch. -/
  | alternative (allowsElsif : Bool) (next : Token)
  /-- Arms of a case statement. -/
  | arms (next : Token)

namespace Region

/-- A token that stands for itself in a stretch: neither it nor the token behind it makes it a
part of something else. -/
structure Alone (source : List Char) (stops : List TokenKind) (nesting : Nesting)
    (token next : Token) : Prop where
  significant : token.isTrivia = false
  untracked : nesting.track token.kind = none
  goes : nesting.isActive = true ∨ stops.contains token.kind = false
  statement : token.kind ∉ [TokenKind.kwCase, .kwIf, .kwUnless]
  function : token.kind.category ≠ .function
  definition : token.kind = .variable → next.kind ≠ .equals
  call : token.kind = .identifier → next.kind ≠ .leftParen
  index : token.kind = .identifier → startsWithCapital (token.text source) = true →
    next.kind ≠ .leftBracket
  block : token.kind = .identifier ∨ token.kind = .kwClass → next.kind = .leftBrace →
    nesting.opensBlocks stops = false
  declaration : token.kind = .kwClass → next.kind = .identifier → nesting.keepsNames = true
  method : token.kind = .dot → next.offset = token.stop →
    ¬ (next.kind = .identifier ∨ next.kind.category = .function)

inductive Inherits (next : Token) : List Token → Prop where
  | nothing (hnext : next.kind ≠ .kwInherits) : Inherits next []
  | unnamed {word : Token} (hword : word.kind = .kwInherits) (hnext : next.kind ≠ .identifier) :
      Inherits next [word]
  | named {word name : Token} (hword : word.kind = .kwInherits) (hname : name.kind = .identifier) :
      Inherits next [word, name]

def titleKinds : List TokenKind :=
  [.string, .identifier, .kwDefault, .variable, .leftBracket]

/-- Which rows of tokens a region contains. -/
inductive Contains (source : List Char) : Region → List Token → Prop where
  -- Stretches
  | stretch {stops : List TokenKind} {last : Nesting} {stop : Token} {row : List Token}
      (hrow : Contains source (.part stops .flat last stop) row) (hlast : last.isActive = false)
      (hstop : stops.contains stop.kind = true) : Contains source (.stretch stops stop) row
  | nothing {stops : List TokenKind} {nesting : Nesting} {next : Token} :
      Contains source (.part stops nesting nesting next) []
  | bracket {stops : List TokenKind} {first further last : Nesting} {token next : Token}
      {row : List Token} (htrack : first.track token.kind = some further)
      (hgoes : first.isActive = true ∨ stops.contains token.kind = false)
      (hrow : Contains source (.part stops further last next) row) :
      Contains source (.part stops first last next) (token :: row)
  | onward {stops : List TokenKind} {first last : Nesting} {next : Token} {own row : List Token}
      (hown : Contains source (.construct stops first (row.headD next)) own)
      (hrow : Contains source (.part stops first last next) row) :
      Contains source (.part stops first last next) (own ++ row)
  -- Constructs
  | alone {stops : List TokenKind} {nesting : Nesting} {token next : Token}
      (htoken : Alone source stops nesting token next) :
      Contains source (.construct stops nesting next) [token]
  | definition {stops : List TokenKind} {nesting : Nesting} {name equals next : Token}
      (hname : name.kind = .variable) (hequals : equals.kind = .equals) :
      Contains source (.construct stops nesting next) [name, equals]
  | call {stops : List TokenKind} {nesting : Nesting} {name opening closing next : Token}
      {row : List Token} (hname : name.kind = .identifier) (hopening : opening.kind = .leftParen)
      (hrow : Contains source (.stretch callStops closing) row) :
      Contains source (.construct stops nesting next) (name :: opening :: (row ++ [closing]))
  | function {stops : List TokenKind} {nesting : Nesting} {name next : Token} {row : List Token}
      (hname : name.kind.category = .function) (hother : name.kind ∉ requirementKinds)
      (hrow : Contains source (.arguments next) row) :
      Contains source (.construct stops nesting next) (name :: row)
  | method {stops : List TokenKind} {nesting : Nesting} {dot name next : Token} {row : List Token}
      (hdot : dot.kind = .dot) (hadjacent : name.offset = dot.stop)
      (hname : name.kind = .identifier ∨ name.kind.category = .function)
      (hrow : Contains source (.arguments next) row) :
      Contains source (.construct stops nesting next) (dot :: name :: row)
  | index {stops : List TokenKind} {nesting : Nesting} {name opening closing next : Token}
      {row : List Token} (hname : name.kind = .identifier)
      (hcapital : startsWithCapital (name.text source) = true)
      (hopening : opening.kind = .leftBracket)
      (hrow : Contains source (.stretch indexStops closing) row) :
      Contains source (.construct stops nesting next) (name :: opening :: (row ++ [closing]))
  | resource {stops : List TokenKind} {nesting : Nesting} {name opening closing next : Token}
      {row : List Token} (hname : name.kind = .identifier ∨ name.kind = .kwClass)
      (hopening : opening.kind = .leftBrace) (hopens : nesting.opensBlocks stops = true)
      (hrow : Contains source (.resource (name.text source) closing) row) :
      Contains source (.construct stops nesting next) (name :: opening :: (row ++ [closing]))
  | classDecl {stops : List TokenKind} {nesting : Nesting} {word name next : Token}
      {row : List Token} (hword : word.kind = .kwClass) (hname : name.kind = .identifier)
      (hnesting : nesting.keepsNames = false) (hrow : Contains source (.classRest next) row) :
      Contains source (.construct stops nesting next) (word :: name :: row)
  | condition {stops : List TokenKind} {nesting : Nesting} {word closing next : Token}
      {branch more : List Token} (hword : word.kind = .kwIf ∨ word.kind = .kwUnless)
      (hbranch : Contains source (.branch closing) branch)
      (hmore : Contains source (.alternative (word.kind != .kwUnless) next) more) :
      Contains source (.construct stops nesting next) (word :: (branch ++ closing :: more))
  | caseStatement {stops : List TokenKind} {nesting : Nesting}
      {word opening closing next : Token} {control arms : List Token} (hword : word.kind = .kwCase)
      (hcontrol : Contains source (.stretch conditionStops opening) control)
      (harms : Contains source (.arms closing) arms) (hclosing : closing.kind = .rightBrace) :
      Contains source (.construct stops nesting next)
        (word :: (control ++ opening :: (arms ++ [closing])))
  | requirement {stops : List TokenKind} {nesting : Nesting} {word next : Token}
      {names : List Token} (hword : word.kind ∈ requirementKinds)
      (hnames : Contains source (.names next) names)
      (hbare : ParseState.listClosing? (names.headD next).kind = none) :
      Contains source (.construct stops nesting next) (word :: names)
  | requirementList {stops : List TokenKind} {nesting : Nesting}
      {word opening closing next : Token} {kind : TokenKind} {names row : List Token}
      (hword : word.kind ∈ requirementKinds)
      (hopening : ParseState.listClosing? opening.kind = some kind)
      (hnames : Contains source (.names (row.headD closing)) names)
      (hrow : Contains source (.stretch [kind] closing) row) :
      Contains source (.construct stops nesting next)
        (word :: opening :: (names ++ (row ++ [closing])))
  -- Calls and requirements
  | noArguments {next : Token} (hnext : next.kind ≠ .leftParen) :
      Contains source (.arguments next) []
  | arguments {opening closing next : Token} {row : List Token}
      (hopening : opening.kind = .leftParen)
      (hrow : Contains source (.stretch callStops closing) row) :
      Contains source (.arguments next) (opening :: (row ++ [closing]))
  | plainName {token : Token} (htoken : token.kind = .string ∨
        token.kind = .identifier ∧ token.text source ≠ classTypeName) :
      Contains source .name [token]
  | indexedName {type opening closing : Token} {row : List Token} (htype : type.kind = .identifier)
      (htext : type.text source = classTypeName) (hopening : opening.kind = .leftBracket)
      (hrow : Contains source (.stretch indexStops closing) row) :
      Contains source .name (type :: opening :: (row ++ [closing]))
  | noName {next : Token} (hnext : next.kind ∉ requirementNameKinds) :
      Contains source (.names next) []
  | lastName {next : Token} {own : List Token} (hown : Contains source .name own)
      (hnext : next.kind ≠ .comma) : Contains source (.names next) own
  | moreNames {comma next : Token} {own row : List Token} (hown : Contains source .name own)
      (hcomma : comma.kind = .comma) (hrow : Contains source (.names next) row) :
      Contains source (.names next) (own ++ comma :: row)
  | bareType {type next : Token} (htype : type.kind = .identifier)
      (htext : type.text source = classTypeName) (hnext : next.kind ≠ .leftBracket) :
      Contains source (.names next) [type]
  -- Resources
  | untitled {type : List Char} {closing : Token} {row : List Token}
      (htype : startsWithCapital type = true) (hrow : Contains source (.attributes closing) row) :
      Contains source (.resource type closing) row
  | titled {type : List Char} {colon closing : Token} {title row : List Token}
      (htype : startsWithCapital type = false) (htitle : Contains source .title title)
      (hcolon : colon.kind = .colon) (hrow : Contains source (.attributes closing) row) :
      Contains source (.resource type closing) (title ++ colon :: row)
  | noColon {type : List Char} {closing : Token} {title row : List Token}
      (htype : startsWithCapital type = false) (htitle : Contains source .title title)
      (hcolon : (row.headD closing).kind ≠ .colon)
      (hrow : Contains source (.stretch bodyStops closing) row) :
      Contains source (.resource type closing) (title ++ row)
  | noTitle {type : List Char} {closing : Token} {row : List Token}
      (htype : startsWithCapital type = false) (htitle : (row.headD closing).kind ∉ titleKinds)
      (hrow : Contains source (.stretch bodyStops closing) row) :
      Contains source (.resource type closing) row
  | titleWord {token : Token} (htoken : token.kind ∈ titleKinds)
      (hword : token.kind ≠ .leftBracket) : Contains source .title [token]
  | titleList {opening closing : Token} {row : List Token} (hopening : opening.kind = .leftBracket)
      (hrow : Contains source (.stretch indexStops closing) row) :
      Contains source .title (opening :: (row ++ [closing]))
  | noAttributes {closing : Token} (hclosing : closing.kind = .rightBrace) :
      Contains source (.attributes closing) []
  | attributeToken {token closing : Token} {row : List Token} (hbrace : token.kind ≠ .rightBrace)
      (harrow : token.kind ≠ .paramAssign) (hrow : Contains source (.attributes closing) row) :
      Contains source (.attributes closing) (token :: row)
  | attributeValue {arrow closing : Token} {value row : List Token}
      (harrow : arrow.kind = .paramAssign)
      (hvalue : Contains source (.stretch attributeValueStops (row.headD closing)) value)
      (hrow : Contains source (.attributes closing) row) :
      Contains source (.attributes closing) (arrow :: (value ++ row))
  -- Classes
  | classRest {next : Token} {params parent body : List Token}
      (hparams : Contains source (.paramList ((parent ++ body).headD next)) params)
      (hparent : Inherits (body.headD next) parent) (hbody : Contains source (.block next) body) :
      Contains source (.classRest next) (params ++ (parent ++ body))
  | noParamList {next : Token} (hnext : next.kind ≠ .leftParen) :
      Contains source (.paramList next) []
  | paramList {opening closing next : Token} {row : List Token}
      (hopening : opening.kind = .leftParen)
      (hrow : Contains source (.params false closing) row) :
      Contains source (.paramList next) (opening :: (row ++ [closing]))
  | noParams {opened : Bool} {closing : Token} (hclosing : closing.kind = .rightParen) :
      Contains source (.params opened closing) []
  | paramType {token closing : Token} {row : List Token} (htoken : token.kind ≠ .rightParen)
      (hrow : Contains source (.params (token.kind == .variable) closing) row) :
      Contains source (.params false closing) (token :: row)
  | paramComma {comma closing : Token} {row : List Token} (hcomma : comma.kind = .comma)
      (hrow : Contains source (.params false closing) row) :
      Contains source (.params true closing) (comma :: row)
  | paramToken {token closing : Token} {row : List Token}
      (htoken : token.kind ∉ [TokenKind.rightParen, .equals, .comma])
      (hrow : Contains source (.params true closing) row) :
      Contains source (.params true closing) (token :: row)
  | paramDefault {equals comma closing : Token} {value row : List Token}
      (hequals : equals.kind = .equals)
      (hvalue : Contains source (.stretch paramDefaultStops comma) value)
      (hcomma : comma.kind = .comma) (hrow : Contains source (.params false closing) row) :
      Contains source (.params true closing) (equals :: (value ++ comma :: row))
  | lastDefault {equals closing : Token} {value : List Token} (hequals : equals.kind = .equals)
      (hvalue : Contains source (.stretch paramDefaultStops closing) value)
      (hclosing : closing.kind = .rightParen) :
      Contains source (.params true closing) (equals :: value)
  | noBlock {next : Token} (hnext : next.kind ≠ .leftBrace) : Contains source (.block next) []
  | block {opening closing next : Token} {row : List Token} (hopening : opening.kind = .leftBrace)
      (hrow : Contains source (.stretch bodyStops closing) row) :
      Contains source (.block next) (opening :: (row ++ [closing]))
  -- Conditions and case statements
  | branch {opening closing : Token} {test body : List Token}
      (htest : Contains source (.stretch conditionStops opening) test)
      (hbody : Contains source (.stretch bodyStops closing) body) :
      Contains source (.branch closing) (test ++ opening :: body)
  | noAlternative {allowsElsif : Bool} {next : Token} (helse : next.kind ≠ .kwElse)
      (helsif : allowsElsif = true → next.kind ≠ .kwElsif) :
      Contains source (.alternative allowsElsif next) []
  | bareElse {allowsElsif : Bool} {word next : Token} (hword : word.kind = .kwElse)
      (hnext : next.kind ≠ .leftBrace) : Contains source (.alternative allowsElsif next) [word]
  | otherwise {allowsElsif : Bool} {word opening closing next : Token} {body : List Token}
      (hword : word.kind = .kwElse) (hopening : opening.kind = .leftBrace)
      (hbody : Contains source (.stretch bodyStops closing) body) :
      Contains source (.alternative allowsElsif next) (word :: opening :: (body ++ [closing]))
  | elsif {word closing next : Token} {branch more : List Token} (hword : word.kind = .kwElsif)
      (hbranch : Contains source (.branch closing) branch)
      (hmore : Contains source (.alternative true next) more) :
      Contains source (.alternative true next) (word :: (branch ++ closing :: more))
  | noArms {next : Token} : Contains source (.arms next) []
  | arm {colon opening closing next : Token} {test body row : List Token}
      (hbegins : (test.headD colon).kind ≠ .rightBrace)
      (htest : Contains source (.stretch caseArmStops colon) test)
      (hopening : opening.kind = .leftBrace)
      (hbody : Contains source (.stretch bodyStops closing) body)
      (hrow : Contains source (.arms next) row) :
      Contains source (.arms next) (test ++ colon :: opening :: (body ++ closing :: row))
  | bodilessArm {colon next : Token} {test row : List Token}
      (hbegins : (test.headD colon).kind ≠ .rightBrace)
      (htest : Contains source (.stretch caseArmStops colon) test)
      (hbehind : (row.headD next).kind ≠ .leftBrace)
      (hrow : Contains source (.arms next) row) :
      Contains source (.arms next) (test ++ colon :: row)

section Contains

variable {source : List Char} {stops : List TokenKind} {first last : Nesting}
  {head next stop : Token} {row : List Token}

theorem Contains.token (hhead : Alone source stops first head (row.headD next))
    (hrow : (Region.part stops first last next).Contains source row) :
    (Region.part stops first last next).Contains source (head :: row) := by
  have honward : (Region.part stops first last next).Contains source ([head] ++ row) :=
    .onward (.alone hhead) hrow
  exact honward

theorem Contains.whole (hrow : (Region.construct stops .flat stop).Contains source row)
    (hstop : stops.contains stop.kind = true) :
    (Region.stretch stops stop).Contains source row := by
  have hpart : (Region.part stops .flat .flat stop).Contains source (row ++ []) :=
    .onward hrow .nothing
  rw [List.append_nil] at hpart
  exact .stretch hpart rfl hstop

end Contains

/-- How a row is read that a region contains: the parse goes on to just what is behind the row,
whatever that is beyond its first token. -/
def Reads (source : List Char) : Region → List Token → Prop
  | .stretch stops stop, row =>
      ∀ (state : ParseState) (offset : Nat) (rest : List Token), (∀ kind ∈ stops, kind ∈ runStops) →
        state.cursor.Placed source → offset ≤ state.offset source →
        state.Sees (row ++ stop :: rest) →
        (Manifest.scan source offset stops state).2.Faces (stop :: rest)
  | .part stops first last next, row =>
      ∀ (scanning : Scanning) (origin : ParseState) (start : Int) (rest : List Token),
        (∀ kind ∈ stops, kind ∈ runStops) → scanning.Laying source origin start →
        scanning.nesting = first → scanning.state.Sees (row ++ next :: rest) →
        ∃ met ending, Scanning.Reaches source stops scanning met ending ∧
          ending.nesting = last ∧ ending.state.Faces (next :: rest)
  | .construct stops nesting next, row =>
      ∀ (scanning : Scanning) (rest : List Token), (∀ kind ∈ stops, kind ∈ runStops) →
        scanning.state.cursor.Placed source → scanning.nesting = nesting →
        scanning.state.Faces (row ++ next :: rest) →
        ∃ after, scanning.step source (Manifest.scan source) stops = .again after ∧
          after.nesting = nesting ∧ after.state.Sees (next :: rest)
  | .arguments next, row =>
      ∀ (scanning : Scanning) (name token : Token) (state : ParseState) (rest : List Token),
        state.cursor.Placed source → state.Faces (name :: (row ++ next :: rest)) →
        (scanning.callAt source (Manifest.scan source) token state).state.Faces (next :: rest)
  | .name, row =>
      ∀ (state : ParseState) (names : List Node) (rest : List Token),
        state.cursor.Placed source → state.Faces (row ++ rest) →
        ∃ more last, RequirementNames.step source (Manifest.scan source) ⟨names, state⟩ =
            RequirementNames.afterName more last ∧
          last.next.Faces rest ∧ last.cursor.Placed source
  | .names next, row =>
      ∀ (read : RequirementNames) (rest : List Token) (fuel : Nat),
        read.state.cursor.Placed source → read.state.Faces (row ++ next :: rest) →
        row.length < fuel →
        (iterate (RequirementNames.step source (Manifest.scan source)) fuel read).state.Faces
            (next :: rest) ∧
          (iterate (RequirementNames.step source (Manifest.scan source)) fuel
            read).state.cursor.Placed source
  | .resource type closing, row =>
      ∀ (state : ParseState) (offset : Nat) (rest : List Token), state.cursor.Placed source →
        state.next.Faces (row ++ closing :: rest) →
        (state.resource source (Manifest.scan source) type offset).2.Faces (closing :: rest)
  | .title, row =>
      ∀ (state : ParseState) (rest : List Token) (type : List Char), state.cursor.Placed source →
        state.Faces (row ++ rest) →
        ∃ token title last, state.token? = some token ∧
          state.resourceTitle source (Manifest.scan source) type token = (some title, last) ∧
          last.next.Faces rest ∧ last.cursor.Placed source
  | .attributes closing, row =>
      ∀ (read : ResourceAttributes) (rest : List Token) (fuel : Nat),
        read.state.cursor.Placed source → read.state.Faces (row ++ closing :: rest) →
        row.length < fuel →
        (iterate (ResourceAttributes.step source (Manifest.scan source)) fuel read).state.Faces
          (closing :: rest)
  | .classRest next, row =>
      ∀ (state : ParseState) (offset nameOffset : Nat) (name : List Char) (rest : List Token),
        state.cursor.Placed source → state.next.Faces (row ++ next :: rest) →
        (state.classAfterName source (Manifest.scan source) offset nameOffset name).2.next.Faces
          (next :: rest)
  | .paramList next, row =>
      ∀ (state : ParseState) (rest : List Token), state.cursor.Placed source →
        state.Faces (row ++ next :: rest) →
        (state.paramList source (Manifest.scan source)).2.Faces (next :: rest)
  | .params opened closing, row =>
      ∀ (read : Params) (rest : List Token) (fuel : Nat), read.state.cursor.Placed source →
        read.open?.isSome = opened → read.state.Faces (row ++ closing :: rest) →
        row.length < fuel →
        (iterate (Params.step source (Manifest.scan source)) fuel read).state.Faces
          (closing :: rest)
  | .block next, row =>
      ∀ (state : ParseState) (rest : List Token), state.cursor.Placed source →
        state.cursor.Settled → state.Faces (row ++ next :: rest) →
        (state.declarationBody source (Manifest.scan source)).2.next.Faces (next :: rest)
  | .branch closing, row =>
      ∀ (state : ParseState) (rest : List Token), state.cursor.Placed source →
        state.next.Faces (row ++ closing :: rest) →
        (state.branch source (Manifest.scan source)).2.Faces (closing :: rest) ∧
          (state.branch source (Manifest.scan source)).2.cursor.Placed source
  | .alternative allowsElsif next, row =>
      ∀ (read : Branches) (rest : List Token) (fuel : Nat), read.state.cursor.Placed source →
        read.state.cursor.Settled → read.state.Faces (row ++ next :: rest) → row.length < fuel →
        (iterate (Branches.step source (Manifest.scan source) allowsElsif) fuel
          read).state.next.Faces (next :: rest)
  | .arms next, row =>
      ∀ (read : CaseArms) (rest : List Token), read.state.cursor.Placed source →
        read.state.Faces (row ++ next :: rest) →
        ∃ count after, count ≤ row.length ∧
          GoesOn (CaseArms.step source (Manifest.scan source)) count read after ∧
          after.state.Faces (next :: rest) ∧ after.state.cursor.Placed source

end Region

end Manifest
