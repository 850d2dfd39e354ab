import Manifest.Proofs.Reading.Unit
import Manifest.Token.Stream

/-!
# Lexing by push-back

The lexer as it goes over a text with a reader: each scanner reads unit by unit,
looks ahead where it must, and pushes back or returns to a mark what is not its own.
Every step that a reader can refuse may stop it, and every loop is given one step
more than the text has characters.
-/

namespace Manifest

namespace PushBack

abbrev Answer :=
  Except LexFault (LexedToken × Reader)

def bound (reader : Reader) : Nat :=
  reader.text.length + 1

/-- The range of a token; offsets that make none are a fault. -/
def boundedRange (offset length : Nat) : Except LexFault TextRange :=
  match TextRange.ofOffset offset length with
  | .ok range => .ok range
  | .error error => .error (.bounds error)

/-- Close the token with all that was read.  A shared spelling is kept only where the token is
as long as that spelling. -/
def close (kind : TokenKind) (isPartial hasEscape : Bool) (shared? : Option (List Char))
    (finding? : Option Finding) (reader : Reader) : Answer := do
  let length := reader.readLength
  let range ← boundedRange reader.tokenStart length
  let fixedText? := (shared?.or kind.spelling?).filter (·.length == length)
  let token : Token :=
    { kind, range, fixedText?
      flags :=
        { isPartial, hasEscape
          isFlyweight := fixedText?.isSome
          hasUnicodeEscape := reader.hasEscapeWithin length } }
  let reader ← Reader.attempt (reader.consume length)
  return (⟨token, finding?.map fun finding => Diagnostic.of finding range none⟩, reader)

def closeWhole (kind : TokenKind) (reader : Reader) : Answer :=
  close kind false false none none reader

def closePartial (kind : TokenKind) (finding : Finding) (hasEscape : Bool) (reader : Reader) :
    Answer :=
  close kind true hasEscape none (some finding) reader

/-- Put the halves of a character together if the other half follows. -/
def joinHalves (unit? : Option Symbol) (reader : Reader) :
    Except LexFault (Option Symbol × Reader) := do
  match unit? with
  | some (.high bits) =>
      let (low?, after) ← reader.readUnit
      match low? with
      | some (.low lowBits) => return (some (.char (Symbol.joined bits lowBits)), after)
      | _ => return (unit?, ← after.unread)
  | _ => return (unit?, reader)

def lineFeed (reader : Reader) : Except LexFault Reader := do
  let (unit?, after) ← reader.readUnit
  if unit? = some (.char '\n') then return after else after.unread

def isPart (unit? : Option Symbol) : Bool :=
  unit?.any Symbol.isIdentifierPart

/-! ## Runs, comments and literals -/

/-- Read on while a test holds, and close the token before the unit that fails it. -/
def run (test : Symbol → Bool) (kind : TokenKind) : Nat → Reader → Answer
  | 0, _ => .error .endless
  | steps + 1, reader => do
      let (unit?, reader) ← reader.readUnit
      if unit?.any test then run test kind steps reader
      else closeWhole kind (← reader.unread)

def comment : Nat → Reader → Answer
  | 0, _ => .error .endless
  | steps + 1, reader => do
      let (unit?, reader) ← reader.readUnit
      if unit? = some (.char '\r') then closeWhole .comment (← lineFeed reader)
      else if unit? = some (.char '\n') ∨ unit? = none then closeWhole .comment reader
      else comment steps reader

def string (multiline : Bool) (quote : Char) : Nat → Bool → Reader → Answer
  | 0, _, _ => .error .endless
  | steps + 1, escaped, reader => do
      let (unit?, reader) ← reader.readUnit
      if unit? = some (.char quote) then
        close .string false escaped none none reader
      else if unit? = some (.char '\\') then
        let (_, reader) ← reader.readUnit
        string multiline quote steps true reader
      else if unit? = none then
        closePartial .string .unterminatedString escaped reader
      else if unit? = some (.char '\r') ∨ unit? = some (.char '\n') then
        if multiline then string multiline quote steps escaped reader
        else if unit? = some (.char '\r') then
          closePartial .string .unterminatedString escaped (← lineFeed reader)
        else closePartial .string .unterminatedString escaped reader
      else string multiline quote steps escaped reader

/-- Read a block comment after its opening; `star` tells that a star was read last. -/
def blockComment : Nat → Bool → Reader → Answer
  | 0, _, _ => .error .endless
  | steps + 1, star, reader => do
      let (unit?, reader) ← reader.readUnit
      if unit? = none then closePartial .blockComment .unterminatedComment false reader
      else if unit? = some (.char '/') ∧ star = true then closeWhole .blockComment reader
      else blockComment steps (unit? == some (.char '*')) reader

/-- Read a regular expression after its opening slash; `escaped` tells that a backslash takes
the next unit with it, and `hasEscape` that there was one. -/
def regexp : Nat → Bool → Bool → Reader → Answer
  | 0, _, _, _ => .error .endless
  | steps + 1, hasEscape, escaped, reader => do
      let (unit?, reader) ← reader.readUnit
      if unit? = some (.char '\r') then
        closePartial .regexp .unterminatedRegexp hasEscape (← lineFeed reader)
      else if unit? = some (.char '\n') ∨ unit? = none then
        closePartial .regexp .unterminatedRegexp hasEscape reader
      else if unit? = some (.char '\\') then regexp steps true (!escaped) reader
      else if unit? = some (.char '/') ∧ escaped = false then
        close .regexp false hasEscape none none reader
      else regexp steps hasEscape false reader

def slash (reader : Reader) : Answer := do
  let (unit?, after) ← reader.readUnit
  if unit? = some (.char '*') then blockComment (bound after) false after
  else
    let reader ← after.unread
    regexp (bound reader) false false reader

/-- Read what begins with a space; a single one is always written alike. -/
def space (reader : Reader) : Answer := do
  let (unit?, after) ← reader.readUnit
  let reader ← after.unread
  if unit?.any Symbol.isBlank then run Symbol.isBlank .whitespace (bound reader) reader
  else close .whitespace false false (some singleSpace) none reader

/-! ## Operators and words -/

def longer? (spelling : List Char) : Option Symbol → Option (List Char)
  | some (.char c) =>
      if (TokenKind.operator? (spelling ++ [c])).isSome then some (spelling ++ [c]) else none
  | _ => none

def operator : Nat → List Char → Reader → Answer
  | 0, _, _ => .error .endless
  | steps + 1, spelling, reader => do
      let (unit?, reader) ← reader.readUnit
      match longer? spelling unit? with
      | some spelling => operator steps spelling reader
      | none =>
          let reader ← reader.unread
          match TokenKind.operator? spelling with
          | some kind => closeWhole kind reader
          | none => .error (.unknownOperator spelling)

/-- Read a variable after its dollar sign; colons since `colons?` are its own only if a part
follows them. -/
def dollarName : Nat → Option Nat → Reader → Answer
  | 0, _, _ => .error .endless
  | steps + 1, colons?, reader => do
      let mark := reader.mark
      let (unit?, reader) ← reader.readUnit
      let (unit?, reader) ← joinHalves unit? reader
      if unit? = some (.char ':') then dollarName steps (colons?.or (some mark)) reader
      else if isPart unit? then dollarName steps none reader
      else closeWhole .variable (← reader.returnTo (colons?.getD mark))

/-- Read the rest of an identifier; `unit?` was read right after `mark`. -/
def identifier : Nat → Option Symbol → Nat → Reader → Answer
  | 0, _, _, _ => .error .endless
  | steps + 1, unit?, mark, reader => do
      let (unit?, reader) ← joinHalves unit? reader
      if isPart unit? then
        let mark := reader.mark
        let (unit?, reader) ← reader.readUnit
        identifier steps unit? mark reader
      else if unit? = some (.char ':') then
        let (second?, reader) ← reader.readUnit
        if second? = some (.char ':') then
          let mark := reader.mark
          let (unit?, reader) ← reader.readUnit
          identifier steps unit? mark reader
        else closeWhole .identifier (← reader.returnTo mark)
      else closeWhole .identifier (← reader.returnTo mark)

def pastBlanks : Nat → Option Symbol → Reader → Except LexFault (Option Symbol × Reader)
  | 0, _, _ => .error .endless
  | steps + 1, unit?, reader => do
      if unit?.any Symbol.isBlank then
        let (unit?, reader) ← reader.readUnit
        pastBlanks steps unit? reader
      else return (unit?, reader)

/-- Close a keyword whose spelling ended at `mark`; `unit?` is what follows it. -/
def keyword (entry : KeywordEntry) (unit? : Option Symbol) (mark : Nat) (reader : Reader) :
    Answer := do
  if entry.functionLike then
    let (unit?, reader) ← pastBlanks (bound reader + 1) unit? reader
    let isName := unit? = some (.char '\x7b') ∨ unit? = some (.char '=')
    closeWhole (if isName then .identifier else entry.kind) (← reader.returnTo mark)
  else closeWhole entry.kind (← reader.returnTo mark)

def stepBy? (node : KeywordTrie) : Option Symbol → Option KeywordTrie
  | some (.char c) => node.step c
  | _ => none

def wordFrom : Nat → KeywordTrie → Reader → Answer
  | 0, _, _ => .error .endless
  | steps + 1, node, reader => do
      let mark := reader.mark
      let (unit?, reader) ← reader.readUnit
      match stepBy? node unit? with
      | some next => wordFrom steps next reader
      | none =>
          match node.entry with
          | none => identifier (bound reader) unit? mark reader
          | some entry =>
              let (unit?, reader) ← joinHalves unit? reader
              if isPart unit? then identifier (bound reader) unit? mark reader
              else keyword entry unit? mark reader

def word (unit : Symbol) (reader : Reader) : Answer :=
  match stepBy? keywordTrie (some unit) with
  | some node => wordFrom (bound reader) node reader
  | none => identifier (bound reader) (some unit) 0 reader

/-! ## Tokens -/

def operatorUnit? : Symbol → Option (List Char)
  | .char c => if (TokenKind.operator? [c]).isSome then some [c] else none
  | _ => none

def separatorUnit? : Symbol → Option TokenKind
  | .char c => TokenKind.separator? [c]
  | _ => none

/-- Read what begins with a unit that no other token begins with: an identifier if the unit and
its other half make a character that begins one. -/
def stray (unit : Symbol) (reader : Reader) : Answer := do
  let (unit?, reader) ← joinHalves (some unit) reader
  if unit?.any Symbol.isIdentifierStart then identifier (bound reader) unit? 0 reader
  else close .error false false none (some .invalidCharacter) reader

def token (multiline : Bool) (unit : Symbol) (reader : Reader) : Answer :=
  if unit.isDigit then run Symbol.isDigit .int (bound reader) reader
  else if unit = .char '#' then comment (bound reader) reader
  else if unit = .char '\'' then string multiline '\'' (bound reader) false reader
  else if unit = .char '"' then string multiline '"' (bound reader) false reader
  else if unit = .char '$' then dollarName (bound reader) none reader
  else if unit = .char '/' then slash reader
  else if unit = .char ' ' then space reader
  else
    match operatorUnit? unit with
    | some spelling => operator (bound reader) spelling reader
    | none =>
        match separatorUnit? unit with
        | some kind => closeWhole kind reader
        | none =>
            if unit.isIdentifierStart then word unit reader
            else if unit.isBlank then run Symbol.isBlank .whitespace (bound reader) reader
            else stray unit reader

/-- Read one token; at the end of the text there is none, and the reader stays. -/
def next (multiline : Bool) (reader : Reader) :
    Except LexFault (Option LexedToken × Reader) := do
  let (unit?, reader) ← reader.readUnit
  match unit? with
  | none => return (none, ← reader.returnTo 0)
  | some unit =>
      let (lexed, reader) ← token multiline unit reader
      return (some lexed, reader)

def tokens (multiline : Bool) : Nat → Reader → Except LexFault (List LexedToken)
  | 0, _ => .error .endless
  | steps + 1, reader => do
      let (lexed?, reader) ← next multiline reader
      match lexed? with
      | none => return []
      | some lexed => return lexed :: (← tokens multiline steps reader)

def lex (multiline : Bool) (source : List Char) : Except LexFault TokenStream := do
  let reader := Reader.ofText source
  let lexed ← tokens multiline (bound reader) reader
  return TokenStream.ofLexed lexed

end PushBack

end Manifest
