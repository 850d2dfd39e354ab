import Manifest.Diagnostic
import Manifest.Token.Literal
import Manifest.Token.Word

/-!
# Lexemes

The lexical grammar on decoded symbols: every row of symbols is cut into
lexemes, each of at least one symbol, and nothing is left out.  How the symbols
are spelled in the text plays no part here.
-/

namespace Manifest

/-- One word of the lexical grammar: a kind, and how many symbols follow its first one. -/
structure Lexeme where
  kind : TokenKind
  /-- How many symbols belong to the lexeme beyond the first. -/
  extra : Nat
  /-- Whether the literal lacks its end. -/
  isPartial : Bool
  /-- Whether the literal holds a backslash that escapes. -/
  hasEscape : Bool
  deriving DecidableEq, Repr

namespace Lexeme

def size (lexeme : Lexeme) : Nat :=
  lexeme.extra + 1

def finding? (lexeme : Lexeme) : Option Finding :=
  match lexeme.kind, lexeme.isPartial with
  | .error, _ => some .invalidCharacter
  | .string, true => some .unterminatedString
  | .regexp, true => some .unterminatedRegexp
  | .blockComment, true => some .unterminatedComment
  | _, _ => none

def whole (kind : TokenKind) (extra : Nat) : Lexeme :=
  ⟨kind, extra, false, false⟩

/-- A delimited lexeme; `opening` symbols of the delimiter follow the first one. -/
def literal (kind : TokenKind) (opening : Nat) (ending : LiteralEnd) : Lexeme :=
  ⟨kind, opening + ending.size, !ending.closed, ending.escaped⟩

def runSize (test : Symbol → Bool) (rest : List Symbol) : Nat :=
  (rest.takeWhile test).length

/-- The longest operator that goes on from `spelling`, itself the operator `kind`. -/
def operatorFrom (spelling : List Char) (kind : TokenKind) : List Symbol → Lexeme
  | .char c :: rest =>
      match TokenKind.operator? (spelling ++ [c]) with
      | some longer =>
          let lexeme := operatorFrom (spelling ++ [c]) longer rest
          { lexeme with extra := lexeme.extra + 1 }
      | none => whole kind 0
  | _ => whole kind 0

def word (first : Symbol) (rest : List Symbol) : Lexeme :=
  match Symbol.keyword? keywordTrie (first :: rest) with
  | some (entry, size) =>
      if entry.functionLike && Symbol.opensBlockOrAssigns ((first :: rest).drop size) then
        whole .identifier (size - 1)
      else
        whole entry.kind (size - 1)
  | none => whole .identifier (Symbol.identifierSize rest)

def slash : List Symbol → Lexeme
  | .char '*' :: rest => literal .blockComment 1 (Symbol.blockCommentEnd rest)
  | rest => literal .regexp 0 (Symbol.regexpEnd rest)

def ofChar (multiline : Bool) (c : Char) (rest : List Symbol) : Lexeme :=
  if (Symbol.char c).isDigit then
    whole .int (runSize Symbol.isDigit rest)
  else if c = '#' then
    whole .comment (Symbol.lineSize rest)
  else if c = '\'' ∨ c = '"' then
    literal .string 0 (Symbol.stringEnd multiline c rest)
  else if c = '$' then
    whole .variable (Symbol.variableSize 0 rest)
  else if c = '/' then
    slash rest
  else
    match TokenKind.operator? [c], TokenKind.separator? [c] with
    | some kind, _ => operatorFrom [c] kind rest
    | none, some kind => whole kind 0
    | none, none =>
        if isIdentifierStart c then
          word (.char c) rest
        else if isBlank c then
          whole .whitespace (runSize Symbol.isBlank rest)
        else
          whole .error 0

/-- What holds of each way to go on from a character holds of the one it takes. -/
theorem ofChar_cases (multiline : Bool) (c : Char) {motive : (List Symbol → Lexeme) → Prop}
    (hdigit : (Symbol.char c).isDigit = true →
      motive fun rest => whole .int (runSize Symbol.isDigit rest))
    (hcomment : c = '#' → motive fun rest => whole .comment (Symbol.lineSize rest))
    (hstring : c = '\'' ∨ c = '"' →
      motive fun rest => literal .string 0 (Symbol.stringEnd multiline c rest))
    (hvariable : c = '$' → motive fun rest => whole .variable (Symbol.variableSize 0 rest))
    (hslash : c = '/' → motive slash)
    (hoperator : ∀ kind, TokenKind.operator? [c] = some kind → motive (operatorFrom [c] kind))
    (hseparator : ∀ kind, TokenKind.separator? [c] = some kind → motive fun _ => whole kind 0)
    (hword : isIdentifierStart c = true → motive (word (.char c)))
    (hblank : isBlank c = true →
      motive fun rest => whole .whitespace (runSize Symbol.isBlank rest))
    (hother : isIdentifierStart c = false → motive fun _ => whole .error 0) :
    motive (ofChar multiline c) := by
  unfold ofChar
  by_cases h : (Symbol.char c).isDigit = true
  · simp only [if_pos h]
    exact hdigit h
  simp only [if_neg h]
  by_cases h : c = '#'
  · simp only [if_pos h]
    exact hcomment h
  simp only [if_neg h]
  by_cases h : c = '\'' ∨ c = '"'
  · simp only [if_pos h]
    exact hstring h
  simp only [if_neg h]
  by_cases h : c = '$'
  · simp only [if_pos h]
    exact hvariable h
  simp only [if_neg h]
  by_cases h : c = '/'
  · simp only [if_pos h]
    exact hslash h
  simp only [if_neg h]
  cases hkind : TokenKind.operator? [c] with
  | some kind => exact hoperator kind hkind
  | none =>
      cases hkind : TokenKind.separator? [c] with
      | some kind => exact hseparator kind hkind
      | none =>
          dsimp only
          by_cases h : isIdentifierStart c = true
          · simp only [if_pos h]
            exact hword h
          · have hstart : isIdentifierStart c = false := by simpa using h
            simp only [if_neg h]
            by_cases h : isBlank c = true
            · simp only [if_pos h]
              exact hblank h
            · simp only [if_neg h]
              exact hother hstart

/-- The lexeme that begins with a symbol.  A half of a character is an error, unless its
other half follows and both make a character that begins an identifier. -/
def first (multiline : Bool) : Symbol → List Symbol → Lexeme
  | .char c, rest => ofChar multiline c rest
  | .high bits, .low lowBits :: rest =>
      if isIdentifierStart (Symbol.joined bits lowBits) then
        whole .identifier (1 + Symbol.identifierSize rest)
      else
        whole .error 1
  | _, _ => whole .error 0

/-- A lexeme begins with a character, or it is a word or an error made of halves. -/
theorem first_cases (multiline : Bool) (symbol : Symbol) (rest : List Symbol)
    {motive : Lexeme → Prop}
    (hchar : ∀ c, symbol = .char c → motive (ofChar multiline c rest))
    (hword : ∀ extra, motive (whole .identifier extra))
    (hother : ∀ extra, motive (whole .error extra)) :
    motive (first multiline symbol rest) := by
  unfold first
  split
  · exact hchar _ rfl
  · split
    · exact hword _
    · exact hother _
  · exact hother _

/-- The lexemes of a row of symbols from which `skip` symbols are already taken. -/
def allAfter (multiline : Bool) : Nat → List Symbol → List Lexeme
  | _, [] => []
  | skip + 1, _ :: rest => allAfter multiline skip rest
  | 0, symbol :: rest =>
      let lexeme := first multiline symbol rest
      lexeme :: allAfter multiline lexeme.extra rest

def all (multiline : Bool) (symbols : List Symbol) : List Lexeme :=
  allAfter multiline 0 symbols

theorem allAfter_eq_drop (multiline : Bool) (skip : Nat) (symbols : List Symbol) :
    allAfter multiline skip symbols = all multiline (symbols.drop skip) := by
  induction symbols generalizing skip with
  | nil => cases skip <;> rfl
  | cons symbol rest ih =>
      cases skip with
      | zero => rfl
      | succ skip => simpa [allAfter] using ih skip

theorem all_cons (multiline : Bool) (symbol : Symbol) (rest : List Symbol) :
    all multiline (symbol :: rest) =
      first multiline symbol rest ::
        all multiline (rest.drop (first multiline symbol rest).extra) := by
  rw [← allAfter_eq_drop]
  rfl

end Lexeme

end Manifest
