import Manifest.Text.Glyph
import Manifest.Token.Basic
import Manifest.Token.Lexeme

/-!
# Token streams

Lexemes are put back onto the text: each takes the glyphs of its symbols, and
their widths give its range.  Every text is covered by its tokens without gap or
overlap, whatever it holds.
-/

namespace Manifest

def singleSpace : List Char :=
  [' ']

namespace Token

/-- The spelling that a lexeme shares with others of its kind, if there is one. -/
def sharedSpelling? (kind : TokenKind) (glyphs : List Glyph) : Option (List Char) :=
  match kind.spelling? with
  | some spelling => some spelling
  | none =>
      if kind = .whitespace ∧ Glyph.symbols glyphs = [.char ' '] then some singleSpace else none

/-- The token of a lexeme at an offset, spelled by the given glyphs.  A shared spelling is
kept only where the token is as long as that spelling. -/
def place (offset : Nat) (glyphs : List Glyph) (lexeme : Lexeme) : Token :=
  let width := Glyph.totalWidth glyphs
  let fixedText? := (sharedSpelling? lexeme.kind glyphs).filter (·.length == width)
  { kind := lexeme.kind
    range := TextRange.sized offset width
    flags :=
      { isPartial := lexeme.isPartial
        isFlyweight := fixedText?.isSome
        hasEscape := lexeme.hasEscape
        hasUnicodeEscape := glyphs.any Glyph.escaped }
    fixedText? }

def diagnostic? (token : Token) (lexeme : Lexeme) : Option Diagnostic :=
  lexeme.finding?.map fun finding => Diagnostic.of finding token.range none

end Token

structure LexedToken where
  token : Token
  diagnostic? : Option Diagnostic
  deriving DecidableEq, Repr

namespace LexedToken

def place (offset : Nat) (glyphs : List Glyph) (lexeme : Lexeme) : LexedToken :=
  let token := Token.place offset glyphs lexeme
  ⟨token, token.diagnostic? lexeme⟩

def placeAll : Nat → List Glyph → List Lexeme → List LexedToken
  | _, _, [] => []
  | offset, glyphs, lexeme :: lexemes =>
      let own := glyphs.take lexeme.size
      let placed := place offset own lexeme
      placed :: placeAll placed.token.stop (glyphs.drop lexeme.size) lexemes

end LexedToken

structure TokenStream where
  tokens : List Token
  diagnostics : List Diagnostic
  deriving DecidableEq, Repr

namespace TokenStream

def ofLexed (lexed : List LexedToken) : TokenStream :=
  ⟨lexed.map LexedToken.token, lexed.filterMap LexedToken.diagnostic?⟩

/-- Lex a text.  With `multiline`, strings go on over line breaks. -/
def lex (multiline : Bool) (source : List Char) : TokenStream :=
  let glyphs := Glyph.decode source
  ofLexed (LexedToken.placeAll 0 glyphs (Lexeme.all multiline (Glyph.symbols glyphs)))

end TokenStream

structure Lexer where
  multiline : Bool
  offset : Nat
  glyphs : List Glyph
  diagnostics : List Diagnostic
  deriving DecidableEq, Repr

namespace Lexer

def ofText (multiline : Bool) (source : List Char) : Lexer :=
  ⟨multiline, 0, Glyph.decode source, []⟩

def next (lexer : Lexer) : Option Token × Lexer :=
  match lexer.glyphs with
  | [] => (none, lexer)
  | glyph :: rest =>
      let lexeme := Lexeme.first lexer.multiline glyph.symbol (Glyph.symbols rest)
      let placed := LexedToken.place lexer.offset ((glyph :: rest).take lexeme.size) lexeme
      (some placed.token,
        { lexer with
          offset := placed.token.stop
          glyphs := rest.drop lexeme.extra
          diagnostics := lexer.diagnostics ++ placed.diagnostic?.toList })

/-- The first `count` answers of a lexer, each with the number of reports after it. -/
def nextMany : Nat → Lexer → List (Option Token × Nat)
  | 0, _ => []
  | count + 1, lexer =>
      let (token?, lexer) := lexer.next
      (token?, lexer.diagnostics.length) :: nextMany count lexer

end Lexer

end Manifest
