import Manifest.Text.TextRange
import Manifest.Token.Kind

/-!
# Tokens

A token is a kind at a range of the text.  Tokens that are written as their kind
always is share that spelling; all other texts are read off the source.
-/

namespace Manifest

structure TokenFlags where
  /-- The end of the literal is missing. -/
  isPartial : Bool
  /-- The token has the shared spelling of its kind. -/
  isFlyweight : Bool
  /-- A string or regular expression holds a backslash. -/
  hasEscape : Bool
  /-- Some symbol is spelled as an escape. -/
  hasUnicodeEscape : Bool
  deriving DecidableEq, Repr

namespace TokenFlags

def members (flags : TokenFlags) : List (Bool × String × Nat) :=
  [(flags.isPartial, "PARTIAL", 1), (flags.isFlyweight, "FLYWEIGHT", 2),
    (flags.hasEscape, "HAS_ESCAPE", 4), (flags.hasUnicodeEscape, "UNICODE_ESCAPE", 8)]

def bits (flags : TokenFlags) : Nat :=
  flags.members.foldr (fun (isSet, _, bit) rest => if isSet then bit + rest else rest) 0

def names (flags : TokenFlags) : List String :=
  flags.members.filterMap fun (isSet, name, _) => if isSet then some name else none

/-- The flags in listings: the names that are set, then their sum. -/
def render (flags : TokenFlags) : String :=
  let names := if flags.names.isEmpty then "NONE" else "|".intercalate flags.names
  "<TokenFlags." ++ names ++ ": " ++ toString flags.bits ++ ">"

end TokenFlags

structure Token where
  kind : TokenKind
  range : TextRange
  flags : TokenFlags
  /-- The shared spelling, for a token that has it. -/
  fixedText? : Option (List Char)
  deriving DecidableEq, Repr

namespace Token

def offset (token : Token) : Nat :=
  token.range.start

def stop (token : Token) : Nat :=
  token.range.stop

def isTrivia (token : Token) : Bool :=
  token.kind.isTrivia

/-- The text of a token, from its shared spelling or from the source. -/
def text (source : List Char) (token : Token) : List Char :=
  token.fixedText?.getD (token.range.slice source)

end Token

end Manifest
