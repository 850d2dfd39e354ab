import Manifest.Token.Kind

/-!
# Nesting

How many brackets of each shape a scan has met open and closed.  A closing
bracket counts down whether or not it closes anything.
-/

namespace Manifest

/-- For each shape of bracket, how many more were opened than closed. -/
structure Nesting where
  braces : Int
  brackets : Int
  parens : Int
  deriving DecidableEq, Repr

namespace Nesting

def flat : Nesting :=
  ⟨0, 0, 0⟩

def isActive (nesting : Nesting) : Bool :=
  decide (0 < nesting.braces ∨ 0 < nesting.brackets ∨ 0 < nesting.parens)

/-- Whether names are kept as raw text; a count that has fallen below zero keeps them, too. -/
def keepsNames (nesting : Nesting) : Bool :=
  nesting.brackets != 0 || nesting.parens != 0

/-- The nesting after a bracket; none if the token is no bracket. -/
def track (nesting : Nesting) : TokenKind → Option Nesting
  | .leftBrace => some { nesting with braces := nesting.braces + 1 }
  | .rightBrace => some { nesting with braces := nesting.braces - 1 }
  | .leftBracket => some { nesting with brackets := nesting.brackets + 1 }
  | .rightBracket => some { nesting with brackets := nesting.brackets - 1 }
  | .leftParen => some { nesting with parens := nesting.parens + 1 }
  | .rightParen => some { nesting with parens := nesting.parens - 1 }
  | _ => none

end Nesting

end Manifest
