import Manifest.Text.CodePoints

/-!
# Blanks

The space characters that separate tokens.  Spaces that hold words together,
and the next-line control, are none of them.
-/

namespace Manifest

/-- The space characters and the controls that act as such. -/
def spaceCharacters : CodePoints :=
  [(0x9, 0xD), (0x1C, 0x20), (0x85, 0x85), (0xA0, 0xA0), (0x1680, 0x1680), (0x2000, 0x200A),
   (0x2028, 0x2029), (0x202F, 0x202F), (0x205F, 0x205F), (0x3000, 0x3000)]

/-- Space characters that separate nothing: next line, and the non-breaking spaces. -/
def joiningSpaces : List Nat :=
  [0x85, 0xA0, 0x2007, 0x202F]

def isBlank (c : Char) : Bool :=
  spaceCharacters.contains c.toNat && !joiningSpaces.contains c.toNat

end Manifest
