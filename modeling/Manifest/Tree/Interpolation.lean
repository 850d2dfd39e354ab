/-!
# References inside strings

The variables that a double-quoted string mentions.  A dollar sign with an even
number of backslashes before it opens a reference, which is a name in braces or a
bare name of segments joined by pairs of colons.
-/

namespace Manifest

structure Reference where
  /-- The name, without the dollar sign and the braces. -/
  name : List Char
  /-- Where its dollar sign stands. -/
  position : Nat
  /-- How many characters spell it. -/
  length : Nat
  deriving DecidableEq, Repr

namespace Reference

def isNameStart (c : Char) : Bool :=
  c.isAlpha || c == '_'

def isNamePart (c : Char) : Bool :=
  c.isAlphanum || c == '_'

/-- How many characters go on a bare name whose first character is read. -/
def bareSize : List Char → Nat
  | ':' :: ':' :: c :: rest => if isNameStart c then 3 + bareSize rest else 0
  | c :: rest => if isNamePart c then 1 + bareSize rest else 0
  | [] => 0

def bareName? : List Char → Option (List Char)
  | c :: rest => if isNameStart c then some (c :: rest.take (bareSize rest)) else none
  | [] => none

/-- The name in braces at the head; colons may stand anywhere in it. -/
def bracedName? : List Char → Option (List Char)
  | '\x7b' :: c :: rest =>
      let more := rest.takeWhile fun c => isNamePart c || c == ':'
      match rest.dropWhile fun c => isNamePart c || c == ':' with
      | '\x7d' :: _ => if isNameStart c || c == ':' then some (c :: more) else none
      | _ => none
  | _ => none

def at? (position : Nat) (rest : List Char) : Option Reference :=
  match bracedName? rest with
  | some name => some ⟨name, position, name.length + 3⟩
  | none => (bareName? rest).map fun name => ⟨name, position, name.length + 1⟩

def backslashPairs : List Char → Nat
  | '\\' :: '\\' :: rest => 1 + backslashPairs rest
  | _ => 0

/-- The reference at the head of a text at `position`, behind pairs of backslashes.  There is none
right after the backslash that is the character `before`. -/
def here? (before : Option Char) (position : Nat) (text : List Char) : Option Reference :=
  if before = some '\\' then
    none
  else
    let skipped := 2 * backslashPairs text
    match text.drop skipped with
    | '$' :: rest => at? (position + skipped) rest
    | _ => none

/-- The references in a text at `position`, after the character `before`, of which `skip`
characters are already taken. -/
def findAfter : Nat → Option Char → Nat → List Char → List Reference
  | _, _, _, [] => []
  | skip + 1, _, position, c :: rest => findAfter skip (some c) (position + 1) rest
  | 0, before, position, c :: rest =>
      match here? before position (c :: rest) with
      | some reference =>
          reference ::
            findAfter (reference.position + reference.length - position - 1) (some c)
              (position + 1) rest
      | none => findAfter 0 (some c) (position + 1) rest

def findAll (text : List Char) : List Reference :=
  findAfter 0 none 0 text

end Reference

end Manifest
