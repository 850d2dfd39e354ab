import Manifest.Text.Symbol
import Manifest.Token.Keyword

/-!
# Words

Identifiers, keywords and variables.  A word is a run of identifier parts; the
two halves of an escaped character count as that character.  Identifiers hold
pairs of colons, and variables hold colons anywhere but at their end.
-/

namespace Manifest

namespace Symbol

/-- How many symbols go on an identifier: its parts, and colons in pairs. -/
def identifierSize : List Symbol → Nat
  | .high bits :: .low lowBits :: rest =>
      if Manifest.isIdentifierPart (joined bits lowBits) then 2 + identifierSize rest else 0
  | .char ':' :: .char ':' :: rest => 2 + identifierSize rest
  | .char c :: rest =>
      if Manifest.isIdentifierPart c then 1 + identifierSize rest else 0
  | _ => 0

/-- How many symbols go on a variable when `colons` colons are read since its last part. -/
def variableSize : Nat → List Symbol → Nat
  | colons, .high bits :: .low lowBits :: rest =>
      if Manifest.isIdentifierPart (joined bits lowBits) then
        colons + 2 + variableSize 0 rest
      else
        0
  | colons, .char c :: rest =>
      if c = ':' then variableSize (colons + 1) rest
      else if Manifest.isIdentifierPart c then colons + 1 + variableSize 0 rest
      else 0
  | _, _ => 0

def goesOn : List Symbol → Bool
  | .high bits :: .low lowBits :: _ => Manifest.isIdentifierPart (joined bits lowBits)
  | symbol :: _ => symbol.isIdentifierPart
  | [] => false

def opensBlockOrAssigns (symbols : List Symbol) : Bool :=
  match symbols.dropWhile isBlank with
  | .char c :: _ => c == '\x7b' || c == '='
  | _ => false

/-- The keyword at the head, below a node of the trie, and how many symbols it takes.
It is the longest walk of the trie, and no identifier part may follow. -/
def keyword? : KeywordTrie → List Symbol → Option (KeywordEntry × Nat)
  | node, [] => node.entry.map fun entry => (entry, 0)
  | node, symbol :: rest =>
      let next? :=
        match symbol with
        | .char c => node.step c
        | _ => none
      match next? with
      | some next => (keyword? next rest).map fun (entry, size) => (entry, size + 1)
      | none =>
          if goesOn (symbol :: rest) then none
          else node.entry.map fun entry => (entry, 0)

end Symbol

end Manifest
