import Manifest.Text.Identifier
import Manifest.Text.Whitespace

/-!
# Decoded symbols

What the lexer decides on: characters, and the halves of characters that were
escaped as a surrogate pair.  A half alone is in no character class.
-/

namespace Manifest

inductive Symbol where
  | char (c : Char)
  | high (bits : Fin 0x400)
  | low (bits : Fin 0x400)
  deriving DecidableEq, Repr

namespace Symbol

def ofCode (code : Nat) : Symbol :=
  if h : 0xD800 ≤ code ∧ code < 0xDC00 then
    .high ⟨code - 0xD800, by omega⟩
  else if h : 0xDC00 ≤ code ∧ code < 0xE000 then
    .low ⟨code - 0xDC00, by omega⟩
  else
    .char (Char.ofNat code)

def code : Symbol → Nat
  | .char c => c.toNat
  | .high bits => 0xD800 + bits
  | .low bits => 0xDC00 + bits

def joined (high low : Fin 0x400) : Char :=
  Char.ofNat (0x10000 + high * 0x400 + low)

def joinPairs : List Symbol → List Symbol
  | .high bits :: .low lowBits :: rest => .char (joined bits lowBits) :: joinPairs rest
  | symbol :: rest => symbol :: joinPairs rest
  | [] => []

def isDigit : Symbol → Bool
  | .char c => '0' ≤ c && c ≤ '9'
  | _ => false

def isBlank : Symbol → Bool
  | .char c => Manifest.isBlank c
  | _ => false

def isNewline : Symbol → Bool
  | .char c => c == '\n' || c == '\r'
  | _ => false

def isIdentifierStart : Symbol → Bool
  | .char c => Manifest.isIdentifierStart c
  | _ => false

def isIdentifierPart : Symbol → Bool
  | .char c => Manifest.isIdentifierPart c
  | _ => false

end Symbol

end Manifest
