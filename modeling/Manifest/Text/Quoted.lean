import Manifest.Text.Printable

/-!
# Quoted text

The written form of a text in listings and messages: between quotes, on one
line, with every character visible.
-/

namespace Manifest

namespace Quoted

/-- The quote around a text: an apostrophe, unless the text holds one and no double quote. -/
def delimiter (text : List Char) : Char :=
  if text.contains '\'' && !text.contains '"' then '"' else '\''

def hexDigits : Nat → Nat → List Char
  | 0, _ => []
  | width + 1, n => hexDigits width (n / 16) ++ [Nat.digitChar (n % 16)]

/-- A character by its number, in the shortest of three widths. -/
def escapeByNumber (c : Char) : List Char :=
  if c.toNat ≤ 0xFF then
    '\\' :: 'x' :: hexDigits 2 c.toNat
  else if c.toNat ≤ 0xFFFF then
    '\\' :: 'u' :: hexDigits 4 c.toNat
  else
    '\\' :: 'U' :: hexDigits 8 c.toNat

def escape (quote c : Char) : List Char :=
  if c = quote ∨ c = '\\' then
    ['\\', c]
  else if c = '\t' then
    ['\\', 't']
  else if c = '\n' then
    ['\\', 'n']
  else if c = '\r' then
    ['\\', 'r']
  else if isPrintable c then
    [c]
  else
    escapeByNumber c

def encode (text : List Char) : List Char :=
  delimiter text :: text.flatMap (escape (delimiter text)) ++ [delimiter text]

def render (text : List Char) : String :=
  String.ofList (encode text)

end Quoted

end Manifest
