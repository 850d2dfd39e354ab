import Manifest.Text.Symbol

/-!
# Glyphs

A glyph is a symbol together with its spelling: one character of the text, or
an escape of a backslash, one or more `u` and four hexadecimal digits.  Every
text is a row of glyphs; a backslash that opens no escape stands for itself.
-/

namespace Manifest

structure Glyph where
  symbol : Symbol
  /-- How many characters spell it. -/
  width : Nat
  /-- Whether it is spelled as an escape. -/
  escaped : Bool
  deriving DecidableEq, Repr

namespace Glyph

def hexValue? (c : Char) : Option Nat :=
  if '0' ≤ c ∧ c ≤ '9' then
    some (c.toNat - '0'.toNat)
  else if 'a' ≤ c ∧ c ≤ 'f' then
    some (c.toNat - 'a'.toNat + 10)
  else if 'A' ≤ c ∧ c ≤ 'F' then
    some (c.toNat - 'A'.toNat + 10)
  else
    none

/-- The code given by the first four characters, if they are hexadecimal digits. -/
def hexCode? : List Char → Option Nat
  | a :: b :: c :: d :: _ => do
      let a ← hexValue? a
      let b ← hexValue? b
      let c ← hexValue? c
      let d ← hexValue? d
      return ((a * 16 + b) * 16 + c) * 16 + d
  | _ => none

def escape? : List Char → Option Glyph
  | 'u' :: rest => do
      let more := rest.takeWhile (· == 'u')
      let code ← hexCode? (rest.dropWhile (· == 'u'))
      return ⟨.ofCode code, 6 + more.length, true⟩
  | _ => none

def first (c : Char) (rest : List Char) : Glyph :=
  if c = '\\' then
    (escape? rest).getD ⟨.char '\\', 1, false⟩
  else
    ⟨.char c, 1, false⟩

/-- The glyphs of a text from which `skip` characters are already read. -/
def decodeAfter : Nat → List Char → List Glyph
  | _, [] => []
  | skip + 1, _ :: rest => decodeAfter skip rest
  | 0, c :: rest =>
      let glyph := first c rest
      glyph :: decodeAfter (glyph.width - 1) rest

def decode (text : List Char) : List Glyph :=
  decodeAfter 0 text

def totalWidth (glyphs : List Glyph) : Nat :=
  glyphs.foldr (fun glyph rest => glyph.width + rest) 0

def symbols (glyphs : List Glyph) : List Symbol :=
  glyphs.map Glyph.symbol

theorem decodeAfter_eq_drop (skip : Nat) (text : List Char) :
    decodeAfter skip text = decode (text.drop skip) := by
  induction text generalizing skip with
  | nil => cases skip <;> simp [decode, decodeAfter]
  | cons c rest ih =>
      cases skip with
      | zero => rfl
      | succ skip => simpa [decodeAfter] using ih skip

theorem decode_cons (c : Char) (rest : List Char) :
    decode (c :: rest) = first c rest :: decode (rest.drop ((first c rest).width - 1)) := by
  rw [← decodeAfter_eq_drop]
  rfl

theorem width_first_pos (c : Char) (rest : List Char) : 0 < (first c rest).width := by
  unfold first
  split
  · unfold escape?
    split
    · rename_i rest
      cases hexCode? (rest.dropWhile (· == 'u')) with
      | none => simp
      | some code =>
          show 0 < 6 + (rest.takeWhile (· == 'u')).length
          omega
    · simp
  · simp

end Glyph

end Manifest
