import Manifest.Text.Glyph

/-!
# Reading with push-back

A reader goes through a text character by character or glyph by glyph.  What
was read since the current token began can be pushed back; glyphs are pushed
back from a history of at most two.  A step that fails changes nothing.
-/

namespace Manifest

inductive ReaderError where
  /-- Pushing back more characters than were read, or fewer than none. -/
  | backUp (count : Int) (read : Nat)
  /-- Closing a token after more characters than were read, or fewer than none. -/
  | consume (length : Int) (read : Nat)
  /-- Pushing back a number of glyphs other than one or two. -/
  | unsupportedDepth (count : Int)
  /-- Pushing back glyphs that the history no longer holds. -/
  | nothingToBackUp
  deriving DecidableEq, Repr

namespace ReaderError

def message : ReaderError → String
  | .backUp count read =>
      "Cannot back up " ++ toString count ++ " units, " ++ toString read ++ " read"
  | .consume length read =>
      "Cannot consume " ++ toString length ++ " units, " ++ toString read ++ " read"
  | .unsupportedDepth count => "backup depth " ++ toString count ++ " is not supported"
  | .nothingToBackUp => "nothing to back up"

end ReaderError

/-- A position in a text, with the history that push-back needs. -/
structure Reader where
  text : List Char
  /-- Where the current token began. -/
  tokenStart : Nat
  /-- How far the text is read; reads past the end count. -/
  offset : Nat
  /-- The width of the glyph read last, unless the history was cleared. -/
  current : Option Nat
  /-- The width of the glyph read before that one. -/
  previous : Option Nat
  /-- Where in the current token escapes were read. -/
  escapeStarts : List Nat
  deriving DecidableEq, Repr

namespace Reader

def ofText (text : List Char) : Reader :=
  ⟨text, 0, 0, none, none, []⟩

def readLength (reader : Reader) : Nat :=
  min reader.offset reader.text.length - reader.tokenStart

/-- How many characters were read for the current token, reads past the end included. -/
def readLengthPastEnd (reader : Reader) : Nat :=
  reader.offset - reader.tokenStart

def readChar (reader : Reader) : Option Char × Reader :=
  ((reader.text.drop reader.offset).head?, { reader with offset := reader.offset + 1 })

def backUpChars (reader : Reader) (count : Int) : Except ReaderError Reader :=
  if count < 0 ∨ (reader.readLengthPastEnd : Int) < count then
    .error (.backUp count reader.readLengthPastEnd)
  else
    .ok { reader with offset := reader.offset - count.toNat }

def consumeChars (reader : Reader) (length : Int) : Except ReaderError Reader :=
  if length < 0 ∨ (reader.readLength : Int) < length then
    .error (.consume length reader.readLength)
  else
    .ok { reader with
      tokenStart := reader.tokenStart + length.toNat
      offset := reader.tokenStart + length.toNat }

def forget (reader : Reader) : Reader :=
  { reader with current := none, previous := none }

/-- Read one glyph; none past the end.  A read past the end counts as one of width one. -/
def readGlyph (reader : Reader) : Option Glyph × Reader :=
  match reader.text.drop reader.offset with
  | [] =>
      (none,
        { reader with
          offset := reader.offset + 1
          current := some 1
          previous := reader.current })
  | c :: rest =>
      let glyph := Glyph.first c rest
      (some glyph,
        { reader with
          offset := reader.offset + glyph.width
          current := some glyph.width
          previous := reader.current
          escapeStarts :=
            if glyph.escaped then
              reader.escapeStarts ++ [reader.readLengthPastEnd]
            else
              reader.escapeStarts })

def backUpGlyphs (reader : Reader) (count : Int) : Except ReaderError Reader :=
  if count = 1 then
    match reader.current with
    | none => .error .nothingToBackUp
    | some width => do
        let reader ← reader.backUpChars width
        return { reader with current := reader.previous, previous := none }
  else if count = 2 then
    match reader.current, reader.previous with
    | some width, some before => do
        let reader ← reader.backUpChars (width + before : Nat)
        return reader.forget
    | _, _ => .error .nothingToBackUp
  else
    .error (.unsupportedDepth count)

def mark (reader : Reader) : Nat :=
  reader.readLengthPastEnd

/-- Return to a position in the current token; the history is cleared. -/
def reset (reader : Reader) (mark : Int) : Except ReaderError Reader := do
  let reader ← reader.backUpChars (reader.readLengthPastEnd - mark)
  return reader.forget

def consume (reader : Reader) (length : Int) : Except ReaderError Reader := do
  let reader ← reader.consumeChars length
  return { reader.forget with escapeStarts := [] }

def hasEscapeWithin (reader : Reader) (length : Int) : Bool :=
  reader.escapeStarts.any fun start => decide ((start : Int) < length)

end Reader

end Manifest
