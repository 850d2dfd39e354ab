import Manifest.Parse.Cursor

/-!
# Moves of a cursor

The moves that a parse makes, each with its answer.  A move to an index outside the tokens is
refused, and the cursor stays.
-/

namespace Manifest

namespace Cursor

inductive Move where
  | rewind
  | moveNext
  | movePrevious
  | moveTo (index : Int)
  | skipTrivia
  | next
  | backoffTrivia
  | previous
  deriving DecidableEq, Repr

inductive Answer where
  | done
  /-- Whether there is a token on that side. -/
  | moved (flag : Bool)
  /-- The significant token on which a move over trivia ended, if it ended on one. -/
  | reached (token? : Option Token)
  deriving DecidableEq, Repr

/-- What a move answers, or why it is refused, and where it leads. -/
def make (cursor : Cursor) : Move → Except OutsideTokens Answer × Cursor
  | .rewind => (.ok .done, cursor.rewind)
  | .moveNext => (.ok (.moved cursor.moveNext.token?.isSome), cursor.moveNext)
  | .movePrevious =>
      match cursor.movePrevious? with
      | some before => (.ok (.moved true), before)
      | none => (.ok (.moved false), cursor)
  | .moveTo index =>
      match cursor.moveTo index with
      | .ok there => (.ok .done, there)
      | .error outside => (.error outside, cursor)
  | .skipTrivia => (.ok (.reached cursor.skipTrivia.token?), cursor.skipTrivia)
  | .next => (.ok (.reached cursor.next.token?), cursor.next)
  | .backoffTrivia =>
      (.ok (.reached cursor.backoffTrivia.significant?), cursor.backoffTrivia)
  | .previous => (.ok (.reached cursor.previousSignificant?), cursor.previous)

/-- One move after the other; those that are refused are answered too. -/
def makeAll : List Move → Cursor → List (Except OutsideTokens Answer) × Cursor
  | [], cursor => ([], cursor)
  | move :: moves, cursor =>
      let (answer, after) := cursor.make move
      let (answers, last) := makeAll moves after
      (answer :: answers, last)

end Cursor

end Manifest
