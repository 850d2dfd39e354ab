import Manifest.Token.Basic

/-!
# Cursors

A cursor stands before the first token, on a token, or past the last one.  The
tokens behind it are kept nearest first.  Most moves pass over trivia; going back
from any significant token that was reached returns to the one before it.
-/

namespace Manifest

inductive Cursor where
  | start (tokens : List Token)
  | on (behind : List Token) (token : Token) (ahead : List Token)
  | past (behind : List Token)
  deriving DecidableEq, Repr

structure OutsideTokens where
  index : Int
  deriving DecidableEq, Repr

def OutsideTokens.message (outside : OutsideTokens) : String :=
  "index " ++ toString outside.index ++ " outside the sequence"

namespace Cursor

def tokens : Cursor → List Token
  | .start tokens => tokens
  | .on behind token ahead => behind.reverse ++ token :: ahead
  | .past behind => behind.reverse

def token? : Cursor → Option Token
  | .on _ token _ => some token
  | _ => none

def kind? (cursor : Cursor) : Option TokenKind :=
  cursor.token?.map Token.kind

/-- The index of the token under the cursor; one less than the first, or the number of tokens,
outside of them. -/
def index : Cursor → Int
  | .start _ => -1
  | .on behind _ _ => behind.length
  | .past behind => behind.length

/-- The start of the token under the cursor, or the nearest end of the text. -/
def offset (source : List Char) : Cursor → Nat
  | .start _ => 0
  | .on _ token _ => token.offset
  | .past _ => source.length

def behind : Cursor → List Token
  | .start _ => []
  | .on behind _ _ => behind
  | .past behind => behind

/-- The token under the cursor and those after it; all tokens, before the first one. -/
def ahead : Cursor → List Token
  | .start tokens => tokens
  | .on _ token ahead => token :: ahead
  | .past _ => []

def remaining (cursor : Cursor) : Nat :=
  cursor.ahead.length

def rewind (cursor : Cursor) : Cursor :=
  .start cursor.tokens

def enter (behind : List Token) : List Token → Cursor
  | [] => .past behind
  | token :: ahead => .on behind token ahead

def moveNext : Cursor → Cursor
  | .start tokens => enter [] tokens
  | .on behind token ahead => enter (token :: behind) ahead
  | .past behind => .past behind

def movePrevious? : Cursor → Option Cursor
  | .on (token :: behind) current ahead => some (.on behind token (current :: ahead))
  | .past (token :: behind) => some (.on behind token [])
  | _ => none

def seek (behind : List Token) : List Token → Nat → Cursor
  | [], _ => .past behind
  | token :: ahead, 0 => .on behind token ahead
  | token :: ahead, count + 1 => seek (token :: behind) ahead count

def moveTo (cursor : Cursor) (index : Int) : Except OutsideTokens Cursor :=
  if index = -1 then
    .ok cursor.rewind
  else if 0 ≤ index ∧ index ≤ cursor.tokens.length then
    .ok (seek [] cursor.tokens index.toNat)
  else
    .error ⟨index⟩

def settle (behind : List Token) : List Token → Cursor
  | [] => .past behind
  | token :: ahead =>
      if token.isTrivia then settle (token :: behind) ahead else .on behind token ahead

def skipTrivia : Cursor → Cursor
  | .on behind token ahead => settle behind (token :: ahead)
  | cursor => cursor

def next : Cursor → Cursor
  | .start tokens => settle [] tokens
  | .on behind token ahead => settle (token :: behind) ahead
  | .past behind => .past behind

/-- Back from `token` to the nearest significant one; the first token of all is the last resort. -/
def settleBack : List Token → Token → List Token → Cursor
  | [], token, ahead => .on [] token ahead
  | before :: behind, token, ahead =>
      if token.isTrivia then settleBack behind before (token :: ahead)
      else .on (before :: behind) token ahead

def backoffTrivia : Cursor → Cursor
  | .on behind token ahead => settleBack behind token ahead
  | cursor => cursor

/-- Back to the significant token before; stays on the first token. -/
def previous (cursor : Cursor) : Cursor :=
  match cursor.movePrevious? with
  | some cursor => cursor.backoffTrivia
  | none => cursor

def significant? (cursor : Cursor) : Option Token :=
  cursor.token?.filter fun token => !token.isTrivia

def previousSignificant? (cursor : Cursor) : Option Token := do
  let cursor ← cursor.movePrevious?
  cursor.backoffTrivia.significant?

/-- The texts from the cursor up to a token of some kinds, put together, and where that token
is; no text if there is no such token. -/
def collectFrom (source : List Char) (stops : List TokenKind) (behind : List Token) :
    List Token → Option (List Char) × Cursor
  | [] => (none, .past behind)
  | token :: ahead =>
      if stops.contains token.kind then
        (some [], .on behind token ahead)
      else
        let (text?, cursor) := collectFrom source stops (token :: behind) ahead
        (text?.map (token.text source ++ ·), cursor)

def collectText (source : List Char) (stops : List TokenKind) :
    Cursor → Option (List Char) × Cursor
  | .on behind token ahead => collectFrom source stops behind (token :: ahead)
  | cursor => (none, cursor)

end Cursor

end Manifest
