import Manifest.Text.Symbol

/-!
# Delimited literals

Where comments, strings and regular expressions end.  A literal is closed by its
delimiter, or left open at a line break or at the end of the text; an open literal
takes the line break with it.
-/

namespace Manifest

/-- The rest of a literal after its opening delimiter. -/
structure LiteralEnd where
  /-- How many symbols belong to it. -/
  size : Nat
  /-- Whether the closing delimiter is among them. -/
  closed : Bool
  /-- Whether a backslash was met on the way. -/
  escaped : Bool
  deriving DecidableEq, Repr

namespace LiteralEnd

def close : LiteralEnd :=
  ⟨1, true, false⟩

def leaveOpen (size : Nat) : LiteralEnd :=
  ⟨size, false, false⟩

/-- The same end, seen from `count` symbols before. -/
def after (count : Nat) (literal : LiteralEnd) : LiteralEnd :=
  { literal with size := count + literal.size }

def withEscape (literal : LiteralEnd) : LiteralEnd :=
  { literal with escaped := true }

end LiteralEnd

namespace Symbol

/-- How many symbols the line break at the head takes; a return and a feed are one break. -/
def lineBreakSize : List Symbol → Nat
  | .char '\r' :: .char '\n' :: _ => 2
  | .char '\r' :: _ => 1
  | .char '\n' :: _ => 1
  | _ => 0

def lineSize : List Symbol → Nat
  | [] => 0
  | symbol :: rest =>
      if symbol.isNewline then lineBreakSize (symbol :: rest) else 1 + lineSize rest

/-- The end of a string after its opening quote.  A backslash takes the next symbol with it. -/
def stringEnd (multiline : Bool) (quote : Char) : List Symbol → LiteralEnd
  | [] => .leaveOpen 0
  | symbol :: rest =>
      if symbol = .char quote then
        .close
      else if symbol = .char '\\' then
        match rest with
        | [] => (LiteralEnd.leaveOpen 1).withEscape
        | _ :: rest => ((stringEnd multiline quote rest).after 2).withEscape
      else if symbol.isNewline && !multiline then
        .leaveOpen (lineBreakSize (symbol :: rest))
      else
        (stringEnd multiline quote rest).after 1

/-- The end of a regular expression after its opening slash.  A backslash takes the next
symbol with it, unless that ends the line. -/
def regexpEnd : List Symbol → LiteralEnd
  | [] => .leaveOpen 0
  | symbol :: rest =>
      if symbol.isNewline then
        .leaveOpen (lineBreakSize (symbol :: rest))
      else if symbol = .char '/' then
        .close
      else if symbol = .char '\\' then
        match rest with
        | [] => (LiteralEnd.leaveOpen 1).withEscape
        | next :: rest =>
            if next.isNewline then
              (LiteralEnd.leaveOpen (1 + lineBreakSize (next :: rest))).withEscape
            else
              ((regexpEnd rest).after 2).withEscape
      else
        (regexpEnd rest).after 1

/-- The end of a block comment after its opening `/*`. -/
def blockCommentEnd : List Symbol → LiteralEnd
  | [] => .leaveOpen 0
  | .char '*' :: .char '/' :: _ => LiteralEnd.close.after 1
  | _ :: rest => (blockCommentEnd rest).after 1

end Symbol

end Manifest
