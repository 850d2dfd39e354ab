/-!
# Quoted literals

What stands between the quotes of a string literal.
-/

namespace Manifest

namespace Quotation

/-- Whether a text begins and ends with the quote, at two places. -/
def isQuotedBy (quote : Char) (text : List Char) : Bool :=
  2 ≤ text.length && text.head? == some quote && text.getLast? == some quote

def inner (text : List Char) : List Char :=
  (text.drop 1).dropLast

/-- The value of a literal: what stands between its quotes, or the text as it is. -/
def value (text : List Char) : List Char :=
  if isQuotedBy '"' text || isQuotedBy '\'' text then inner text else text

/-- A literal without its opening quote, and without its closing one if it has one. -/
def unquote (text : List Char) : List Char :=
  if isQuotedBy '"' text || isQuotedBy '\'' text then inner text else text.drop 1

end Quotation

end Manifest
