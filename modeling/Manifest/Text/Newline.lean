/-!
# Line breaks

Files are read with every line break as a line feed.
-/

namespace Manifest

/-- A text with a line feed for every return, and for every return with a feed after it. -/
def unifyLineBreaks : List Char → List Char
  | '\r' :: '\n' :: rest => '\n' :: unifyLineBreaks rest
  | '\r' :: rest => '\n' :: unifyLineBreaks rest
  | c :: rest => c :: unifyLineBreaks rest
  | [] => []

end Manifest
