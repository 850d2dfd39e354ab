import Manifest.Parse.Parsed
import Manifest.Text.Newline
import Manifest.Token.Listing

/-!
# Commands

What the command line does with a manifest: list its tokens, or show its tree or
its outline with the reports.  A command is a function from the text of a file to
what is printed, what is written, and the exit code.
-/

namespace Manifest

structure Outcome where
  printed : String
  /-- The path and the content of a file to write. -/
  file? : Option (String × String)
  exitCode : Nat
  deriving DecidableEq, Repr

inductive Command where
  /-- Show the tree, or only the outline. -/
  | tree (outlineOnly multiline : Bool)
  /-- List the tokens, into a file if a path is given. -/
  | tokens (output? : Option String) (multiline : Bool)
  deriving DecidableEq, Repr

namespace Command

/-- A path without empty and dot parts. -/
def normalPath (path : String) : String :=
  let parts := (path.toList.splitOn '/').filter fun part => part != [] && part != ['.']
  let relative := ['/'].intercalate parts
  String.ofList (if path.toList.head? = some '/' then '/' :: relative else relative)

def directory? (path : String) : Option String :=
  match ((normalPath path).toList.splitOn '/').dropLast with
  | [] => none
  | parts => some (String.ofList (['/'].intercalate parts))

def treeOfFlags? : List String → Bool → Bool → Option Command
  | [], outlineOnly, multiline => some (.tree outlineOnly multiline)
  | "--outline" :: flags, _, multiline => treeOfFlags? flags true multiline
  | "--multiline-strings" :: flags, outlineOnly, _ => treeOfFlags? flags outlineOnly true
  | _, _, _ => none

/-- Read the flags of the token command; the last path wins. -/
def tokensOfFlags? : List String → Option String → Bool → Option Command
  | [], output?, multiline => some (.tokens output? multiline)
  | "--output" :: path :: flags, _, multiline =>
      tokensOfFlags? flags (some (normalPath path)) multiline
  | "--multiline-strings" :: flags, output?, _ => tokensOfFlags? flags output? true
  | _, _, _ => none

def ofFlags? (name : String) (flags : List String) : Option Command :=
  match name with
  | "tree" => treeOfFlags? flags false false
  | "tokens" => tokensOfFlags? flags none false
  | _ => none

def treeLines (outlineOnly : Bool) (parsed : Parsed) : List String :=
  let main :=
    if outlineOnly then
      match parsed.outline with
      | .ok entries => OutlineEntry.linesOfAll 0 entries
      | .error error => [error.message]
    else
      [parsed.root.format "  "]
  main ++
    if parsed.diagnostics.isEmpty then [] else Listing.diagnosticLines parsed.diagnostics

/-- Show the tree of a text; the exit code tells of errors. -/
def runTree (outlineOnly multiline : Bool) (source : List Char) : Outcome :=
  let parsed := Parsed.ofText { ParseOptions.standard with multiline } .never source
  { printed := Listing.printed (treeLines outlineOnly parsed)
    file? := none
    exitCode := if parsed.hasErrors then 1 else 0 }

def runTokens (output? : Option String) (multiline : Bool) (source : List Char) : Outcome :=
  let stream := TokenStream.lex multiline source
  let lines := Listing.plainLines source stream
  match output? with
  | none => ⟨"\n".intercalate lines ++ "\n", none, 0⟩
  | some path =>
      ⟨"Wrote " ++ toString stream.tokens.length ++ " tokens to " ++ path ++ "\n",
        some (path, Listing.printed lines), 0⟩

def run (command : Command) (text : List Char) : Outcome :=
  let source := unifyLineBreaks text
  match command with
  | .tree outlineOnly multiline => runTree outlineOnly multiline source
  | .tokens output? multiline => runTokens output? multiline source

end Command

end Manifest
