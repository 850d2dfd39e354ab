import Manifest.Text.Quoted
import Manifest.Token.Stream

/-!
# Token listings

Two listings of a token stream: a padded one for debugging, and the one of the
command line, which also names categories.
-/

namespace Manifest

namespace Listing

def padRight (width : Nat) (text : String) : String :=
  text ++ String.ofList (List.replicate (width - text.length) ' ')

def padIndex (width : Nat) (n : Nat) : String :=
  let digits := toString n
  String.ofList (List.replicate (width - digits.length) '0') ++ digits

def diagnosticLine (diagnostic : Diagnostic) : String :=
  "- " ++ diagnostic.severity.title ++ " " ++ diagnostic.code ++
    " range=" ++ diagnostic.range.renderBounds ++ " message=" ++ diagnostic.message

/-- A heading after an empty line, then one line for each report. -/
def diagnosticLines (diagnostics : List Diagnostic) : List String :=
  "" :: "Diagnostics:" :: diagnostics.map diagnosticLine

def paddedLine (source : List Char) (index : Nat) (token : Token) : String :=
  padIndex 3 index ++ " " ++ padRight 22 token.kind.name ++
    " range=" ++ token.range.renderBounds ++
    " flags=" ++ token.flags.render ++
    " text=" ++ Quoted.render (token.text source)

/-- The lines of the padded listing; the reports follow where they are wanted. -/
def paddedLines (source : List Char) (stream : TokenStream) (withDiagnostics : Bool) :
    List String :=
  (stream.tokens.zipIdx.map fun (token, index) => paddedLine source index token) ++
    if withDiagnostics then diagnosticLines stream.diagnostics else []

def spanText (range : TextRange) : String :=
  "span=(" ++ toString range.start ++ "," ++ toString range.stop ++ ")"

def plainLine (source : List Char) (index : Nat) (token : Token) : String :=
  "[" ++ toString index ++ "] kind=" ++ token.kind.name ++
    " category=" ++ token.kind.category.title ++
    " text=" ++ Quoted.render (token.text source) ++
    " " ++ spanText token.range ++
    if token.flags.bits = 0 then "" else " flags=" ++ token.flags.render

def plainDiagnosticLine (diagnostic : Diagnostic) : String :=
  diagnostic.severity.title ++ " " ++ diagnostic.code ++
    " " ++ spanText diagnostic.range ++ " " ++ diagnostic.message

def plainLines (source : List Char) (stream : TokenStream) : List String :=
  (stream.tokens.zipIdx.map fun (token, index) => plainLine source index token) ++
    stream.diagnostics.map plainDiagnosticLine

def printed (lines : List String) : String :=
  String.join (lines.map (· ++ "\n"))

end Listing

end Manifest
