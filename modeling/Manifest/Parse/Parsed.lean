import Manifest.Parse.TopLevel
import Manifest.Token.Stream
import Manifest.Tree.View

/-!
# Parsed manifests

From a text to its tokens, its tree and its reports.  Nothing in a text makes
this fail; a host may stop it between two declarations.
-/

namespace Manifest

structure ParseOptions where
  /-- Whether strings go on over line breaks. -/
  multiline : Bool
  /-- Whether statements outside of declarations are reported. -/
  reportGap : Bool
  deriving DecidableEq, Repr

namespace ParseOptions

/-- Strings end with the line, and statements outside of declarations are reported. -/
def standard : ParseOptions :=
  ⟨false, true⟩

end ParseOptions

inductive LogLevel where
  | debug
  | info
  | warning
  deriving DecidableEq, Repr

def LogLevel.name : LogLevel → String
  | .debug => "DEBUG"
  | .info => "INFO"
  | .warning => "WARNING"

structure LogRecord where
  level : LogLevel
  message : String
  deriving DecidableEq, Repr

/-- The tokens, the tree and the reports of a text. -/
structure Parsed where
  source : List Char
  tokens : List Token
  root : Node
  diagnostics : List Diagnostic
  /-- Whether the parse was found cancelled at its end. -/
  cancelled : Bool
  /-- Whether the text was found invalid at the end of the parse. -/
  aborted : Bool

namespace Parsed

/-- Whether the parse stopped before the end of the manifest. -/
def isPartial (parsed : Parsed) : Bool :=
  parsed.cancelled || parsed.aborted

def hasErrors (parsed : Parsed) : Bool :=
  Diagnostic.hasErrors parsed.diagnostics

def outline (parsed : Parsed) : Except BoundsError (List OutlineEntry) :=
  parsed.root.outline

/-- Parse a row of tokens; the reports of the lexer come first where two begin alike.  At the end
the host is asked once more, first about cancellation. -/
def ofStream (options : ParseOptions) (interruption : Interruption) (source : List Char)
    (stream : TokenStream) : Parsed :=
  let read :=
    TopLevel.readAll source options.reportGap interruption (.ofTokens stream.tokens)
  { source
    tokens := stream.tokens
    root := read.root source
    diagnostics := Diagnostic.collect [stream.diagnostics, read.state.diagnostics]
    cancelled := interruption.cancelled read.cancellationQuestions
    aborted := interruption.invalid read.validityQuestions }

def ofText (options : ParseOptions) (interruption : Interruption) (source : List Char) : Parsed :=
  ofStream options interruption source (TokenStream.lex options.multiline source)

def log (parsed : Parsed) : List LogRecord :=
  [⟨.debug,
      "Parsing manifest: " ++ toString parsed.source.length ++ " chars, " ++
        toString parsed.tokens.length ++ " tokens"⟩] ++
    (if parsed.cancelled then [⟨.info, "Parse cancelled, returning partial tree"⟩] else []) ++
    (if parsed.aborted then
      [⟨.warning, "Token stream invalidated mid-parse, returning partial tree"⟩] else []) ++
    [⟨.debug,
      "Parsed manifest: " ++ toString parsed.root.children.length ++
        " top-level declarations, " ++ toString parsed.diagnostics.length ++ " diagnostics"⟩]

end Parsed

end Manifest
