import Manifest.Text.TextRange

/-!
# Diagnostics

What the lexer and the parser report about a manifest, and how the reports of
several stages are put into one list.
-/

namespace Manifest

inductive Severity where
  | error
  | warning
  deriving DecidableEq, Repr

namespace Severity

def name : Severity → String
  | .error => "error"
  | .warning => "warning"

def title : Severity → String
  | .error => "ERROR"
  | .warning => "WARNING"

end Severity

inductive Finding where
  | unterminatedString
  | unterminatedRegexp
  | unterminatedComment
  | invalidCharacter
  | malformedClassReference
  | unexpectedResourceTitle
  | missingTitleColon
  | expectedBody
  | unsupportedTopLevelStatement
  deriving DecidableEq, Repr

namespace Finding

def all : List Finding :=
  [.unterminatedString, .unterminatedRegexp, .unterminatedComment, .invalidCharacter,
    .malformedClassReference, .unexpectedResourceTitle, .missingTitleColon, .expectedBody,
    .unsupportedTopLevelStatement]

def code : Finding → String
  | .unterminatedString => "LEXER_UNTERMINATED_STRING"
  | .unterminatedRegexp => "LEXER_UNTERMINATED_REGEXP"
  | .unterminatedComment => "LEXER_UNTERMINATED_COMMENT"
  | .invalidCharacter => "LEXER_INVALID_CHARACTER"
  | .malformedClassReference => "PARSER_MALFORMED_CLASS_REFERENCE"
  | .unexpectedResourceTitle => "PARSER_UNEXPECTED_RESOURCE_TITLE"
  | .missingTitleColon => "PARSER_MISSING_TITLE_COLON"
  | .expectedBody => "PARSER_EXPECTED_BODY"
  | .unsupportedTopLevelStatement => "PARSER_UNSUPPORTED_TOP_LEVEL_STATEMENT"

/-- The wording of a finding where the report brings none of its own. -/
def message : Finding → String
  | .unterminatedString => "Unterminated string literal."
  | .unterminatedRegexp => "Unterminated regular expression."
  | .unterminatedComment => "Unterminated block comment."
  | .invalidCharacter => "Invalid character."
  | .malformedClassReference => "Malformed class reference, expected `Class['name']`."
  | .unexpectedResourceTitle =>
      "Expected a resource title (string, variable, name or array)."
  | .missingTitleColon => "Expected `:` after the resource title."
  | .expectedBody => "Expected `\x7b` to open the declaration body."
  | .unsupportedTopLevelStatement =>
      "Top-level statements other than class, define and node are not represented in the tree."

def hint : Finding → Option String
  | .unterminatedString => some "Close the string with the same quote it was opened with."
  | .unterminatedRegexp =>
      some "Close the regular expression with an unescaped `/` on the same line."
  | .unterminatedComment => some "Close the comment with `*/`."
  | .unsupportedTopLevelStatement =>
      some "Wrap the statements in a class or node to see them in the outline."
  | _ => none

/-- Statements outside declarations are warned about; all else is an error. -/
def severity : Finding → Severity
  | .unsupportedTopLevelStatement => .warning
  | _ => .error

def category : Finding → String
  | .unterminatedString | .unterminatedRegexp | .unterminatedComment | .invalidCharacter =>
      "lexer"
  | _ => "parser"

def ofCode? (code : String) : Option Finding :=
  all.find? fun finding => finding.code == code

end Finding

structure Diagnostic where
  finding : Finding
  range : TextRange
  message : String
  deriving DecidableEq, Repr

namespace Diagnostic

def of (finding : Finding) (range : TextRange) (message : Option String) : Diagnostic :=
  ⟨finding, range, message.getD finding.message⟩

def start (diagnostic : Diagnostic) : Nat :=
  diagnostic.range.start

def code (diagnostic : Diagnostic) : String :=
  diagnostic.finding.code

def severity (diagnostic : Diagnostic) : Severity :=
  diagnostic.finding.severity

def insertByStart (diagnostic : Diagnostic) : List Diagnostic → List Diagnostic
  | [] => [diagnostic]
  | first :: rest =>
      if diagnostic.start ≤ first.start then
        diagnostic :: first :: rest
      else
        first :: insertByStart diagnostic rest

/-- Order reports by start; reports of one start keep their order. -/
def sortByStart (diagnostics : List Diagnostic) : List Diagnostic :=
  diagnostics.foldr insertByStart []

/-- All reports of several groups, ordered by start, those of earlier groups first. -/
def collect (groups : List (List Diagnostic)) : List Diagnostic :=
  sortByStart groups.flatten

def hasErrors (diagnostics : List Diagnostic) : Bool :=
  diagnostics.any fun diagnostic => diagnostic.severity == .error

end Diagnostic

end Manifest
