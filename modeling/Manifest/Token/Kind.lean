import Manifest.Text.Quoted

/-!
# Kinds of tokens

Every kind has a name and a number that stay as they are; kinds that are always
written alike also have a spelling, and each belongs to one category.
-/

namespace Manifest

inductive TokenKind where
  | whitespace
  | comment
  | blockComment
  | error
  | int
  | float
  | string
  | regexp
  | variable
  | identifier
  | equals
  | equalEqual
  | matches
  | paramAssign
  | bang
  | notEqual
  | notMatch
  | greater
  | greaterEqual
  | rightShift
  | less
  | lessEqual
  | leftShift
  | leftCollector
  | leftExportCollector
  | pipe
  | rightCollector
  | rightExportCollector
  | minus
  | orderArrow
  | tilde
  | notifyArrow
  | plus
  | star
  | percent
  | question
  | dot
  | atSign
  | doubleAt
  | leftBrace
  | rightBrace
  | leftBracket
  | rightBracket
  | leftParen
  | rightParen
  | comma
  | colon
  | semicolon
  | kwAnd
  | kwOr
  | kwAbsent
  | kwPresent
  | kwCase
  | kwClass
  | kwDefine
  | kwDefault
  | kwElse
  | kwElsif
  | kwFalse
  | kwTrue
  | kwIf
  | kwImport
  | kwInherits
  | kwNode
  | kwNil
  | kwUndef
  | kwUnless
  | fnContain
  | fnDebug
  | fnErr
  | fnFail
  | fnInclude
  | fnInfo
  | fnNotice
  | fnRealize
  | fnRequire
  | fnTag
  | fnWarning
  deriving DecidableEq, Repr

inductive TokenCategory where
  | whitespace
  | comment
  | error
  | number
  | string
  | regexp
  | variable
  | identifier
  | operator
  | separator
  | keyword
  | function
  deriving DecidableEq, Repr

namespace TokenCategory

def name : TokenCategory → String
  | .whitespace => "whitespace"
  | .comment => "comment"
  | .error => "error"
  | .number => "number"
  | .string => "string"
  | .regexp => "regexp"
  | .variable => "variable"
  | .identifier => "identifier"
  | .operator => "operator"
  | .separator => "separator"
  | .keyword => "keyword"
  | .function => "function"

def title (category : TokenCategory) : String :=
  category.name.toUpper

end TokenCategory

namespace TokenKind

/-- Kinds whose tokens are written in many ways. -/
def literals : List TokenKind :=
  [.whitespace, .comment, .blockComment, .error, .int, .float, .string, .regexp, .variable,
    .identifier]

def operators : List TokenKind :=
  [.equals, .equalEqual, .matches, .paramAssign, .bang, .notEqual, .notMatch, .greater,
    .greaterEqual, .rightShift, .less, .lessEqual, .leftShift, .leftCollector,
    .leftExportCollector, .pipe, .rightCollector, .rightExportCollector, .minus, .orderArrow,
    .tilde, .notifyArrow, .plus, .star, .percent, .question, .dot, .atSign, .doubleAt]

def separators : List TokenKind :=
  [.leftBrace, .rightBrace, .leftBracket, .rightBracket, .leftParen, .rightParen, .comma,
    .colon, .semicolon]

def keywords : List TokenKind :=
  [.kwAnd, .kwOr, .kwAbsent, .kwPresent, .kwCase, .kwClass, .kwDefine, .kwDefault, .kwElse,
    .kwElsif, .kwFalse, .kwTrue, .kwIf, .kwImport, .kwInherits, .kwNode, .kwNil, .kwUndef,
    .kwUnless]

/-- Built-in functions that are called without parentheses. -/
def functions : List TokenKind :=
  [.fnContain, .fnDebug, .fnErr, .fnFail, .fnInclude, .fnInfo, .fnNotice, .fnRealize,
    .fnRequire, .fnTag, .fnWarning]

def all : List TokenKind :=
  literals ++ operators ++ separators ++ keywords ++ functions

def name : TokenKind → String
  | .whitespace => "WHITESPACE"
  | .comment => "COMMENT"
  | .blockComment => "BLOCK_COMMENT"
  | .error => "ERROR"
  | .int => "INT"
  | .float => "FLOAT"
  | .string => "STRING"
  | .regexp => "REGEXP"
  | .variable => "VARIABLE"
  | .identifier => "IDENTIFIER"
  | .equals => "EQUALS"
  | .equalEqual => "EQUAL_EQUAL"
  | .matches => "MATCH"
  | .paramAssign => "PARAM_ASSIGN"
  | .bang => "NOT"
  | .notEqual => "NOT_EQUAL"
  | .notMatch => "NOT_MATCH"
  | .greater => "GREATER_THAN"
  | .greaterEqual => "GREATER_THAN_OR_EQUAL"
  | .rightShift => "RIGHT_SHIFT"
  | .less => "LESS_THAN"
  | .lessEqual => "LESS_THAN_OR_EQUAL"
  | .leftShift => "LEFT_SHIFT"
  | .leftCollector => "LCOLLECTOR"
  | .leftExportCollector => "LEXPORT_COLLECTOR"
  | .pipe => "PIPE"
  | .rightCollector => "RCOLLECTOR"
  | .rightExportCollector => "REXPORT_COLLECTOR"
  | .minus => "MINUS"
  | .orderArrow => "ORDER_ARROW"
  | .tilde => "TILDE"
  | .notifyArrow => "NOTIFY_ARROW"
  | .plus => "PLUS"
  | .star => "STAR"
  | .percent => "PERCENT"
  | .question => "QUESTION"
  | .dot => "DOT"
  | .atSign => "AT"
  | .doubleAt => "AT_AT"
  | .leftBrace => "LBRACE"
  | .rightBrace => "RBRACE"
  | .leftBracket => "LBRACKET"
  | .rightBracket => "RBRACKET"
  | .leftParen => "LPAREN"
  | .rightParen => "RPAREN"
  | .comma => "COMMA"
  | .colon => "COLON"
  | .semicolon => "SEMICOLON"
  | .kwAnd => "AND"
  | .kwOr => "OR"
  | .kwAbsent => "ABSENT"
  | .kwPresent => "PRESENT"
  | .kwCase => "CASE"
  | .kwClass => "CLASS"
  | .kwDefine => "DEFINE"
  | .kwDefault => "DEFAULT"
  | .kwElse => "ELSE"
  | .kwElsif => "ELSIF"
  | .kwFalse => "FALSE"
  | .kwTrue => "TRUE"
  | .kwIf => "IF"
  | .kwImport => "IMPORT"
  | .kwInherits => "INHERITS"
  | .kwNode => "NODE"
  | .kwNil => "NIL"
  | .kwUndef => "UNDEF"
  | .kwUnless => "UNLESS"
  | .fnContain => "CONTAIN"
  | .fnDebug => "DEBUG"
  | .fnErr => "ERR"
  | .fnFail => "FAIL"
  | .fnInclude => "INCLUDE"
  | .fnInfo => "INFO"
  | .fnNotice => "NOTICE"
  | .fnRealize => "REALIZE"
  | .fnRequire => "REQUIRE"
  | .fnTag => "TAG"
  | .fnWarning => "WARNING"

def value : TokenKind → Nat
  | .whitespace => 10
  | .comment => 11
  | .blockComment => 12
  | .error => 13
  | .int => 20
  | .float => 21
  | .string => 22
  | .regexp => 23
  | .variable => 24
  | .identifier => 25
  | .equals => 30
  | .equalEqual => 31
  | .matches => 32
  | .paramAssign => 33
  | .bang => 34
  | .notEqual => 35
  | .notMatch => 36
  | .greater => 37
  | .greaterEqual => 38
  | .rightShift => 39
  | .less => 40
  | .lessEqual => 41
  | .leftShift => 42
  | .leftCollector => 43
  | .leftExportCollector => 44
  | .pipe => 45
  | .rightCollector => 46
  | .rightExportCollector => 47
  | .minus => 48
  | .orderArrow => 49
  | .tilde => 50
  | .notifyArrow => 51
  | .plus => 52
  | .star => 53
  | .percent => 54
  | .question => 55
  | .dot => 56
  | .atSign => 57
  | .doubleAt => 58
  | .leftBrace => 60
  | .rightBrace => 61
  | .leftBracket => 62
  | .rightBracket => 63
  | .leftParen => 64
  | .rightParen => 65
  | .comma => 66
  | .colon => 67
  | .semicolon => 68
  | .kwAnd => 100
  | .kwOr => 101
  | .kwAbsent => 102
  | .kwPresent => 103
  | .kwCase => 104
  | .kwClass => 105
  | .kwDefine => 106
  | .kwDefault => 107
  | .kwElse => 108
  | .kwElsif => 109
  | .kwFalse => 110
  | .kwTrue => 111
  | .kwIf => 112
  | .kwImport => 113
  | .kwInherits => 114
  | .kwNode => 115
  | .kwNil => 116
  | .kwUndef => 117
  | .kwUnless => 118
  | .fnContain => 150
  | .fnDebug => 151
  | .fnErr => 152
  | .fnFail => 153
  | .fnInclude => 154
  | .fnInfo => 155
  | .fnNotice => 156
  | .fnRealize => 157
  | .fnRequire => 158
  | .fnTag => 159
  | .fnWarning => 160

/-- How a kind is always written, if it is. -/
def spelling? : TokenKind → Option (List Char)
  | .equals => some ['=']
  | .equalEqual => some ['=', '=']
  | .matches => some ['=', '~']
  | .paramAssign => some ['=', '>']
  | .bang => some ['!']
  | .notEqual => some ['!', '=']
  | .notMatch => some ['!', '~']
  | .greater => some ['>']
  | .greaterEqual => some ['>', '=']
  | .rightShift => some ['>', '>']
  | .less => some ['<']
  | .lessEqual => some ['<', '=']
  | .leftShift => some ['<', '<']
  | .leftCollector => some ['<', '|']
  | .leftExportCollector => some ['<', '<', '|']
  | .pipe => some ['|']
  | .rightCollector => some ['|', '>']
  | .rightExportCollector => some ['|', '>', '>']
  | .minus => some ['-']
  | .orderArrow => some ['-', '>']
  | .tilde => some ['~']
  | .notifyArrow => some ['~', '>']
  | .plus => some ['+']
  | .star => some ['*']
  | .percent => some ['%']
  | .question => some ['?']
  | .dot => some ['.']
  | .atSign => some ['@']
  | .doubleAt => some ['@', '@']
  | .leftBrace => some ['{']
  | .rightBrace => some ['}']
  | .leftBracket => some ['[']
  | .rightBracket => some [']']
  | .leftParen => some ['(']
  | .rightParen => some [')']
  | .comma => some [',']
  | .colon => some [':']
  | .semicolon => some [';']
  | .kwAnd => some ['a', 'n', 'd']
  | .kwOr => some ['o', 'r']
  | .kwAbsent => some ['a', 'b', 's', 'e', 'n', 't']
  | .kwPresent => some ['p', 'r', 'e', 's', 'e', 'n', 't']
  | .kwCase => some ['c', 'a', 's', 'e']
  | .kwClass => some ['c', 'l', 'a', 's', 's']
  | .kwDefine => some ['d', 'e', 'f', 'i', 'n', 'e']
  | .kwDefault => some ['d', 'e', 'f', 'a', 'u', 'l', 't']
  | .kwElse => some ['e', 'l', 's', 'e']
  | .kwElsif => some ['e', 'l', 's', 'i', 'f']
  | .kwFalse => some ['f', 'a', 'l', 's', 'e']
  | .kwTrue => some ['t', 'r', 'u', 'e']
  | .kwIf => some ['i', 'f']
  | .kwImport => some ['i', 'm', 'p', 'o', 'r', 't']
  | .kwInherits => some ['i', 'n', 'h', 'e', 'r', 'i', 't', 's']
  | .kwNode => some ['n', 'o', 'd', 'e']
  | .kwNil => some ['n', 'i', 'l']
  | .kwUndef => some ['u', 'n', 'd', 'e', 'f']
  | .kwUnless => some ['u', 'n', 'l', 'e', 's', 's']
  | .fnContain => some ['c', 'o', 'n', 't', 'a', 'i', 'n']
  | .fnDebug => some ['d', 'e', 'b', 'u', 'g']
  | .fnErr => some ['e', 'r', 'r']
  | .fnFail => some ['f', 'a', 'i', 'l']
  | .fnInclude => some ['i', 'n', 'c', 'l', 'u', 'd', 'e']
  | .fnInfo => some ['i', 'n', 'f', 'o']
  | .fnNotice => some ['n', 'o', 't', 'i', 'c', 'e']
  | .fnRealize => some ['r', 'e', 'a', 'l', 'i', 'z', 'e']
  | .fnRequire => some ['r', 'e', 'q', 'u', 'i', 'r', 'e']
  | .fnTag => some ['t', 'a', 'g']
  | .fnWarning => some ['w', 'a', 'r', 'n', 'i', 'n', 'g']
  | _ => none

def isTrivia : TokenKind → Bool
  | .whitespace | .comment | .blockComment => true
  | _ => false

def category : TokenKind → TokenCategory
  | .whitespace => .whitespace
  | .comment | .blockComment => .comment
  | .error => .error
  | .int | .float => .number
  | .string => .string
  | .regexp => .regexp
  | .variable => .variable
  | .identifier => .identifier
  | .kwAnd | .kwOr => .operator
  | kind =>
      if operators.contains kind then .operator
      else if separators.contains kind then .separator
      else if keywords.contains kind then .keyword
      else .function

inductive LookupError where
  | unknownName (name : List Char)
  | unknownValue (value : Int)
  deriving DecidableEq, Repr

def LookupError.message : LookupError → String
  | .unknownName name => Quoted.render name
  | .unknownValue value => toString value ++ " is not a valid TokenKind"

def ofName (name : String) : Except LookupError TokenKind :=
  match all.find? fun kind => kind.name == name with
  | some kind => .ok kind
  | none => .error (.unknownName name.toList)

def ofValue (value : Int) : Except LookupError TokenKind :=
  match all.find? fun kind => (kind.value : Int) == value with
  | some kind => .ok kind
  | none => .error (.unknownValue value)

def operator? (spelling : List Char) : Option TokenKind :=
  operators.find? fun kind => kind.spelling? == some spelling

def separator? (spelling : List Char) : Option TokenKind :=
  separators.find? fun kind => kind.spelling? == some spelling

end TokenKind

end Manifest
