import MiniLisp.Data.QuoteMark
import MiniLisp.Regex.Literal
import MiniLisp.Token.Basic

/-!
# What the reader complains about

An error is kept as its cause; the wording is in `ReadError.message`. Every error has a place in the
text, except that of a text that ends too early.
-/

namespace MiniLisp

/-- What is wrong with the text of a token. -/
inductive LexicalFault where
  | unterminatedString
  | invalidNumber (text : String)
  | unknownEscape (c : Char)
  | invalidRegex (cause : RegexLiteral.Invalid)
  | invalidToken (text : String)
deriving DecidableEq

/-- The message of a fault in a token. -/
def LexicalFault.message : LexicalFault → String
  | unterminatedString => "Unterminated string literal"
  | invalidNumber text => "Invalid number format: '" ++ text ++ "'"
  | unknownEscape c => "Unknown escape sequence: '\\" ++ c.toString ++ "'"
  | invalidRegex _ => "Invalid regex literal:"
  | invalidToken text => "Invalid token: '" ++ text ++ "'"

/-- What could have stood in the place of an unexpected token. -/
inductive Wanted where
  | expression | atom
deriving DecidableEq

/-- The words for what could have stood there. -/
def Wanted.text : Wanted → String
  | expression => "an expression"
  | atom => "an atom"

/-- What is missing at the end of a text. -/
inductive Missing where
  /-- The bracket that closes a list. -/
  | closing
  /-- The form after a mark. -/
  | operand (mark : QuoteMark)
deriving DecidableEq

/-- The words for what is missing. -/
def Missing.text : Missing → String
  | closing => "')'"
  | operand mark => "an expression after " ++ mark.name

/-- Why a text cannot be read. -/
inductive ReadError where
  | lexical (fault : LexicalFault) (span : Span)
  | unexpectedToken (found : Token) (wanted : Wanted)
  | unexpectedEnd (missing : Missing)
  /-- A dot with no element before it or not exactly one after it. -/
  | misplacedDot (span : Span)
deriving DecidableEq

namespace ReadError

/-- The message of an error. -/
def message : ReadError → String
  | lexical fault _ => fault.message
  | unexpectedToken found wanted =>
    "Unexpected token '" ++ found.text ++ "', expected " ++ wanted.text
  | unexpectedEnd missing => "Unexpected end of input, expected " ++ missing.text
  | misplacedDot span => "Invalid dotted pair syntax at " ++ span.render

/-- The place of an error in the text. -/
def span? : ReadError → Option Span
  | lexical _ span => some span
  | unexpectedToken found _ => some found.span
  | unexpectedEnd _ => none
  | misplacedDot span => some span

end ReadError

end MiniLisp
