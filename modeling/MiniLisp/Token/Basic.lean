import MiniLisp.Source.Span

/-!
# Tokens

A token is a piece of source text that the reader treats as a unit, with its kind and the place it
was found at. Malformed pieces are tokens too: the lexer never fails and leaves it to the reader to
complain.
-/

namespace MiniLisp

/-- The kinds of tokens. -/
inductive TokenKind where
  | leftParen
  | rightParen
  | dot
  | quote
  | quasiquote
  | unquote
  | splice
  | symbol
  | number
  | boolean
  | string
  /-- A string whose closing quote is missing. -/
  | openString
  | regex
  /-- A character that can start no token. -/
  | invalid
deriving DecidableEq

/-- The name of a kind in messages. -/
def TokenKind.label : TokenKind → String
  | leftParen => "'('"
  | rightParen => "')'"
  | dot => "'.'"
  | quote => "'''"
  | quasiquote => "'`'"
  | unquote => "','"
  | splice => "',@'"
  | symbol => "symbol"
  | number => "number"
  | boolean => "boolean"
  | string => "string"
  | openString => "unterminated string"
  | regex => "regex"
  | invalid => "invalid token"

/-- A piece of source text. -/
structure Token where
  kind : TokenKind
  /-- The text exactly as it stands in the source, delimiters included. -/
  text : String
  span : Span
deriving DecidableEq

end MiniLisp
