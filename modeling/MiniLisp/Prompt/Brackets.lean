import MiniLisp.Token.Lexer

/-!
# Brackets in a line

Which brackets belong together (`matching?`), and whether a text that is being typed can be read yet
(`verdict`). Brackets that have no partner do not keep others from being matched.
-/

namespace MiniLisp.Prompt

/-- The token begins or ends at an offset. -/
def touches (offset : Nat) (t : Token) : Bool := t.span.start == offset || t.span.stop == offset

/-- The first matching pair of brackets from a place on of which one touches the offset, as indices.
The opening brackets that have no partner yet come with their indices, the innermost first. -/
def matchingFrom? (offset index : Nat) (opened : List (Nat × Token)) :
    List Token → Option (Nat × Nat)
  | [] => none
  | t :: rest => match t.kind with
    | .leftParen => matchingFrom? offset (index + 1) ((index, t) :: opened) rest
    | .rightParen => match opened with
      | [] => matchingFrom? offset (index + 1) [] rest
      | (start, left) :: opened =>
        if touches offset left || touches offset t then some (start, index)
        else matchingFrom? offset (index + 1) opened rest
    | _ => matchingFrom? offset (index + 1) opened rest

/-- The matching pair of brackets at an offset. Of several pairs it is the one that closes first. -/
def matching? (tokens : List Token) (offset : Nat) : Option (Nat × Nat) :=
  matchingFrom? offset 0 [] tokens

/-- What can be said about a text that is being typed. -/
inductive Verdict where
  /-- Every list is closed. -/
  | complete
  /-- A list or a string is still open. -/
  | incomplete
  /-- A closing bracket has no partner. -/
  | unmatched (offset : Nat)
deriving DecidableEq

/-- The verdict on a text, given its tokens from a place on at which a number of lists is open. -/
def verdictFrom (depth : Nat) : List Token → Verdict
  | [] => if depth = 0 then .complete else .incomplete
  | t :: rest => match t.kind with
    | .leftParen => verdictFrom (depth + 1) rest
    | .rightParen => match depth with
      | 0 => .unmatched t.span.start
      | depth + 1 => verdictFrom depth rest
    | .openString => .incomplete
    | _ => verdictFrom depth rest

/-- The verdict on a text. -/
def verdict (text : String) : Verdict := verdictFrom 0 (tokenize text)

end MiniLisp.Prompt
