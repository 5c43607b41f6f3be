import MiniLisp.Prompt.Brackets
import MiniLisp.Prompt.Completion

/-!
# Highlighting

A line is coloured token by token, with the control sequences that terminals understand. Between the
tokens it stays as it is.
-/

namespace MiniLisp.Prompt

/-- The colours of tokens. -/
inductive Colour where
  | red | green | yellow | magenta | cyan | boldBlue
deriving DecidableEq

/-- The parameters of the control sequence for a colour. -/
def Colour.code : Colour → String
  | red => "31"
  | green => "32"
  | yellow => "33"
  | magenta => "35"
  | cyan => "36"
  | boldBlue => "1;34"

/-- A text in a colour. -/
def Colour.paint (c : Colour) (text : String) : String :=
  "\x1b[" ++ c.code ++ "m" ++ text ++ "\x1b[0m"

/-- The colour of the token at an index, given the names of macros and the brackets to show. -/
def colour? (macroNames : List String) (brackets : Option (Nat × Nat)) (index : Nat) (t : Token) :
    Option Colour :=
  match t.kind with
  | .string | .openString => some .green
  | .regex => some .magenta
  | .number | .boolean => some .cyan
  | .invalid => some .red
  | .symbol => if macroNames.contains t.text then some .yellow else none
  | .leftParen | .rightParen => match brackets with
    | some (left, right) => if left = index ∨ right = index then some .boldBlue else none
    | none => none
  | _ => none

/-- Writes the tokens of a line from an index on, with what stands between them. The line is given
from an offset on. -/
def paintFrom (colour? : Nat → Token → Option Colour) (index offset : Nat) (line : List Char) :
    List Token → String
  | [] => String.ofList line
  | t :: rest =>
    let (gap, line) := splitBytes (t.span.start - offset) line
    let (_, line) := splitBytes (t.span.stop - t.span.start) line
    let painted := match colour? index t with
      | some c => c.paint t.text
      | none => t.text
    String.ofList gap ++ painted ++ paintFrom colour? (index + 1) t.span.stop line rest

/-- The coloured line, with the cursor at an offset. -/
def highlight (st : Store) (scope : ScopeId) (line : String) (offset : Nat) : String :=
  let tokens := tokenize line
  paintFrom (colour? (st.transformerNames scope) (matching? tokens offset)) 0 0 line.toList tokens

end MiniLisp.Prompt
