import MiniLisp.Program.Exec
import MiniLisp.Source.Position

/-!
# Reports

A report is an error made ready to be shown next to the text it is about: a headline, a label for
the piece of text at fault, and the offset where that piece begins. An error without a place is
shown at the end of the text.
-/

namespace MiniLisp

/-- An error made ready to be shown. -/
structure Report where
  headline : String
  label : String
  offset : Nat
deriving DecidableEq

/-- The line and column of a report in the text it is about. -/
def Report.position? (r : Report) (source : String) : Option Source.Position :=
  Source.position? source.toList r.offset

/-- The report of an error in reading a text. -/
def ReadError.report (e : ReadError) (source : String) : Report :=
  let offset := match e.span? with
    | some span => span.start
    | none => byteLength source.toList
  match e with
  | lexical fault _ => ⟨"Lexer Error", fault.message, offset⟩
  | unexpectedToken found wanted =>
    ⟨"Unexpected token: " ++ found.kind.label, "Expected " ++ wanted.text, offset⟩
  | unexpectedEnd missing => ⟨"Unexpected EOF", "Expected " ++ missing.text, offset⟩
  | misplacedDot _ => ⟨"Invalid Dot Syntax", "Unexpected dot", offset⟩

/-- The report of an error in evaluating a form. -/
def EvalError.report (e : EvalError) : Report :=
  match e with
  | unbound name span => ⟨"Unbound symbol \x60" ++ name ++ "\x60",
      "This symbol is not defined in the current scope", span.start⟩
  | notCallable _ value span => ⟨e.message, "This evaluates to " ++ value.text, span.start⟩
  | arguments fault span => ⟨"Invalid arguments:", fault.message, span.start⟩
  | specialForm _ span =>
    ⟨e.message, "This special form is malformed or incomplete", span.start⟩
  | number fault span => ⟨"Arithmetic error", fault.message, span.start⟩

/-- The report of an error in a program. -/
def ProgramError.report (e : ProgramError) (source : String) : Report :=
  match e with
  | read cause => cause.report source
  | eval cause => cause.report

end MiniLisp
