/-!
# Special forms

A form whose head is one of these names is treated by the evaluator itself, whatever the name may be
bound to.
-/

namespace MiniLisp

/-- The special forms. -/
inductive SpecialForm where
  | quote
  | quasiquote
  | define
  | lambda
  | letForm
  | ifForm
  /-- The assignment, which has two names. -/
  | set
  | whileForm
  | macroForm
  | begin
deriving DecidableEq

namespace SpecialForm

/-- The name of a special form; of the two names of the assignment, the one used in messages. -/
def name : SpecialForm → String
  | quote => "quote"
  | quasiquote => "quasiquote"
  | define => "define"
  | lambda => "lambda"
  | letForm => "let"
  | ifForm => "if"
  | set => "set!"
  | whileForm => "while"
  | macroForm => "defmacro"
  | begin => "begin"

/-- All names of special forms, with what they stand for. -/
def table : List (String × SpecialForm) := [
  ("quote", quote), ("quasiquote", quasiquote), ("define", define), ("lambda", lambda),
  ("let", letForm), ("if", ifForm), ("set!", set), ("set", set), ("while", whileForm),
  ("defmacro", macroForm), ("begin", begin)]

/-- The special form that a name stands for. -/
def ofName? (name : String) : Option SpecialForm := table.lookup name

/-- All names of special forms. -/
def names : List String := table.map Prod.fst

/-- A special form is known by its name. -/
theorem ofName?_name (f : SpecialForm) : ofName? f.name = some f := by
  cases f <;> decide

end SpecialForm

end MiniLisp
