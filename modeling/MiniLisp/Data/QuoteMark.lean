/-!
# Quote marks

Four marks in a text are short forms: each stands for a list of a symbol and the form after it.
-/

namespace MiniLisp

/-- The four marks that stand for a list of a symbol and the form after them. -/
inductive QuoteMark where
  | quote | quasiquote | unquote | splice
deriving DecidableEq

namespace QuoteMark

/-- The symbol that a mark stands for. -/
def name : QuoteMark → String
  | quote => "quote"
  | quasiquote => "quasiquote"
  | unquote => "unquote"
  | splice => "unquote-splicing"

/-- A mark is known by its symbol. -/
theorem name_injective {a b : QuoteMark} (h : a.name = b.name) : a = b := by
  revert h
  cases a <;> cases b <;> decide

end QuoteMark

end MiniLisp
