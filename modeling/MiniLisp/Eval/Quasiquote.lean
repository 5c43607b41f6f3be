import MiniLisp.Data.QuoteMark
import MiniLisp.Eval.Step

/-!
# Quasiquotation

A template is copied, except that the unquoted parts that belong to the outermost quasiquotation are
replaced by what they evaluate to. Inner quasiquotations and their unquotations are copied too,
which is why the copy keeps count of its depth.

An unquotation is a list of the symbol and one form, wherever it comes up: the end of a list in a
template is one as well if it looks so.
-/

namespace MiniLisp

/-- The operand of a list of a given symbol and one form. -/
def Node.operandOf? (name : String) : Node → Option Node
  | .pair _ (.atom (.symbol s) _) (.pair _ operand (.atom .nil _) _) _ =>
    if s = name then some operand else none
  | _ => none

/-- The mark that a symbol is the long form of, if a template treats it specially. -/
def templateMark? (name : String) : Option QuoteMark :=
  if name = QuoteMark.unquote.name then some .unquote
  else if name = QuoteMark.splice.name then some .splice
  else if name = QuoteMark.quasiquote.name then some .quasiquote
  else none

section

variable (run : Runner) (ctx : Context)

/-- The list of the symbol of a mark and one node, all of it with the span of the template. -/
def rewrap (mark : QuoteMark) (span : Span) (inner : Node) : Action EvalError Node :=
  .adopt (.ofList [.symbol mark.name span, inner] span)

/-- The elements that a splice contributes. -/
def spliced (operand : Node) (span : Span) : Action EvalError (List Node) := do
  let value ← run (.eval operand ctx)
  match value.toList? with
  | some items => return items
  | none => .fail (.specialForm (.spliceOf value) span)

/-- The copy of a template at a depth, which is one in the outermost quasiquotation. -/
def quasi : Node → Nat → Action EvalError Node
  | .pair _ car cdr span, depth =>
    let elements : Action EvalError Node := do
      match if depth = 1 then car.operandOf? QuoteMark.splice.name else none with
      | some operand => do
        let items ← spliced run ctx operand car.span
        let tail ← quasi cdr depth
        .adopt (.listWithTail items tail span)
      | none => do
        let first ← quasi car depth
        let rest ← quasi cdr depth
        .adopt (.pair none first rest span)
    match car, cdr with
    | .atom (.symbol name) _, .pair _ operand (.atom .nil _) _ =>
      match templateMark? name with
      | some .unquote =>
        if depth = 1 then run (.eval operand ctx)
        else do rewrap .unquote span (← quasi operand (depth - 1))
      | some .splice =>
        if depth = 1 then .fail (.specialForm .strayedSplice span)
        else do rewrap .splice span (← quasi operand (depth - 1))
      | some .quasiquote => do rewrap .quasiquote span (← quasi operand (depth + 1))
      | _ => elements
    | _, _ => elements
  | n, _ => pure n

end

end MiniLisp
