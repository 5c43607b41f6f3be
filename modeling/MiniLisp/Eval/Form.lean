import MiniLisp.Eval.Quasiquote

/-!
# The rules for special forms

Each special form checks its operands as it needs them, from left to right, so a fault further right
may be reported only after something further left was evaluated. A binding of `let` is checked just
before its value is computed, and nothing is bound before all values are known.

Forms that only have an effect have no result; what they give carries the span of the form.
-/

namespace MiniLisp

/-- The elements of a part of a form that has to be a proper list. -/
def properList (part : ListPart) (n : Node) : Except EvalError (List Node) :=
  match n.toList? with
  | some items => .ok items
  | none => .error (.specialForm (.improper part) n.span)

/-- The name in a part of a form that has to be a symbol. -/
def expectSymbol (part : NamePart) (n : Node) : Except EvalError String :=
  match n.symbol? with
  | some name => .ok name
  | none => .error (.specialForm (.notSymbol part n) n.span)

/-- The parameters of a procedure: a list of symbols, whose end may be a symbol as well. The parts
are those of the parameter list `whole`. -/
def parametersIn (whole : Node) : Node → Except EvalError Params
  | .atom .nil _ => .ok ⟨[], none⟩
  | .atom (.symbol rest) _ => .ok ⟨[], some rest⟩
  | .pair _ a d _ => do
    let name ← expectSymbol .parameter a
    let params ← parametersIn whole d
    return ⟨name :: params.fixed, params.rest⟩
  | _ => .error (.specialForm (.parameters whole) whole.span)

/-- A new procedure, made in a scope. -/
def makeClosure (name : Option String) (params : Node) (body : List Node) (span : Span)
    (ctx : Context) : Action EvalError Node := do
  if body.isEmpty then .fail (.specialForm .noBody span)
  else
    let params ← .ofExcept (parametersIn params params)
    let label ← .fresh
    return .closure label name params body ctx.scope span

namespace SpecialForm

/-- The failure of a form whose operands have the wrong shape. -/
def malformed {α : Type} (form : SpecialForm) (span : Span) : Action EvalError α :=
  .fail (.specialForm (.shape form) span)

section

variable (run : Runner) (ctx : Context) (span : Span)

/-- A form that gave its effect and has no result. -/
def noResult : Step := .done (.undefined span)

/-- The values of the bindings of `let`, each with its name. -/
def letValues : List Node → Action EvalError (List (String × Node))
  | [] => pure []
  | binding :: rest => match binding.toList? with
    | some [name, form] => do
      let name ← .ofExcept (expectSymbol (.target .letForm) name)
      let value ← run (.eval form ctx)
      let values ← letValues rest
      return (name, value) :: values
    | _ => .fail (.specialForm (.binding binding) binding.span)

/-- The rule for each form, given the elements of its operands. -/
def rule (form : SpecialForm) (operands : List Node) : Action EvalError Step :=
  match form, operands with
  | quote, [datum] => pure (.done datum)
  | quasiquote, [template] => do return .done (← quasi run ctx template 1)
  | define, [] => .fail (.specialForm .nothingDefined span)
  | define, [.atom (.symbol name) _, form] => do
    let value ← run (.eval form ctx)
    .define ctx.scope name value
    return noResult span
  | define, .pair _ target params _ :: body => do
    let name ← .ofExcept (expectSymbol (.target .define) target)
    let value ← makeClosure (some name) params body span ctx
    .define ctx.scope name value
    return noResult span
  | lambda, params :: body => do return .done (← makeClosure none params body span ctx)
  | letForm, bindings :: body => do
    let bindings ← .ofExcept (properList .letBindings bindings)
    let pairs ← letValues run ctx bindings
    let scope ← .enter ctx.scope none pairs
    sequence run (ctx.inside scope) span body
  | ifForm, [condition, consequent] => do
    let value ← run (.eval condition ctx)
    return if value.isTruthy then .eval consequent ctx else noResult span
  | ifForm, [condition, consequent, alternate] => do
    let value ← run (.eval condition ctx)
    return .eval (if value.isTruthy then consequent else alternate) ctx
  | set, [target, form] => do
    let name ← .ofExcept (expectSymbol (.target .set) target)
    let value ← run (.eval form ctx)
    .assign ctx.scope name value target.span
    return noResult span
  | whileForm, condition :: body => pure (.loop condition body ctx span)
  | macroForm, signature :: form :: rest => match signature.toList? with
    | some [name, param] => do
      let name ← .ofExcept (expectSymbol (.target .macroForm) name)
      let param ← .ofExcept (expectSymbol (.target .macroForm) param)
      let label ← .fresh
      .define ctx.scope name (.transformer label name param (form :: rest) ctx.scope span)
      return noResult span
    | _ => malformed macroForm span
  | begin, body => sequence run ctx span body
  | form, _ => malformed form span

/-- A special form: its operands have to be a proper list, and the rest is up to its rule. -/
def step (form : SpecialForm) (operands : Node) : Action EvalError Step := do
  let operands ← .ofExcept (properList (.operands form) operands)
  rule run ctx span form operands

end

end SpecialForm

end MiniLisp
