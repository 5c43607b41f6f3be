import MiniLisp.Eval.Builtin
import MiniLisp.Eval.Machine

/-!
# Steps

Evaluation goes in steps. What a form in tail position stands for is not evaluated on the spot but
handed back as the next step, so a loop written as a tail call takes no room. The evaluation of a
form that is not in tail position is a run of its own.

The rules for the single kinds of forms only differ in which runs they need and which step they hand
back, so they are all given relative to a way to run steps (`Runner`).
-/

namespace MiniLisp

/-- Where a form is evaluated. -/
structure Context where
  /-- The scope in which the names of the form are looked up. -/
  scope : ScopeId
  /-- If given, procedures and macros run inside this scope, which is that of their caller, instead
  of the one they were made in. -/
  dynamic : Option ScopeId
deriving DecidableEq

namespace Context

/-- The scope around the body of a procedure or macro that was made in a scope. -/
def parent (ctx : Context) (home : ScopeId) : ScopeId := ctx.dynamic.getD home

/-- The place inside a scope that was just entered. -/
def inside (ctx : Context) (scope : ScopeId) : Context := ⟨scope, ctx.dynamic.map fun _ ↦ scope⟩

end Context

/-- What is left to be done. -/
inductive Step where
  | done (value : Node)
  | eval (form : Node) (ctx : Context)
  | apply (procedure : Procedure) (args : List Node) (ctx : Context) (span : Span)
  /-- One more round of a loop, whose result is missing and has the span of the loop. -/
  | loop (condition : Node) (body : List Node) (ctx : Context) (span : Span)

/-- A way to run a step to its end. -/
abbrev Runner : Type := Step → Action EvalError Node

/-- What a symbol is bound to: in the scope itself, or else in a dynamic scope other than that. -/
def lookup (name : String) (span : Span) (ctx : Context) : Action EvalError Node := fun m ↦
  match m.store.get? name ctx.scope with
  | some value => .ok value m
  | none => match ctx.dynamic with
    | none => .error (.unbound name span) m
    | some active =>
      if active = ctx.scope then .error (.unbound name span) m
      else match m.store.get? name active with
        | some value => .ok value m
        | none => .error (.unbound name span) m

section

variable (run : Runner)

/-- Evaluates forms one after the other for what they do. -/
def effects (ctx : Context) : List Node → Action EvalError Unit
  | [] => pure ()
  | form :: rest => do
    let _ ← run (.eval form ctx)
    effects ctx rest

/-- Evaluates all forms of a body but the last one, which is left to be done. An empty body has no
result. -/
def sequence (ctx : Context) (span : Span) : List Node → Action EvalError Step
  | [] => pure (.done (.undefined span))
  | [last] => pure (.eval last ctx)
  | form :: rest => do
    let _ ← run (.eval form ctx)
    sequence ctx span rest

/-- The values of the operands of a call, evaluated from left to right. -/
def arguments (ctx : Context) : Node → Action EvalError (List Node)
  | .atom .nil _ => pure []
  | .pair _ operand rest _ => do
    let value ← run (.eval operand ctx)
    let values ← arguments ctx rest
    return value :: values
  | rest => .fail (.arguments (.improper rest) rest.span)

end

end MiniLisp
