import MiniLisp.Eval.Step

/-!
# Calls

A procedure runs in a scope of its own that binds its parameters. In a native the operation decides.
A macro runs like a procedure on the operands of its form, which are not evaluated, and what it
makes of them is evaluated in the place of the form, each time anew.

Where the new scope stands is the only difference between the two modes: inside the scope the
procedure was made in, or, if there is a dynamic scope, inside that one, and then it is the dynamic
scope itself while the body is evaluated.
-/

namespace MiniLisp

/-! ### Parameters -/

namespace Params

/-- How many arguments go with some parameters. -/
def arity (p : Params) : Arity :=
  match p.rest with
  | none => .exactly p.fixed.length
  | some _ => .atLeast p.fixed.length

/-- What each parameter is bound to, given the arguments and the list of those left over. -/
def bindings (p : Params) (args : List Node) (leftOver : Node) : List (String × Node) :=
  p.fixed.zip args ++ match p.rest with
    | none => []
    | some rest => [(rest, leftOver)]

/-- The list of the arguments left over, if the parameters ask for it. -/
def leftOver (p : Params) (args : List Node) (span : Span) : Action EvalError Node :=
  match p.rest with
  | none => pure (.nil span)
  | some _ => .adopt (.ofList (args.drop p.fixed.length) span)

end Params

section

variable (run : Runner) (ctx : Context) (span : Span)

/-! ### Procedures of the language -/

/-- Enters a procedure. -/
def Closure.enter (c : Closure) (args : List Node) : Action EvalError Step := do
  if c.params.arity.accepts args.length then
    let leftOver ← c.params.leftOver args span
    let scope ← .enter (ctx.parent c.scope) c.name (c.params.bindings args leftOver)
    sequence run (ctx.inside scope) span c.body
  else .fail (.arguments (.closureCount c.name c.params.arity args.length) span)

/-! ### Natives -/

/-- The step for what a native answers. A value may have new pairs in it. -/
def Reply.step : Reply → Action EvalError Step
  | value n => do return .done (← .adopt n)
  | call procedure args => pure (.apply procedure args ctx span)

/-- The names that are visible in a scope and that no fresh global scope binds. -/
def Store.ownNames (st : Store) (id : ScopeId) : List String :=
  sorted ((st.identifiers id).filter fun name ↦ !(Bindings.names globalBindings).contains name)

/-- A host operation. All that it makes carries the span of the call. -/
def HostOperation.step : HostOperation → List Node → Action EvalError Step
  | scopeName, _ => do
    let store ← .store
    return .done (.string (store.name ctx.scope) span)
  | callSite, _ => do
    let store ← .store
    let dynamic := match ctx.dynamic with
      | some active => .string (store.name active) span
      | none => .nil span
    return .done (← .adopt (.ofList [.string (store.name ctx.scope) span, dynamic,
      .number (.ofInt span.start) span, .number (.ofInt span.stop) span] span))
  | tail, target :: args => match target.procedure? with
    | some procedure => pure (.apply procedure args ctx span)
    | none => .fail (.arguments .nothingToCall span)
  | tail, [] => .fail (.arguments .nothingToCall span)
  | eval, form :: _ => do return .done (← run (.eval form ctx))
  | eval, [] => .fail (.arguments .nothingToEvaluate span)
  | names, _ => do
    let store ← .store
    let symbols := (store.ownNames ctx.scope).map fun name ↦ .symbol name span
    return .done (← .adopt (.ofList symbols span))

/-- A native procedure. -/
def Native.step (p : Native) (args : List Node) : Action EvalError Step :=
  match p.operation with
  | .builtin op => do
    let reply ← .ofExcept (op.run span args)
    reply.step ctx span
  | .host op => op.step run ctx span args

/-- Applies a procedure to arguments. -/
def Procedure.step : Procedure → List Node → Action EvalError Step
  | native p, args => p.step run ctx span args
  | closure c, args => c.enter run ctx span args

/-! ### Macros -/

/-- What a macro makes of the operands of a form. -/
def Transformer.expand (t : Transformer) (operands : Node) : Action EvalError Node := do
  let scope ← .enter (ctx.parent t.scope) none [(t.param, operands)]
  let last ← sequence run (ctx.inside scope) span t.body
  run last

/-! ### Forms -/

/-- The value of the head of a form. -/
def headValue (head : Node) : Action EvalError Node :=
  match head.symbol? with
  | some name => lookup name head.span ctx
  | none => run (.eval head ctx)

/-- A form that is not special: a use of a macro or a call. -/
def callStep (head operands : Node) : Action EvalError Step := do
  let value ← headValue run ctx head
  match value.transformer?, value.procedure? with
  | some t, _ => do
    let expansion ← t.expand run ctx span operands
    .note (.expanded t.name expansion)
    return .eval expansion ctx
  | none, some procedure => do
    let args ← arguments run ctx operands
    return .apply procedure args ctx span
  | none, none => .fail (.notCallable head.symbol? value head.span)

end

end MiniLisp
