import MiniLisp.Eval.Run

/-!
# Evaluation in direct style

An evaluator that hands nothing back. Where the rules of the machine end in a step that is still to
be done, such as the last form of a body, the chosen branch, the expansion of a macro or a call, the
rules here make the recursive call themselves and give its value.

The rules are given relative to the recursive calls that they make (`Calls`). What a form needs on
the way, the operands of a call, the parts of a template or the values of `let`, is computed by the
functions that the machine uses too, since those hand nothing back either; only the calls that they
make are those of this evaluator (`Calls.run`).

Recursion is bounded by fuel, which is the depth that the calls may have.
-/

namespace MiniLisp

namespace Direct

/-- The recursive calls that a rule may make, each of which ends in a value. -/
structure Calls where
  eval : Node → Context → Action EvalError Node
  apply : Procedure → List Node → Context → Span → Action EvalError Node
  loop : Node → List Node → Context → Span → Action EvalError Node

/-- The call that does what a step says. -/
def Calls.run (calls : Calls) : Runner
  | .done value => pure value
  | .eval form ctx => calls.eval form ctx
  | .apply procedure args ctx span => calls.apply procedure args ctx span
  | .loop condition body ctx span => calls.loop condition body ctx span

section

variable (calls : Calls) (ctx : Context) (span : Span)

/-- The value of a body is that of its last form. -/
def body : List Node → Action EvalError Node
  | [] => pure (.undefined span)
  | [last] => calls.eval last ctx
  | form :: rest => do
    let _ ← calls.eval form ctx
    body rest

/-! ### Special forms -/

/-- The value of each special form, given the elements of its operands. -/
def special (form : SpecialForm) (operands : List Node) : Action EvalError Node :=
  match form, operands with
  | .quote, [datum] => pure datum
  | .quasiquote, [template] => quasi calls.run ctx template 1
  | .define, [] => .fail (.specialForm .nothingDefined span)
  | .define, [.atom (.symbol name) _, form] => do
    let value ← calls.eval form ctx
    .define ctx.scope name value
    return .undefined span
  | .define, .pair _ target params _ :: forms => do
    let name ← .ofExcept (expectSymbol (.target .define) target)
    let value ← makeClosure (some name) params forms span ctx
    .define ctx.scope name value
    return .undefined span
  | .lambda, params :: forms => makeClosure none params forms span ctx
  | .letForm, bindings :: forms => do
    let bindings ← .ofExcept (properList .letBindings bindings)
    let pairs ← SpecialForm.letValues calls.run ctx bindings
    let scope ← .enter ctx.scope none pairs
    body calls (ctx.inside scope) span forms
  | .ifForm, [condition, consequent] => do
    let value ← calls.eval condition ctx
    if value.isTruthy then calls.eval consequent ctx else return .undefined span
  | .ifForm, [condition, consequent, alternate] => do
    let value ← calls.eval condition ctx
    if value.isTruthy then calls.eval consequent ctx else calls.eval alternate ctx
  | .set, [target, form] => do
    let name ← .ofExcept (expectSymbol (.target .set) target)
    let value ← calls.eval form ctx
    .assign ctx.scope name value target.span
    return .undefined span
  | .whileForm, condition :: forms => calls.loop condition forms ctx span
  | .macroForm, signature :: form :: rest => match signature.toList? with
    | some [name, param] => do
      let name ← .ofExcept (expectSymbol (.target .macroForm) name)
      let param ← .ofExcept (expectSymbol (.target .macroForm) param)
      let label ← .fresh
      .define ctx.scope name (.transformer label name param (form :: rest) ctx.scope span)
      return .undefined span
    | _ => SpecialForm.malformed .macroForm span
  | .begin, forms => body calls ctx span forms
  | form, _ => SpecialForm.malformed form span

/-! ### Calls -/

/-- The value of a call of a procedure of the language is that of its body. -/
def enter (c : Closure) (args : List Node) : Action EvalError Node := do
  if c.params.arity.accepts args.length then
    let leftOver ← c.params.leftOver args span
    let scope ← .enter (ctx.parent c.scope) c.name (c.params.bindings args leftOver)
    body calls (ctx.inside scope) span c.body
  else .fail (.arguments (.closureCount c.name c.params.arity args.length) span)

/-- The value of a call of a host operation. One that hands its call over makes that call. -/
def host : HostOperation → List Node → Action EvalError Node
  | .scopeName, _ => do
    let store ← .store
    return .string (store.name ctx.scope) span
  | .callSite, _ => do
    let store ← .store
    let dynamic := match ctx.dynamic with
      | some active => .string (store.name active) span
      | none => .nil span
    .adopt (.ofList [.string (store.name ctx.scope) span, dynamic,
      .number (.ofInt span.start) span, .number (.ofInt span.stop) span] span)
  | .tail, target :: args => match target.procedure? with
    | some procedure => calls.apply procedure args ctx span
    | none => .fail (.arguments .nothingToCall span)
  | .tail, [] => .fail (.arguments .nothingToCall span)
  | .eval, form :: _ => calls.eval form ctx
  | .eval, [] => .fail (.arguments .nothingToEvaluate span)
  | .names, _ => do
    let store ← .store
    let symbols := (store.ownNames ctx.scope).map fun name ↦ .symbol name span
    .adopt (.ofList symbols span)

/-- The value of a call of a native procedure. One that answers with a call makes that call. -/
def native (p : Native) (args : List Node) : Action EvalError Node :=
  match p.operation with
  | .builtin op => do
    match ← .ofExcept (op.run span args) with
    | .value n => .adopt n
    | .call procedure args => calls.apply procedure args ctx span
  | .host op => host calls ctx span op args

/-- The value of a call of a procedure. -/
def apply (p : Procedure) (args : List Node) : Action EvalError Node := do
  .note (.applying p.name? args.length)
  match p with
  | .native p => native calls ctx span p args
  | .closure c => enter calls ctx span c args

/-- What a macro makes of the operands of a form. -/
def expand (t : Transformer) (operands : Node) : Action EvalError Node := do
  let scope ← .enter (ctx.parent t.scope) none [(t.param, operands)]
  body calls (ctx.inside scope) span t.body

/-- The value of a form that is not special: that of the expansion, or of the call. -/
def call (head operands : Node) : Action EvalError Node := do
  let value ← headValue calls.run ctx head
  match value.transformer?, value.procedure? with
  | some t, _ => do
    let expansion ← expand calls ctx span t operands
    .note (.expanded t.name expansion)
    calls.eval expansion ctx
  | none, some procedure => do
    let args ← arguments calls.run ctx operands
    calls.apply procedure args ctx span
  | none, none => .fail (.notCallable head.symbol? value head.span)

/-! ### Forms -/

/-- The value of a form. -/
def eval (form : Node) : Action EvalError Node :=
  match form with
  | .atom (.symbol name) span => lookup name span ctx
  | .pair _ head operands span => match head.symbol?.bind SpecialForm.ofName? with
    | some form => do
      let operands ← .ofExcept (properList (.operands form) operands)
      special calls ctx span form operands
    | none => call calls ctx span head operands
  | n => pure n

/-- The missing value of a loop. -/
def loop (condition : Node) (forms : List Node) : Action EvalError Node := do
  let value ← calls.eval condition ctx
  if value.isTruthy then
    effects calls.run ctx forms
    calls.loop condition forms ctx span
  else return .undefined span

end

/-- The recursive calls that may be made at a depth. -/
def calls : Nat → Calls
  | 0 => ⟨fun _ _ _ ↦ .outOfFuel, fun _ _ _ _ _ ↦ .outOfFuel, fun _ _ _ _ _ ↦ .outOfFuel⟩
  | fuel + 1 => {
      eval := fun form ctx ↦ eval (calls fuel) ctx form
      apply := fun procedure args ctx span ↦ apply (calls fuel) ctx span procedure args
      loop := fun condition forms ctx span ↦ loop (calls fuel) ctx span condition forms }

/-- The value of a form in a place, by direct recursion. -/
def evaluate (fuel : Nat) (form : Node) (ctx : Context) : Action EvalError Node := do
  let form ← .adopt form
  (calls fuel).eval form ctx

end Direct

end MiniLisp
