import MiniLisp.Data.Equality
import MiniLisp.Eval.Error

/-!
# The built-in operations

What each built-in operation makes of its arguments. None of them looks at a scope or changes
anything: an operation answers with a value, or with a call that is to be made in its place, which
is how `apply` works.

Errors about the number or the type of arguments are placed at the whole call, and those about
something that should have been a list at the argument itself.
-/

namespace MiniLisp

/-- What a native procedure answers. -/
inductive Reply where
  | value (n : Node)
  /-- Call a procedure, with the arguments given. -/
  | call (procedure : Procedure) (args : List Node)

namespace Builtin

/-- How many arguments an operation takes. -/
def arity : Builtin → Arity
  | add | mul | list | concat => .atLeast 0
  | sub | div | apply => .atLeast 1
  | numEq | less | lessEq | greater | greaterEq => .atLeast 2
  | expt | same | identical | cons => .exactly 2
  | not | car | cdr | cadr | string | typeName => .exactly 1
  | isNull | isPair | isNumber | isBoolean | isSymbol | isString | isProcedure => .exactly 1

/-! ### Numbers -/

/-- The number that is the argument at a place, counted from one. -/
def expectNumber (op : Builtin) (span : Span) (place : Nat) (n : Node) :
    Except EvalError Number :=
  match n.number? with
  | some x => .ok x
  | none => .error (.arguments (.notNumber op place n) span)

/-- Takes the arguments from a place on into a result, one after the other. -/
def foldNumbers (op : Builtin) (span : Span) (f : Number → Number → Except NumberError Number)
    (place : Nat) (acc : Number) : List Node → Except EvalError Number
  | [] => .ok acc
  | n :: rest => match expectNumber op span place n with
    | .error e => .error e
    | .ok x => match f acc x with
      | .error fault => .error (.number fault span)
      | .ok acc => foldNumbers op span f (place + 1) acc rest

/-- An operation that starts from its first argument. With that argument alone it starts from a
neutral number instead. -/
def foldFromFirst (op : Builtin) (span : Span) (neutral : Number)
    (f : Number → Number → Except NumberError Number) : List Node → Except EvalError Number
  | [] => .ok neutral
  | [n] => foldNumbers op span f 1 neutral [n]
  | n :: rest => match expectNumber op span 1 n with
    | .error e => .error e
    | .ok x => foldNumbers op span f 2 x rest

/-- Each number has an order to the next one that the test accepts. All arguments from a place on
are looked at, also when the answer is known. -/
def ordered (op : Builtin) (span : Span) (test : Ordering → Bool) (place : Nat) (result : Bool)
    (last : Number) : List Node → Except EvalError Bool
  | [] => .ok result
  | n :: rest => match expectNumber op span place n with
    | .error e => .error e
    | .ok x => ordered op span test (place + 1)
        (result && match last.compare? x with
          | some order => test order
          | none => false) x rest

/-- Each argument has an order to the next one that the test accepts. -/
def compareAll (op : Builtin) (span : Span) (test : Ordering → Bool) :
    List Node → Except EvalError Bool
  | [] => .ok true
  | n :: rest => match expectNumber op span 1 n with
    | .error e => .error e
    | .ok x => ordered op span test 2 true x rest

/-! ### Lists -/

/-- The parts of a pair. -/
def expectPair (op : Builtin) : Node → Except EvalError (Node × Node)
  | .pair _ a d _ => .ok (a, d)
  | n => .error (.arguments (.notPair op n) n.span)

/-- The arguments of the call that `apply` stands for: those given one by one, and then the elements
of the last one. -/
def spread : List Node → Except EvalError (List Node)
  | [] => .ok []
  | [last] => match last.toList? with
    | some items => .ok items
    | none => .error (.arguments (.notSpread last) last.span)
  | n :: rest => match spread rest with
    | .ok args => .ok (n :: args)
    | .error e => .error e

/-- An argument that is not the last one is spread as it is. -/
theorem spread_cons (first second : Node) (rest : List Node) :
    spread (first :: second :: rest) = (spread (second :: rest)).map (first :: ·) := by
  conv => lhs; unfold spread
  cases spread (second :: rest) <;> rfl

/-! ### All operations -/

/-- The answer that is a number. -/
def numeric (span : Span) : Except EvalError Number → Except EvalError Reply
  | .ok x => .ok (.value (.number x span))
  | .error e => .error e

/-- The answer that is a truth value. -/
def truth (span : Span) : Except EvalError Bool → Except EvalError Reply
  | .ok b => .ok (.value (.boolean b span))
  | .error e => .error e

/-- The answer to a right number of arguments. -/
def answer (op : Builtin) (span : Span) (args : List Node) : Except EvalError Reply :=
  match op, args with
  | add, args => numeric span (foldNumbers op span (fun a b ↦ .ok (a.add b)) 1 (.ofInt 0) args)
  | mul, args => numeric span (foldNumbers op span (fun a b ↦ .ok (a.mul b)) 1 (.ofInt 1) args)
  | sub, [n] => numeric span ((expectNumber op span 1 n).map Number.neg)
  | sub, args => numeric span (foldFromFirst op span (.ofInt 0) (fun a b ↦ .ok (a.sub b)) args)
  | div, args => numeric span (foldFromFirst op span (.ofInt 1) Number.div args)
  | expt, args => numeric span (foldFromFirst op span (.ofInt 1) Number.pow args)
  | numEq, args => truth span (compareAll op span Ordering.isEq args)
  | less, args => truth span (compareAll op span Ordering.isLT args)
  | lessEq, args => truth span (compareAll op span Ordering.isLE args)
  | greater, args => truth span (compareAll op span Ordering.isGT args)
  | greaterEq, args => truth span (compareAll op span Ordering.isGE args)
  | same, [a, b] => .ok (.value (.boolean (a.same b) span))
  | identical, [a, b] => .ok (.value (.boolean (a.identical b) span))
  | not, [a] => .ok (.value (.boolean (!a.isTruthy) span))
  | cons, [a, d] => .ok (.value (.pair none a d span))
  | car, [n] => (expectPair op n).map fun parts ↦ .value parts.1
  | cdr, [n] => (expectPair op n).map fun parts ↦ .value parts.2
  | cadr, [n] => do
    let parts ← expectPair op n
    let parts ← expectPair op parts.2
    return .value parts.1
  | list, args => .ok (.value (.ofList args span))
  | concat, args => .ok (.value (.string (String.join (args.map Node.displayText)) span))
  | string, [n] => .ok (.value (.string n.displayText span))
  | typeName, [n] => .ok (.value (.string n.typeName span))
  | apply, n :: args => match n.procedure? with
    | some p => (spread args).map (.call p)
    | none => .error (.notCallable none n span)
  | isNull, [n] => .ok (.value (.boolean (n.typeName == "nil") span))
  | isPair, [n] => .ok (.value (.boolean (n.typeName == "pair") span))
  | isNumber, [n] => .ok (.value (.boolean (n.typeName == "number") span))
  | isBoolean, [n] => .ok (.value (.boolean (n.typeName == "boolean") span))
  | isSymbol, [n] => .ok (.value (.boolean (n.typeName == "symbol") span))
  | isString, [n] => .ok (.value (.boolean (n.typeName == "string") span))
  | isProcedure, [n] => .ok (.value (.boolean (n.typeName == "function") span))
  | op, args => .error (.arguments (.builtinCount op op.arity args.length) span)

/-- What an operation makes of its arguments. -/
def run (op : Builtin) (span : Span) (args : List Node) : Except EvalError Reply :=
  if op.arity.accepts args.length then op.answer span args
  else .error (.arguments (.builtinCount op op.arity args.length) span)

end Builtin

end MiniLisp
