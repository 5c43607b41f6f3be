import MiniLisp.Data.Printer
import MiniLisp.Eval.SpecialForm

/-!
# What evaluation complains about

An error is kept as its cause, with the data it is about; the wording is in `EvalError.message`.
Every error has a place in some text.
-/

namespace MiniLisp

/-! ### Malformed special forms -/

/-- A part of a special form that has to be a proper list. -/
inductive ListPart where
  | operands (form : SpecialForm)
  | letBindings
deriving DecidableEq

/-- The words for such a part. -/
def ListPart.text : ListPart → String
  | operands form => form.name
  | letBindings => "let bindings"

/-- A part of a special form that has to be a symbol. -/
inductive NamePart where
  /-- The name that a form binds or assigns. -/
  | target (form : SpecialForm)
  | parameter
deriving DecidableEq

/-- The words for such a part. -/
def NamePart.text : NamePart → String
  | target form => form.name
  | parameter => "lambda parameter"

/-- What is wrong with a special form. -/
inductive FormFault where
  | improper (part : ListPart)
  | notSymbol (part : NamePart) (found : Node)
  /-- The operands do not have the shape that the form asks for. -/
  | shape (form : SpecialForm)
  /-- A definition has no operand at all. -/
  | nothingDefined
  /-- A procedure has no body. -/
  | noBody
  | parameters (found : Node)
  | binding (found : Node)
  /-- A splice that does not stand in a list. -/
  | strayedSplice
  | spliceOf (found : Node)

/-- What the operands of a special form should look like. -/
def SpecialForm.expectation : SpecialForm → String
  | quote => "exactly one argument"
  | quasiquote => "exactly one argument"
  | define => "(define name value) or (define (name params...) body...)"
  | lambda => "a parameter list and a body"
  | letForm => "a binding list and a body"
  | ifForm => "condition, consequent, and optional alternate"
  | set => "a name and a value"
  | whileForm => "a condition"
  | macroForm => "(defmacro (name argname) body...)"
  | begin => "a body"

/-- The message of a fault in a special form. -/
def FormFault.message : FormFault → String
  | improper part => part.text ++ " must be a proper list"
  | notSymbol part found => part.text ++ " expects a symbol, got " ++ found.text
  | shape form => form.name ++ " expects " ++ form.expectation
  | nothingDefined => "define expects a name and a value"
  | noBody => "lambda expects at least one body expression"
  | parameters found => "invalid parameter list: " ++ found.text
  | binding found => "let binding must be (name value), got " ++ found.text
  | strayedSplice => "unquote-splicing is only valid as a list element"
  | spliceOf found => "unquote-splicing expects a list, got " ++ found.text

/-! ### Wrong arguments -/

/-- How many arguments a procedure takes. -/
inductive Arity where
  | exactly (count : Nat)
  | atLeast (count : Nat)
deriving DecidableEq

/-- A number of arguments is right. -/
def Arity.accepts : Arity → Nat → Bool
  | exactly count, given => given == count
  | atLeast count, given => count ≤ given

/-- The words for an arity. -/
def Arity.text : Arity → String
  | exactly count => "exactly " ++ toString count ++ " arguments"
  | atLeast count => "at least " ++ toString count ++ " arguments"

/-- What is wrong with the arguments of a call. -/
inductive ArgumentFault where
  /-- The operands end in something else than the empty list. -/
  | improper (rest : Node)
  | closureCount (name : Option String) (arity : Arity) (given : Nat)
  | builtinCount (operation : Builtin) (arity : Arity) (given : Nat)
  /-- The argument at a place, counted from one, is no number. -/
  | notNumber (operation : Builtin) (place : Nat) (found : Node)
  | notPair (operation : Builtin) (found : Node)
  /-- The arguments to spread are no proper list. -/
  | notSpread (found : Node)
  /-- The host operation has no procedure to hand its call to. -/
  | nothingToCall
  /-- The host operation has nothing to evaluate. -/
  | nothingToEvaluate

/-- The message of a fault in the arguments. -/
def ArgumentFault.message : ArgumentFault → String
  | improper rest => "argument list must be a proper list, got . " ++ rest.text
  | closureCount name arity given =>
    "'" ++ name.getD "lambda" ++ "' expects " ++ arity.text ++ ", got " ++ toString given
  | builtinCount operation arity given =>
    "Primitive '" ++ operation.name ++ "' expects " ++ arity.text ++ ", got " ++ toString given
  | notNumber operation place found =>
    "Primitive '" ++ operation.name ++ "' expects a number for argument " ++ toString place ++
      ", got " ++ found.typeName
  | notPair operation found => operation.name ++ ": Expected a pair, got " ++ found.typeName
  | notSpread found =>
    "Primitive 'apply' expects a list as its last argument, got " ++ found.typeName
  | nothingToCall => "tail: not a procedure"
  | nothingToEvaluate => "eval: nothing to evaluate"

/-! ### Errors -/

/-- Why the evaluation of a form fails. -/
inductive EvalError where
  | unbound (name : String) (span : Span)
  /-- What was called is no procedure; `name` is the symbol that stood at the head of the form. -/
  | notCallable (name : Option String) (value : Node) (span : Span)
  | specialForm (fault : FormFault) (span : Span)
  | arguments (fault : ArgumentFault) (span : Span)
  | number (fault : NumberError) (span : Span)

namespace EvalError

/-- The message of an error. -/
def message : EvalError → String
  | unbound name _ => name ++ " is not bound"
  | notCallable (some name) _ _ => "Variable \x60" ++ name ++ "' is not a function"
  | notCallable none value _ => "Expected a procedure, but got: " ++ value.text
  | specialForm fault _ => "Invalid special form: " ++ fault.message
  | arguments fault _ => "Invalid arguments: " ++ fault.message
  | number fault _ => fault.message

/-- The place of an error. -/
def span : EvalError → Span
  | unbound _ span => span
  | notCallable _ _ span => span
  | specialForm _ span => span
  | arguments _ span => span
  | number _ span => span

end EvalError

end MiniLisp
