import MiniLisp.Eval.Run
import MiniLisp.Reader.Basic

/-!
# Programs

A program is a text. All of it is read before anything is evaluated, so a text that cannot be read
has no effect. Its forms are then evaluated in order, either up to the first one that fails (`exec`)
or all of them, whatever fails (`execEach`).
-/

namespace MiniLisp

/-- Fuel for more steps than any machine has the time for: `2 ^ 62`. -/
def ampleFuel : Nat := 4611686018427387904

/-- Why a program fails. -/
inductive ProgramError where
  | read (cause : ReadError)
  | eval (cause : EvalError)

/-- The message of an error. -/
def ProgramError.message : ProgramError → String
  | read cause => cause.message
  | eval cause => cause.message

namespace Action

variable {ε δ α : Type}

/-- The action with its error seen as another one. -/
def mapError (f : ε → δ) (x : Action ε α) : Action δ α := fun m ↦
  match x m with
  | .ok value m => .ok value m
  | .error cause m => .error (f cause) m
  | .outOfFuel => .outOfFuel

/-- The action with its error taken as a result. -/
def attempt (x : Action ε α) : Action δ (Except ε α) := fun m ↦
  match x m with
  | .ok value m => .ok (.ok value) m
  | .error cause m => .ok (.error cause) m
  | .outOfFuel => .outOfFuel

end Action

section

variable (fuel : Nat) (ctx : Context)

/-- Evaluates one form of a program. -/
def evaluateTop (form : Node) : Action EvalError Node := do
  let store ← .store
  .note (.evaluating form (store.name ctx.scope))
  evaluate fuel form ctx

/-- The values of forms, up to the first that fails. -/
def evaluateAll : List Node → Action EvalError (List Node)
  | [] => pure []
  | form :: rest => do
    let value ← evaluateTop fuel ctx form
    let values ← evaluateAll rest
    return value :: values

/-- The values or errors of all forms. -/
def evaluateEach : List Node → Action ReadError (List (Except EvalError Node))
  | [] => pure []
  | form :: rest => do
    let result ← (evaluateTop fuel ctx form).attempt
    let results ← evaluateEach rest
    return result :: results

/-- Runs a program up to its first error. -/
def exec (source : String) : Action ProgramError (List Node) :=
  match read source with
  | .error cause => .fail (.read cause)
  | .ok forms => (evaluateAll fuel ctx forms).mapError .eval

/-- Runs all forms of a program. -/
def execEach (source : String) : Action ReadError (List (Except EvalError Node)) :=
  match read source with
  | .error cause => .fail cause
  | .ok forms => evaluateEach fuel ctx forms

end

end MiniLisp
