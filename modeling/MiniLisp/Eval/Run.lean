import MiniLisp.Eval.Call
import MiniLisp.Eval.Form

/-!
# Running steps

A step is run by doing it and then running the step it hands back, until there is nothing left to
do. What a step has to evaluate on its way is a run of its own.

A program may go on for ever, so a run is given fuel. It takes one unit to do a step, and the runs
inside that step get what is then left, as does the next step: fuel bounds the depth and the length
of a run at once.
-/

namespace MiniLisp

section

variable (run : Runner)

/-- The evaluation of a form. Whatever is neither a symbol nor a pair stands for itself. -/
def evalStep (form : Node) (ctx : Context) : Action EvalError Step :=
  match form with
  | .atom (.symbol name) span => do return .done (← lookup name span ctx)
  | .pair _ head operands span => match head.symbol?.bind SpecialForm.ofName? with
    | some special => special.step run ctx span operands
    | none => callStep run ctx span head operands
  | n => pure (.done n)

/-- One round of a loop. -/
def loopStep (condition : Node) (body : List Node) (ctx : Context) (span : Span) :
    Action EvalError Step := do
  let value ← run (.eval condition ctx)
  if value.isTruthy then
    effects run ctx body
    return .loop condition body ctx span
  else return .done (.undefined span)

/-- Does one step. -/
def Step.next : Step → Action EvalError Step
  | done value => pure (.done value)
  | eval form ctx => evalStep run form ctx
  | apply procedure args ctx span => do
    .note (.applying procedure.name? args.length)
    procedure.step run ctx span args
  | loop condition body ctx span => loopStep run condition body ctx span

theorem SpecialForm.ofName?_symbol? {head : Node} {form : SpecialForm}
    (h : head.symbol? = some form.name) : head.symbol?.bind ofName? = some form := by
  rw [h]
  exact ofName?_name form

/-- A list that begins with the name of a special form is done by the rule for it. -/
theorem Step.next_special {n head : Node} {operands : List Node} {form : SpecialForm}
    (hlist : n.toList? = some (head :: operands))
    (hhead : head.symbol?.bind SpecialForm.ofName? = some form) (ctx : Context) :
    (Step.eval n ctx).next run = form.rule run ctx n.span operands := by
  obtain ⟨l, cdr, s, rfl, hcdr⟩ := Node.exists_pair_of_toList? hlist
  show evalStep run (.pair l head cdr s) ctx = _
  unfold evalStep
  dsimp only
  rw [hhead]
  dsimp only
  rw [SpecialForm.step, properList, hcdr]
  rfl

end

/-- Runs a step to its end. -/
def runStep (fuel : Nat) (step : Step) (m : Machine) : Outcome EvalError Node :=
  match fuel with
  | 0 => .outOfFuel
  | fuel + 1 => match step with
    | .done value => .ok value m
    | step => Action.bind (step.next (runStep fuel)) (runStep fuel) m

/-- The value of a form in a place. -/
def evaluate (fuel : Nat) (form : Node) (ctx : Context) : Action EvalError Node := do
  let form ← .adopt form
  runStep fuel (.eval form ctx)

end MiniLisp
