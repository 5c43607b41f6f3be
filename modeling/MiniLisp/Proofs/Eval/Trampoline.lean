import MiniLisp.Eval.Fuel
import MiniLisp.Proofs.Eval.Direct

/-!
# Steps and direct recursion

The machine does a rule, is handed a step, and runs it; evaluation in direct style makes the call
where the rule stands. Both ways end for the same forms and machines, in the same value or error and
with the same machine left behind (`evaluate_iff_direct`).

The comparison is made rule by rule and does not involve fuel: each rule in direct style is the
machine's rule followed by the call for the step that it hands back (`next_eq`). Every place that
hands back a step, with the scope and the dynamic scope it is to be done in, is compared there once.

Fuel is spent in the same places, except that a value costs the machine one unit more. So each
evaluator ends with the fuel the other one ends with, up to one unit (`runStep_below_run`,
`run_below_runStep`).
-/

namespace MiniLisp

@[simp] theorem Action.fail_bind {ε α β : Type} (cause : ε) (f : α → Action ε β) :
    (fail cause >>= f) = fail cause := rfl

namespace Direct

open MiniLisp.Action (Below)

section

variable (calls : Calls) (ctx : Context) (span : Span)

@[simp] theorem run_done (value : Node) : calls.run (.done value) = pure value := rfl

@[simp] theorem run_eval (form : Node) : calls.run (.eval form ctx) = calls.eval form ctx := rfl

@[simp] theorem run_apply (procedure : Procedure) (args : List Node) :
    calls.run (.apply procedure args ctx span) = calls.apply procedure args ctx span := rfl

@[simp] theorem run_loop (condition : Node) (forms : List Node) :
    calls.run (.loop condition forms ctx span) = calls.loop condition forms ctx span := rfl

@[simp] theorem run_noResult :
    calls.run (SpecialForm.noResult span) = pure (.undefined span) := rfl

/-! ### Rule by rule -/

theorem body_eq (forms : List Node) :
    body calls ctx span forms = sequence calls.run ctx span forms >>= calls.run := by
  induction forms with
  | nil => simp [body, sequence]
  | cons form rest ih =>
    cases rest with
    | nil => simp [body, sequence]
    | cons next rest => simp [body, sequence, ih]

/-- The two branches of a conditional are chosen before or after they are handed back. -/
theorem run_ite (c : Bool) (s t : Step) :
    calls.run (if c then s else t) = if c then calls.run s else calls.run t := by
  cases c <;> rfl

theorem special_eq (form : SpecialForm) (operands : List Node) :
    special calls ctx span form operands =
      form.rule calls.run ctx span operands >>= calls.run := by
  fun_cases SpecialForm.rule calls.run ctx span form operands with
  | case1 datum => simp [special]
  | case2 template => simp [special]
  | case3 => simp [special]
  | case4 name nameSpan form => simp [special]
  | case5 label target params pairSpan forms => simp [special]
  | case6 params forms => simp [special]
  | case7 bindings forms => simp [special, body_eq]
  | case8 condition consequent => simp [special, run_ite]
  | case9 condition consequent alternate =>
    simp only [special, bind_assoc, pure_bind]
    refine bind_congr fun value ↦ ?_
    cases value.isTruthy <;> rfl
  | case10 target form => simp [special]
  | case11 condition forms => simp [special]
  | case12 signature form rest name param hsignature => simp [special, hsignature]
  | case13 signature form rest hsignature =>
    simp [special, SpecialForm.malformed]
  | case14 => exact body_eq calls ctx span operands
  | case15 => simp [special, SpecialForm.malformed]

theorem enter_eq (c : Closure) (args : List Node) :
    enter calls ctx span c args = c.enter calls.run ctx span args >>= calls.run := by
  unfold enter Closure.enter
  split
  · simp [body_eq]
  · simp

theorem host_eq (op : HostOperation) (args : List Node) :
    host calls ctx span op args = op.step calls.run ctx span args >>= calls.run := by
  fun_cases HostOperation.step calls.run ctx span op args with
  | case1 => simp [host]
  | case2 => rcases h : ctx.dynamic with _ | active <;> simp [host, h]
  | case3 target args procedure h => simp [host, h]
  | case4 target args h => simp [host, h]
  | case5 => simp [host]
  | case6 form => simp [host]
  | case7 => simp [host]
  | case8 => simp [host]

theorem native_eq (p : Native) (args : List Node) :
    native calls ctx span p args = p.step calls.run ctx span args >>= calls.run := by
  unfold native Native.step
  cases p.operation with
  | builtin op =>
    show _ = (Action.ofExcept (op.run span args) >>= Reply.step ctx span) >>= calls.run
    rw [bind_assoc]
    refine bind_congr fun reply ↦ ?_
    cases reply <;> simp [Reply.step]
  | host op => exact host_eq calls ctx span op args

theorem apply_eq (procedure : Procedure) (args : List Node) :
    apply calls ctx span procedure args =
      (Step.apply procedure args ctx span).next calls.run >>= calls.run := by
  cases procedure with
  | native p => simp [apply, Step.next, Procedure.step, native_eq]
  | closure c => simp [apply, Step.next, Procedure.step, enter_eq]

theorem expand_eq (t : Transformer) (operands : Node) :
    expand calls ctx span t operands = t.expand calls.run ctx span operands := by
  simp [expand, Transformer.expand, body_eq]

theorem call_eq (head operands : Node) :
    call calls ctx span head operands =
      callStep calls.run ctx span head operands >>= calls.run := by
  simp only [call, callStep, bind_assoc]
  refine bind_congr fun value ↦ ?_
  rcases ht : value.transformer? with _ | t
  · rcases hp : value.procedure? with _ | procedure <;> simp
  · simp [expand_eq]

theorem eval_eq (form : Node) :
    eval calls ctx form = (Step.eval form ctx).next calls.run >>= calls.run := by
  show _ = evalStep calls.run form ctx >>= calls.run
  cases form with
  | atom a span => cases a <;> simp [eval, evalStep]
  | closure => simp [eval, evalStep]
  | transformer => simp [eval, evalStep]
  | pair label head operands span =>
    rcases h : head.symbol?.bind SpecialForm.ofName? with _ | form
    · simp [eval, evalStep, h, call_eq]
    · simp [eval, evalStep, h, SpecialForm.step, special_eq]

theorem loop_eq (condition : Node) (forms : List Node) :
    loop calls ctx span condition forms =
      (Step.loop condition forms ctx span).next calls.run >>= calls.run := by
  show _ = loopStep calls.run condition forms ctx span >>= calls.run
  simp only [loop, loopStep, run_eval, bind_assoc]
  refine bind_congr fun value ↦ ?_
  split <;> simp

end

/-! ### Step by step -/

/-- A call in direct style does a step and then makes the call for the step that is handed back. -/
theorem next_eq (fuel : Nat) (step : Step) :
    (calls (fuel + 1)).run step = step.next (calls fuel).run >>= (calls fuel).run := by
  cases step with
  | done value => rfl
  | eval form ctx => exact eval_eq _ ctx form
  | apply procedure args ctx span => exact apply_eq _ ctx span procedure args
  | loop condition forms ctx span => exact loop_eq _ ctx span condition forms

/-- Direct recursion ends with the fuel that the machine ends with. -/
theorem runStep_below_run (fuel : Nat) : Runner.Below (runStep fuel) (calls fuel).run := by
  induction fuel with
  | zero => exact fun _ _ hm ↦ absurd rfl hm
  | succ fuel ih =>
    intro step
    cases step with
    | done value => exact .refl _
    | _ =>
      -- Below the step both spend their fuel alike, on the rule and on the step handed back.
      rw [runStep_next fuel (by intro value h; cases h), next_eq]
      exact .bind (next_below ih _) ih

/-- The machine needs one unit more at most, which is for the value in the end. -/
theorem run_below_runStep (fuel : Nat) : Runner.Below (calls fuel).run (runStep (fuel + 1)) := by
  induction fuel with
  | zero =>
    intro step
    cases step with
    | done value => exact .refl _
    -- Without fuel no call ends, so there is nothing to compare.
    | _ => exact fun _ hm ↦ absurd rfl hm
  | succ fuel ih =>
    intro step
    cases step with
    | done value => exact .refl _
    | _ =>
      rw [runStep_next _ (by intro value h; cases h), next_eq]
      exact .bind (next_below ih _) ih

theorem evaluate_below_direct (fuel : Nat) (form : Node) (ctx : Context) :
    Below (MiniLisp.evaluate fuel form ctx) (evaluate fuel form ctx) :=
  .bind (.refl _) fun form ↦ runStep_below_run fuel (.eval form ctx)

theorem direct_below_evaluate (fuel : Nat) (form : Node) (ctx : Context) :
    Below (evaluate fuel form ctx) (MiniLisp.evaluate (fuel + 1) form ctx) :=
  .bind (.refl _) fun form ↦ run_below_runStep fuel (.eval form ctx)

/-- Where the machine ends in some way, so does direct recursion, and the other way round. -/
theorem ends_iff (form : Node) (ctx : Context) (m : Machine) {outcome : Outcome EvalError Node}
    (h : outcome ≠ .outOfFuel) :
    (∃ fuel, MiniLisp.evaluate fuel form ctx m = outcome) ↔
      ∃ fuel, evaluate fuel form ctx m = outcome := by
  constructor
  · rintro ⟨fuel, rfl⟩
    exact ⟨fuel, evaluate_below_direct fuel form ctx m h⟩
  · rintro ⟨fuel, rfl⟩
    exact ⟨fuel + 1, direct_below_evaluate fuel form ctx m h⟩

end Direct

/-- **The machine does what direct recursion does.** For every form, place and machine, evaluation
by steps ends in a value or an error exactly if evaluation in direct style does, and then both give
the same value or error and leave the same machine behind, with all its scopes. -/
theorem evaluate_iff_direct (form : Node) (ctx : Context) (m : Machine) :
    (∀ value m', (∃ fuel, evaluate fuel form ctx m = .ok value m') ↔
      ∃ fuel, Direct.evaluate fuel form ctx m = .ok value m') ∧
    ∀ cause m', (∃ fuel, evaluate fuel form ctx m = .error cause m') ↔
      ∃ fuel, Direct.evaluate fuel form ctx m = .error cause m' :=
  ⟨fun _ _ ↦ Direct.ends_iff form ctx m nofun, fun _ _ ↦ Direct.ends_iff form ctx m nofun⟩

end MiniLisp
