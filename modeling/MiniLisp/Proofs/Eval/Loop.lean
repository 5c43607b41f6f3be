import MiniLisp.Eval.Fuel
import MiniLisp.Proofs.Data.Adoption
import MiniLisp.Proofs.Eval.Invariant

/-!
# Loops and their unfolding

A loop `(while condition form ...)` does what its unfolding
`(if condition (begin form ... (while condition form ...)))` does (`while_iff_unfolded`). Both begin
with a round of the loop, in which the condition is evaluated and then, if it holds, the forms of
the body; what is left to be done after that is the loop either way (`Loop.round`). They only spend
their fuel differently, since the loop is a step of its own and the unfolding is handed on through
the steps of `if` and `begin`. So each of them ends wherever the other one does with a little less
fuel (`Loop.run_below_unfolded`, `Loop.unfolded_below_run`).

The value is missing in any case, and carries the span of whichever form was the last one to be
left. All else is the same. In particular the condition and the forms of the body are the same data
in both forms, and not only written alike: what is quoted there is one pair however often it comes
up. For a run that is a matter of course, and for an evaluation it means that the pairs have their
labels.
-/

namespace MiniLisp

open MiniLisp.Action (Below)

/-! ### The two forms -/

namespace Node

/-- The form `(while condition form ...)`. -/
def IsLoop (n condition : Node) (body : List Node) : Prop :=
  ∃ head, n.toList? = some (head :: condition :: body) ∧
    head.symbol? = some SpecialForm.whileForm.name

/-- The form `(if condition (begin form ... (while condition form ...)))`. -/
def IsUnfolded (n condition : Node) (body : List Node) : Prop :=
  ∃ head block first loop, n.toList? = some [head, condition, block] ∧
    head.symbol? = some SpecialForm.ifForm.name ∧
    block.toList? = some (first :: (body ++ [loop])) ∧
    first.symbol? = some SpecialForm.begin.name ∧ loop.IsLoop condition body

end Node

/-! ### Values without a place -/

/-- The same action, whose value is taken out of any text. -/
def Action.unlocated (x : Action EvalError Node) : Action EvalError Node :=
  (Node.withSpan · .nowhere) <$> x

open MiniLisp.Action (unlocated)

theorem Action.unlocated_bind {α : Type} (x : Action EvalError α) (f : α → Action EvalError Node) :
    unlocated (x >>= f) = x >>= fun value ↦ unlocated (f value) :=
  map_bind ..

theorem Action.Below.unlocated {x y : Action EvalError Node} (h : Below x y) :
    Below x.unlocated y.unlocated := by
  rw [Action.unlocated, Action.unlocated, ← bind_pure_comp, ← bind_pure_comp]
  exact h.bind fun _ ↦ .refl _

namespace Loop

/-! ### Rounds -/

section

variable (run run' : Runner) (condition : Node) (body : List Node) (ctx : Context) (span : Span)

/-- One round of a loop, and what follows it if the condition holds. The condition may be evaluated
in another way than the body. -/
def round (rest : Action EvalError Node) : Action EvalError Node := do
  let value ← run (.eval condition ctx)
  if value.isTruthy then
    effects run' ctx body
    rest
  else return .undefined span

/-- All forms but the last one are evaluated for what they do. -/
theorem sequence_append (last : Node) : sequence run ctx span (body ++ [last]) = do
    effects run ctx body
    return .eval last ctx := by
  induction body with
  | nil => rfl
  | cons form rest ih =>
    have hne : rest ++ [last] ≠ [] := List.append_ne_nil_of_right_ne_nil rest nofun
    obtain ⟨second, more, hmore⟩ := List.exists_cons_of_ne_nil hne
    rw [effects, bind_assoc, ← ih, List.cons_append, hmore]
    rfl

/-- A loop is done by a round, after which it is left to be done. -/
theorem next_loop (hdone : ∀ value, run (.done value) = pure value) :
    (Step.loop condition body ctx span).next run >>= run =
      round run run condition body ctx span (run (.loop condition body ctx span)) := by
  show loopStep run condition body ctx span >>= run = _
  unfold loopStep round
  rw [bind_assoc]
  refine bind_congr fun value ↦ ?_
  split
  · rw [bind_assoc]
    rfl
  · exact hdone _

end

section

variable {n condition : Node} {body : List Node} (run : Runner) (ctx : Context)

/-- A form that is a loop only hands it back. -/
theorem next_isLoop (h : n.IsLoop condition body) :
    (Step.eval n ctx).next run >>= run = run (.loop condition body ctx n.span) := by
  obtain ⟨head, hlist, hhead⟩ := h
  rw [Step.next_special run hlist (SpecialForm.ofName?_symbol? hhead)]
  rfl

/-- An unfolded loop is done by a round, after which a loop is left. The inner forms may be run in
another way than the outer ones. -/
theorem next_isUnfolded (h : n.IsUnfolded condition body) :
    ∃ span, ∀ run₁ run₂ run₃ : Runner, (∀ value, run₁ (.done value) = pure value) →
      (∀ form, run₁ (.eval form ctx) = (Step.eval form ctx).next run₂ >>= run₂) →
      (∀ form, run₂ (.eval form ctx) = (Step.eval form ctx).next run₃ >>= run₃) →
      (Step.eval n ctx).next run₁ >>= run₁ =
        round run₁ run₂ condition body ctx n.span (run₃ (.loop condition body ctx span)) := by
  obtain ⟨head, block, first, loop, hlist, hhead, hblock, hfirst, hloop⟩ := h
  refine ⟨loop.span, fun run₁ run₂ run₃ hdone heval₁ heval₂ ↦ ?_⟩
  have hrest : run₁ (.eval block ctx) = (do
      effects run₂ ctx body
      run₃ (.loop condition body ctx loop.span)) := by
    rw [heval₁, Step.next_special run₂ hblock (SpecialForm.ofName?_symbol? hfirst),
      ← next_isLoop run₃ ctx hloop, ← heval₂]
    show sequence run₂ ctx block.span (body ++ [loop]) >>= run₂ = _
    rw [sequence_append, bind_assoc]
    rfl
  rw [Step.next_special run₁ hlist (SpecialForm.ofName?_symbol? hhead), round, ← hrest]
  unfold SpecialForm.rule
  dsimp only
  rw [bind_assoc]
  refine bind_congr fun value ↦ ?_
  rw [pure_bind]
  split
  · rfl
  · exact hdone _

/-- With more fuel a round ends wherever it did, in the same way apart from where its value is. -/
theorem round_below {run run' more more' : Runner} (h : Runner.Below run more)
    (h' : Runner.Below run' more') {rest rest' : Action EvalError Node}
    (hrest : Below rest.unlocated rest'.unlocated) (span span' : Span) :
    Below (unlocated (round run run' condition body ctx span rest))
      (unlocated (round more more' condition body ctx span' rest')) := by
  unfold round
  rw [Action.unlocated_bind, Action.unlocated_bind]
  refine .bind (h _) fun value ↦ ?_
  split
  · rw [Action.unlocated_bind, Action.unlocated_bind]
    exact .bind (effects_below h' ctx body) fun _ ↦ hrest
  · exact .refl _

end

/-! ### Runs -/

variable {n condition : Node} {body : List Node} (ctx : Context)

theorem run_loop (fuel : Nat) (span : Span) :
    runStep (fuel + 1) (.loop condition body ctx span) =
      round (runStep fuel) (runStep fuel) condition body ctx span
        (runStep fuel (.loop condition body ctx span)) := by
  cases fuel with
  | zero => rfl
  | succ fuel => exact next_loop (runStep (fuel + 1)) condition body ctx span fun _ ↦ rfl

theorem run_isLoop (h : n.IsLoop condition body) (fuel : Nat) :
    runStep (fuel + 1) (.eval n ctx) = runStep fuel (.loop condition body ctx n.span) :=
  next_isLoop (runStep fuel) ctx h

theorem run_isUnfolded (h : n.IsUnfolded condition body) (fuel : Nat) :
    ∃ span, runStep (fuel + 3) (.eval n ctx) =
      round (runStep (fuel + 2)) (runStep (fuel + 1)) condition body ctx n.span
        (runStep fuel (.loop condition body ctx span)) := by
  obtain ⟨span, hspan⟩ := next_isUnfolded ctx h
  exact ⟨span, hspan (runStep (fuel + 2)) (runStep (fuel + 1)) (runStep fuel) (fun _ ↦ rfl)
    (fun _ ↦ rfl) fun _ ↦ rfl⟩

/-- More fuel does not change how a loop ends, and its span is only that of its value. -/
theorem run_loop_below {fuel more : Nat} (hle : fuel ≤ more) (span span' : Span) :
    Below (unlocated (runStep fuel (.loop condition body ctx span)))
      (unlocated (runStep more (.loop condition body ctx span'))) := by
  induction fuel generalizing more with
  | zero => exact fun _ hends ↦ absurd rfl hends
  | succ fuel ih =>
    obtain ⟨extra, rfl⟩ := Nat.exists_eq_add_of_lt hle
    have hle : fuel ≤ fuel + extra := Nat.le_add_right fuel extra
    rw [run_loop, run_loop]
    exact round_below ctx (runStep_mono hle) (runStep_mono hle) (ih hle) span span'

variable {loop unfolded : Node} (hloop : loop.IsLoop condition body)
  (hunfolded : unfolded.IsUnfolded condition body)

include hloop hunfolded

/-- The unfolding of a loop ends wherever the loop does. -/
theorem run_below_unfolded (fuel : Nat) : Below (unlocated (runStep fuel (.eval loop ctx)))
    (unlocated (runStep (fuel + 3) (.eval unfolded ctx))) := by
  obtain ⟨span, hrun⟩ := run_isUnfolded ctx hunfolded fuel
  have hmore : Below (runStep fuel (.eval loop ctx)) (runStep (fuel + 2) (.eval loop ctx)) :=
    runStep_mono (Nat.le_add_right fuel 2) _
  refine hmore.unlocated.trans ?_
  rw [run_isLoop ctx hloop, run_loop, hrun]
  exact round_below ctx (runStep_mono (Nat.le_add_right fuel 2)) (runStep_mono (Nat.le_succ fuel))
    (run_loop_below ctx (Nat.le_refl fuel) _ _) _ _

/-- A loop ends wherever its unfolding does. -/
theorem unfolded_below_run (fuel : Nat) : Below (unlocated (runStep fuel (.eval unfolded ctx)))
    (unlocated (runStep (fuel + 4) (.eval loop ctx))) := by
  obtain ⟨span, hrun⟩ := run_isUnfolded ctx hunfolded fuel
  have hmore : Below (runStep fuel (.eval unfolded ctx))
      (runStep (fuel + 3) (.eval unfolded ctx)) := runStep_mono (Nat.le_add_right fuel 3) _
  refine hmore.unlocated.trans ?_
  rw [run_isLoop ctx hloop, run_loop, hrun]
  exact round_below ctx (runStep_mono (Nat.le_refl _)) (runStep_mono (Nat.le_succ _))
    (run_loop_below ctx (Nat.le_add_right fuel 2) _ _) _ _

end Loop

/-- Evaluation is a run if no pair needs a label. -/
theorem evaluate_of_missing {form : Node} (h : form.missing = 0) (fuel : Nat) (ctx : Context) :
    evaluate fuel form ctx = runStep fuel (.eval form ctx) := by
  funext m
  show runStep fuel (.eval (form.adopt m.label).1 ctx)
    { m with label := (form.adopt m.label).2 } = _
  rw [Node.adopt_of_missing h]

/-- **A loop is its unfolding.** Take the forms `(while condition form ...)` and
`(if condition (begin form ... (while condition form ...)))` with the same condition and the same
body, which may be empty. Whenever a run of one of them comes to an end in some place, a run of the
other one does as well, with the same value apart from its span or with the same error, and it
leaves the same machine behind, with all its scopes. So does evaluation, if it has no labels to
give. -/
theorem while_iff_unfolded {condition : Node} {body : List Node} {loop unfolded : Node}
    (hloop : loop.IsLoop condition body) (hunfolded : unfolded.IsUnfolded condition body)
    (ctx : Context) (m : Machine) {outcome : Outcome EvalError Node}
    (houtcome : outcome ≠ .outOfFuel) :
    ((∃ fuel, unlocated (runStep fuel (.eval loop ctx)) m = outcome) ↔
      ∃ fuel, unlocated (runStep fuel (.eval unfolded ctx)) m = outcome) ∧
    (loop.missing = 0 → unfolded.missing = 0 →
      ((∃ fuel, unlocated (evaluate fuel loop ctx) m = outcome) ↔
        ∃ fuel, unlocated (evaluate fuel unfolded ctx) m = outcome)) := by
  have hruns : (∃ fuel, unlocated (runStep fuel (.eval loop ctx)) m = outcome) ↔
      ∃ fuel, unlocated (runStep fuel (.eval unfolded ctx)) m = outcome := by
    constructor
    · rintro ⟨fuel, hends⟩
      have hbelow := Loop.run_below_unfolded ctx hloop hunfolded fuel
      exact ⟨fuel + 3, (hbelow m (ne_of_eq_of_ne hends houtcome)).trans hends⟩
    · rintro ⟨fuel, hends⟩
      have hbelow := Loop.unfolded_below_run ctx hloop hunfolded fuel
      exact ⟨fuel + 4, (hbelow m (ne_of_eq_of_ne hends houtcome)).trans hends⟩
  refine ⟨hruns, fun hlabels hlabels' ↦ ?_⟩
  simp only [evaluate_of_missing hlabels, evaluate_of_missing hlabels']
  exact hruns

/-- The body `(set! x #f)` is done once, from within the loop and from within its unfolding. -/
theorem while_iff_unfolded_once :
    let list (items : List Node) (next : Label) : Node :=
      ((Node.ofList items .nowhere).adopt next).1
    let symbol (name : String) : Node := .symbol name .nowhere
    let assign : Node := list [symbol "set!", symbol "x", .boolean false .nowhere] 0
    let loop : Node := list [symbol "while", symbol "x", assign] 3
    let block : Node := list [symbol "begin", assign, loop] 6
    let unfolded : Node := list [symbol "if", symbol "x", block] 9
    let ctx : Context := ⟨0, none⟩
    let m : Machine := ⟨⟨#[⟨none, none, [("x", .boolean true .nowhere)]⟩]⟩, 12, none⟩
    ∃ outcome : Outcome EvalError Node,
      (∃ fuel, unlocated (evaluate fuel loop ctx) m = outcome) ∧
      (∃ fuel, unlocated (evaluate fuel unfolded ctx) m = outcome) ∧
      outcome.machine?.map (fun m' ↦ (m'.store.get? "x" 0).map Node.isTruthy) =
        some (some false) := by
  intro list symbol assign loop block unfolded ctx m
  have hloop : loop.IsLoop (symbol "x") [assign] := ⟨symbol "while", rfl, rfl⟩
  have hunfolded : unfolded.IsUnfolded (symbol "x") [assign] :=
    ⟨symbol "if", block, symbol "begin", loop, rfl, rfl, rfl, rfl, hloop⟩
  have hassigned : (unlocated (evaluate 9 loop ctx) m).machine?.map
      (fun m' ↦ (m'.store.get? "x" 0).map Node.isTruthy) = some (some false) := by
    decide +kernel
  have hends : unlocated (evaluate 9 loop ctx) m ≠ .outOfFuel := by
    intro hout
    rw [hout] at hassigned
    cases hassigned
  have hiff := (while_iff_unfolded hloop hunfolded ctx m hends).2 rfl rfl
  exact ⟨_, ⟨9, rfl⟩, hiff.mp ⟨9, rfl⟩, hassigned⟩

end MiniLisp
