import MiniLisp.Eval.Run

/-!
# Fuel

More fuel never changes an answer: a run that ends with some fuel ends in the same way with any
larger amount (`runStep_mono`). So what a program does does not depend on the fuel it is given, as
long as it ends at all (`runStep_eq_of_ends`).

This is a fact about how the rules use the runs that they are given, so it is shown rule by rule: a
rule that is given a way to run steps that ends more often does so itself (`Action.Below`).
-/

namespace MiniLisp

namespace Action

variable {ε α β : Type}

/-- Where the first action ends, the second one ends in the same way. -/
def Below (x y : Action ε α) : Prop := ∀ m, x m ≠ .outOfFuel → y m = x m

namespace Below

theorem refl (x : Action ε α) : Below x x := fun _ _ ↦ rfl

theorem trans {x y z : Action ε α} (h : Below x y) (h' : Below y z) : Below x z := by
  intro m hm
  have hy := h m hm
  rw [h' m (hy ▸ hm), hy]

theorem bind {x y : Action ε α} {f g : α → Action ε β} (h : Below x y)
    (hf : ∀ value, Below (f value) (g value)) : Below (x >>= f) (y >>= g) := by
  intro m hm
  have hx : x m ≠ .outOfFuel := by
    intro e
    exact hm (by show Action.bind x f m = _; unfold Action.bind; rw [e])
  show Action.bind y g m = Action.bind x f m
  have hm : Action.bind x f m ≠ .outOfFuel := hm
  unfold Action.bind at hm ⊢
  rw [h m hx]
  cases hxm : x m with
  | ok value after =>
    rw [hxm] at hm
    exact hf value after hm
  | error cause after => rfl
  | outOfFuel => rfl

end Below

end Action

open MiniLisp.Action (Below)

/-- One way to run steps ends wherever another one does, and in the same way. -/
def Runner.Below (run run' : Runner) : Prop := ∀ step, Action.Below (run step) (run' step)

section

variable {run run' : Runner} (h : Runner.Below run run')

include h

theorem effects_below (ctx : Context) (body : List Node) :
    Below (effects run ctx body) (effects run' ctx body) := by
  induction body with
  | nil => exact .refl _
  | cons form rest ih => exact .bind (h _) fun _ ↦ ih

theorem sequence_below (ctx : Context) (span : Span) (body : List Node) :
    Below (sequence run ctx span body) (sequence run' ctx span body) := by
  induction body with
  | nil => exact .refl _
  | cons form rest ih =>
    cases rest with
    | nil => exact .refl _
    | cons => exact .bind (h _) fun _ ↦ ih

theorem arguments_below (ctx : Context) (operands : Node) :
    Below (arguments run ctx operands) (arguments run' ctx operands) := by
  induction operands with
  | atom a s => cases a <;> exact .refl _
  | pair l a d s _ ih => exact .bind (h _) fun _ ↦ .bind ih fun _ ↦ .refl _
  | closure => exact .refl _
  | transformer => exact .refl _

theorem spliced_below (ctx : Context) (operand : Node) (span : Span) :
    Below (spliced run ctx operand span) (spliced run' ctx operand span) :=
  .bind (h _) fun _ ↦ .refl _

theorem quasi_below (ctx : Context) (template : Node) :
    (∀ depth, Below (quasi run ctx template depth) (quasi run' ctx template depth)) ∧
      ∀ l a d s, template = .pair l a d s →
        ∀ depth, Below (quasi run ctx a depth) (quasi run' ctx a depth) := by
  induction template with
  | atom => exact ⟨fun _ ↦ .refl _, nofun⟩
  | closure => exact ⟨fun _ ↦ .refl _, nofun⟩
  | transformer => exact ⟨fun _ ↦ .refl _, nofun⟩
  | pair l car cdr span iha ihd =>
    refine ⟨fun depth ↦ ?_, fun _ _ _ _ e ↦ by cases e; exact iha.1⟩
    unfold quasi
    dsimp only
    split
    · next name _ _ operand _ _ =>
      split
      · split
        · exact h _
        · exact .bind (ihd.2 _ _ _ _ rfl _) fun _ ↦ .refl _
      · split
        · exact .refl _
        · exact .bind (ihd.2 _ _ _ _ rfl _) fun _ ↦ .refl _
      · exact .bind (ihd.2 _ _ _ _ rfl _) fun _ ↦ .refl _
      · split
        · exact .bind (spliced_below h _ _ _) fun _ ↦ .bind (ihd.1 _) fun _ ↦ .refl _
        · exact .bind (iha.1 _) fun _ ↦ .bind (ihd.1 _) fun _ ↦ .refl _
    · split
      · exact .bind (spliced_below h _ _ _) fun _ ↦ .bind (ihd.1 _) fun _ ↦ .refl _
      · exact .bind (iha.1 _) fun _ ↦ .bind (ihd.1 _) fun _ ↦ .refl _

theorem letValues_below (ctx : Context) (bindings : List Node) :
    Below (SpecialForm.letValues run ctx bindings) (SpecialForm.letValues run' ctx bindings) := by
  induction bindings with
  | nil => exact .refl _
  | cons binding rest ih =>
    unfold SpecialForm.letValues
    split
    · exact .bind (.refl _) fun _ ↦ .bind (h _) fun _ ↦ .bind ih fun _ ↦ .refl _
    · exact .refl _

theorem rule_below (ctx : Context) (span : Span) (form : SpecialForm) (operands : List Node) :
    Below (form.rule run ctx span operands) (form.rule run' ctx span operands) := by
  unfold SpecialForm.rule
  split
  · exact .refl _
  · exact .bind ((quasi_below h _ _).1 _) fun _ ↦ .refl _
  · exact .refl _
  · exact .bind (h _) fun _ ↦ .refl _
  · exact .refl _
  · exact .refl _
  · exact .bind (.refl _) fun _ ↦ .bind (letValues_below h _ _) fun _ ↦
      .bind (.refl _) fun _ ↦ sequence_below h _ _ _
  · exact .bind (h _) fun _ ↦ .refl _
  · exact .bind (h _) fun _ ↦ .refl _
  · exact .bind (.refl _) fun _ ↦ .bind (h _) fun _ ↦ .refl _
  · exact .refl _
  · exact .refl _
  · exact sequence_below h _ _ _
  · exact .refl _

theorem specialForm_step_below (ctx : Context) (span : Span) (form : SpecialForm)
    (operands : Node) :
    Below (form.step run ctx span operands) (form.step run' ctx span operands) :=
  .bind (.refl _) fun _ ↦ rule_below h _ _ _ _

theorem enter_below (ctx : Context) (span : Span) (c : Closure) (args : List Node) :
    Below (c.enter run ctx span args) (c.enter run' ctx span args) := by
  unfold Closure.enter
  split
  · exact .bind (.refl _) fun _ ↦ .bind (.refl _) fun _ ↦ sequence_below h _ _ _
  · exact .refl _

theorem native_step_below (ctx : Context) (span : Span) (p : Native) (args : List Node) :
    Below (p.step run ctx span args) (p.step run' ctx span args) := by
  unfold Native.step
  split
  · exact .refl _
  · unfold HostOperation.step
    split
    case h_5 => exact .bind (h _) fun _ ↦ .refl _
    all_goals exact .refl _

theorem procedure_step_below (ctx : Context) (span : Span) (p : Procedure) (args : List Node) :
    Below (p.step run ctx span args) (p.step run' ctx span args) := by
  cases p with
  | native p => exact native_step_below h _ _ _ _
  | closure c => exact enter_below h _ _ _ _

theorem expand_below (ctx : Context) (span : Span) (t : Transformer) (operands : Node) :
    Below (t.expand run ctx span operands) (t.expand run' ctx span operands) :=
  .bind (.refl _) fun _ ↦ .bind (sequence_below h _ _ _) fun _ ↦ h _

theorem headValue_below (ctx : Context) (head : Node) :
    Below (headValue run ctx head) (headValue run' ctx head) := by
  unfold headValue
  split
  · exact .refl _
  · exact h _

theorem callStep_below (ctx : Context) (span : Span) (head operands : Node) :
    Below (callStep run ctx span head operands) (callStep run' ctx span head operands) := by
  refine .bind (headValue_below h _ _) fun _ ↦ ?_
  split
  · exact .bind (expand_below h _ _ _ _) fun _ ↦ .refl _
  · exact .bind (arguments_below h _ _) fun _ ↦ .refl _
  · exact .refl _

theorem evalStep_below (form : Node) (ctx : Context) :
    Below (evalStep run form ctx) (evalStep run' form ctx) := by
  unfold evalStep
  split
  · exact .refl _
  · split
    · exact specialForm_step_below h _ _ _ _
    · exact callStep_below h _ _ _ _
  · exact .refl _

theorem loopStep_below (condition : Node) (body : List Node) (ctx : Context) (span : Span) :
    Below (loopStep run condition body ctx span) (loopStep run' condition body ctx span) := by
  refine .bind (h _) fun _ ↦ ?_
  split
  · exact .bind (effects_below h _ _) fun _ ↦ .refl _
  · exact .refl _

theorem next_below (step : Step) : Below (step.next run) (step.next run') := by
  cases step with
  | done => exact .refl _
  | eval => exact evalStep_below h _ _
  | apply => exact .bind (.refl _) fun _ ↦ procedure_step_below h _ _ _ _
  | loop => exact loopStep_below h _ _ _ _

end

/-! ### Runs -/

/-- A step that is no value yet is done first, and then the step it hands back is run. -/
theorem runStep_next (fuel : Nat) {step : Step} (h : ∀ value, step ≠ .done value) :
    runStep (fuel + 1) step = (step.next (runStep fuel) >>= runStep fuel) := by
  cases step with
  | done value => exact absurd rfl (h value)
  | _ => rfl

theorem runStep_succ_below (fuel : Nat) : Runner.Below (runStep fuel) (runStep (fuel + 1)) := by
  induction fuel with
  | zero => exact fun _ _ hm ↦ absurd rfl hm
  | succ fuel ih =>
    intro step
    by_cases h : ∃ value, step = .done value
    · obtain ⟨value, rfl⟩ := h
      exact .refl _
    · have h : ∀ value, step ≠ .done value := fun value e ↦ h ⟨value, e⟩
      rw [runStep_next _ h, runStep_next _ h]
      exact .bind (next_below ih step) ih

/-- **More fuel never changes an answer.** -/
theorem runStep_mono {fuel more : Nat} (h : fuel ≤ more) :
    Runner.Below (runStep fuel) (runStep more) := by
  induction h with
  | refl => exact fun _ ↦ .refl _
  | step _ ih => exact fun step ↦ (ih step).trans (runStep_succ_below _ step)

/-- Two runs of a step that both end do so in the same way. -/
theorem runStep_eq_of_ends {fuel more : Nat} {step : Step} {m : Machine}
    (h : runStep fuel step m ≠ .outOfFuel) (h' : runStep more step m ≠ .outOfFuel) :
    runStep fuel step m = runStep more step m := by
  rcases Nat.le_total fuel more with hle | hle
  · exact (runStep_mono hle step m h).symm
  · exact runStep_mono hle step m h'

end MiniLisp
