import MiniLisp.Proofs.Eval.Agreement
import Mathlib.Logic.Relation

/-!
# What occurs in an evaluation

An evaluation sets off others: of the forms that a step needs, of the step that it hands back, and of
the body of a macro for the form that the macro expands. All that occurs in an evaluation is set off
in this way, directly or through others (`Occurs`).

The result does not tell which forms were evaluated on the way, and the rules need no record of it.
They are functions of the way to run steps, so it can be seen from outside: a rule asks for the run
of a step on a machine if it ends otherwise once that run ends otherwise (`Asks`).
-/

namespace MiniLisp

/-- A rule asks for the run of a step on a machine: with some way to run steps that differs there at
the most, it does not end as it does. -/
def Asks {α : Type} (rule : Runner → Action EvalError α) (run : Runner) (m : Machine) (step : Step)
    (m' : Machine) : Prop :=
  ∃ run' : Runner, (∀ s n, ¬(s = step ∧ n = m') → run' s n = run s n) ∧ rule run' m ≠ rule run m

/-- What a rule runs first it asks for, whatever it does afterwards. -/
theorem asks_first {α : Type} {rule : Runner → Action EvalError α} {m m' : Machine} {step : Step}
    (f : Runner → Node → Action EvalError α)
    (hrule : ∀ run, rule run m = Action.bind (run step) (f run) m') (run : Runner) :
    Asks rule run m step m' := by
  classical
  let other (outcome : Outcome EvalError Node) : Runner :=
    fun s n ↦ if s = step ∧ n = m' then outcome else run s n
  have hother (outcome : Outcome EvalError Node) : other outcome step m' = outcome :=
    if_pos ⟨rfl, rfl⟩
  have hsame (outcome : Outcome EvalError Node) (s : Step) (n : Machine)
      (h : ¬(s = step ∧ n = m')) : other outcome s n = run s n := if_neg h
  -- A run without fuel leaves the rule without an end, and one that fails makes it fail.
  let cause : EvalError := .arguments .nothingToEvaluate .nowhere
  have hout : rule (other .outOfFuel) m = .outOfFuel := by
    rw [hrule, Action.bind, hother]
  have herror : rule (other (.error cause m')) m = .error cause m' := by
    rw [hrule, Action.bind, hother]
  by_cases h : rule run m = .outOfFuel
  · exact ⟨other (.error cause m'), hsame _, by rw [herror, h]; rintro ⟨⟩⟩
  · exact ⟨other .outOfFuel, hsame _, by rw [hout]; exact Ne.symm h⟩

/-- What ends alike with all ways to run steps asks for no run. -/
theorem not_asks {α : Type} {rule : Runner → Action EvalError α} {m : Machine}
    {outcome : Outcome EvalError α} (h : ∀ run, rule run m = outcome) (run : Runner) (step : Step)
    (m' : Machine) : ¬ Asks rule run m step m' := by
  rintro ⟨run', -, hne⟩
  exact hne ((h run').trans (h run).symm)

namespace Discipline

variable {D : Discipline} {α : Type}

/-- What a rule asks for are forms that the discipline allows, if it ends alike with all ways to run
steps that agree on these. -/
theorem good_of_asks {post : α → Prop} {rule : Runner → Action EvalError α}
    (hrule : ∀ run run', D.Runs run run' → D.Agree post (rule run) (rule run')) {fuel : Nat}
    {m : Machine} (hm : m.store.Holds D.value) {step : Step} {m' : Machine}
    (h : Asks rule (runStep fuel) m step m') : step.IsForm ∧ D.Good step := by
  refine Classical.byContradiction fun hnot ↦ ?_
  obtain ⟨run', hsame, hne⟩ := h
  have hruns : D.Runs (runStep fuel) run' := by
    intro s hform hgood n hn
    have hother : ¬(s = step ∧ n = m') := by
      rintro ⟨rfl, -⟩
      exact hnot ⟨hform, hgood⟩
    exact ⟨(hsame s n hother).symm, (runStep_agree fuel hgood n hn).2⟩
  exact hne (hrule _ _ hruns m hm).1.symm

end Discipline

/-- What may go on in an evaluation. -/
inductive Activity where
  | step (step : Step)
  /-- A macro makes a form of the operands of another one. -/
  | expansion (transformer : Transformer) (operands : Node) (ctx : Context) (span : Span)

/-- An activity, and the machine on which it begins. -/
structure Moment where
  activity : Activity
  machine : Machine

/-- How the evaluation of a form in a place begins. -/
def Moment.start (form : Node) (ctx : Context) (m : Machine) : Moment :=
  ⟨.step (.eval (form.adopt m.label).1 ctx), { m with label := (form.adopt m.label).2 }⟩

/-- One activity sets off another one. -/
inductive Starts : Moment → Moment → Prop
  /-- A step needs another one to be run. -/
  | nested {step step' : Step} {m m' : Machine} (fuel : Nat)
      (asks : Asks (fun run ↦ step.next run) (runStep fuel) m step' m') :
      Starts ⟨.step step, m⟩ ⟨.step step', m'⟩
  /-- A step hands another one back. -/
  | next {step step' : Step} {m m' : Machine} (fuel : Nat)
      (hands : step.next (runStep fuel) m = .ok step' m') :
      Starts ⟨.step step, m⟩ ⟨.step step', m'⟩
  /-- The head of a form is a macro. -/
  | expand {label : Option Label} {head operands value : Node} {ctx : Context} {span : Span}
      {t : Transformer} {m m' : Machine} (fuel : Nat)
      (call : head.symbol?.bind SpecialForm.ofName? = none)
      (finds : headValue (runStep fuel) ctx head m = .ok value m')
      (isMacro : value.transformer? = some t) :
      Starts ⟨.step (.eval (.pair label head operands span) ctx), m⟩
        ⟨.expansion t operands ctx span, m'⟩
  /-- An expansion needs a step to be run. -/
  | body {t : Transformer} {operands : Node} {ctx : Context} {span : Span} {step : Step}
      {m m' : Machine} (fuel : Nat)
      (asks : Asks (fun run ↦ t.expand run ctx span operands) (runStep fuel) m step m') :
      Starts ⟨.expansion t operands ctx span, m⟩ ⟨.step step, m'⟩

/-- What is set off by an activity, directly or through others. -/
def Occurs : Moment → Moment → Prop := Relation.ReflTransGen Starts

namespace Activity

/-- Where an activity goes on. -/
def place? : Activity → Option Context
  | step s => s.place?
  | expansion _ _ ctx _ => some ctx

/-- Where the call is made that an activity answers, of a procedure or of a macro. -/
def callPlace? : Activity → Option Context
  | step s => s.callPlace?
  | expansion _ _ ctx _ => some ctx

/-- Where the call is made that an activity enters a new scope for, and the scope in which the
procedure or the macro was made. -/
def entry? : Activity → Option (Context × ScopeId)
  | step (.apply (.closure c) _ ctx _) => some (ctx, c.scope)
  | step _ => none
  | expansion t _ ctx _ => some (ctx, t.scope)

end Activity

end MiniLisp
