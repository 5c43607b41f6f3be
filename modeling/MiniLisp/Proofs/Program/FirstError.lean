import MiniLisp.Proofs.Eval.Invariant
import MiniLisp.Proofs.Program.ErrorSpan

/-!
# Up to the first error

A program may be run up to its first error, or with all of its forms, whatever fails. The first way
is a beginning of the second (`exec_of_execEach`). If all forms have values, then both ways end
alike. Otherwise the first way ends where the second has got to when it has run the form that fails
first, and what it does from there on makes no difference.

Running all forms never fails by itself, so it may be cut behind any form into two runs of the same
kind; `FailsFirst` cuts it behind the first form that fails. The proof goes along the forms: as long
as they have values both ways do the same.
-/

namespace MiniLisp

/-- The outcome with its value, if there is one, seen as another one. -/
def Outcome.map {ε α β : Type} (f : α → β) : Outcome ε α → Outcome ε β
  | ok value m => .ok (f value) m
  | error cause m => .error cause m
  | outOfFuel => .outOfFuel

theorem Outcome.exists_of_map_eq_ok {ε α β : Type} {outcome : Outcome ε α} {f : α → β} {b : β}
    {m : Machine} (h : outcome.map f = .ok b m) : ∃ value, outcome = .ok value m ∧ b = f value := by
  cases outcome with
  | ok value after => cases h; exact ⟨value, rfl, rfl⟩
  | error cause after => cases h
  | outOfFuel => cases h

namespace Action

variable {ε δ α β : Type} {x : Action ε α} {m next : Machine} {value : α} {cause : ε}

theorem bind_pure_eq_map (x : Action ε α) (f : α → β) (m : Machine) :
    (x >>= fun value ↦ Pure.pure (f value)) m = (x m).map f := by
  show bind x _ m = _
  unfold bind
  rcases x m with ⟨value, next⟩ | ⟨cause, next⟩ | _ <;> rfl

theorem attempt_of_ok (h : x m = .ok value next) :
    (x.attempt : Action δ _) m = .ok (.ok value) next := by
  unfold attempt
  rw [h]

theorem attempt_of_error (h : x m = .error cause next) :
    (x.attempt : Action δ _) m = .ok (.error cause) next := by
  unfold attempt
  rw [h]

theorem attempt_of_outOfFuel (h : x m = .outOfFuel) :
    (x.attempt : Action δ _) m = .outOfFuel := by
  unfold attempt
  rw [h]

end Action

/-! ### One form after the other

What the first form does decides where the others begin. An error of it ends the one way, and in the
other way is a result like any other.
-/

section

variable {fuel : Nat} {ctx : Context} {form : Node} (rest : List Node) {m next : Machine}
  {value : Node} {cause : EvalError}

theorem evaluateAll_cons_of_ok (h : evaluateTop fuel ctx form m = .ok value next) :
    evaluateAll fuel ctx (form :: rest) m = (evaluateAll fuel ctx rest next).map (value :: ·) :=
  (Action.bind_of_ok h _).trans (Action.bind_pure_eq_map _ _ _)

theorem evaluateAll_cons_of_error (h : evaluateTop fuel ctx form m = .error cause next) :
    evaluateAll fuel ctx (form :: rest) m = .error cause next :=
  Action.bind_of_error h _

theorem evaluateEach_cons_of_ok (h : evaluateTop fuel ctx form m = .ok value next) :
    evaluateEach fuel ctx (form :: rest) m =
      (evaluateEach fuel ctx rest next).map (.ok value :: ·) :=
  (Action.bind_of_ok (Action.attempt_of_ok h) _).trans (Action.bind_pure_eq_map _ _ _)

theorem evaluateEach_cons_of_error (h : evaluateTop fuel ctx form m = .error cause next) :
    evaluateEach fuel ctx (form :: rest) m =
      (evaluateEach fuel ctx rest next).map (.error cause :: ·) :=
  (Action.bind_of_ok (Action.attempt_of_error h) _).trans (Action.bind_pure_eq_map _ _ _)

theorem evaluateEach_cons_of_outOfFuel (h : evaluateTop fuel ctx form m = .outOfFuel) :
    evaluateEach fuel ctx (form :: rest) m = .outOfFuel :=
  Action.bind_of_outOfFuel (Action.attempt_of_outOfFuel h) _

end

/-! ### The first form that fails -/

/-- All forms are run, from `m` to `m'` and with these results, and the first of them that fails
does so for this cause. At that point the machine is `after`. -/
def FailsFirst (fuel : Nat) (ctx : Context) (forms : List Node) (m : Machine)
    (results : List (Except EvalError Node)) (m' : Machine) (cause : EvalError)
    (after : Machine) : Prop :=
  ∃ (before : List Node) (form : Node) (rest values : List Node)
    (later : List (Except EvalError Node)), forms = before ++ form :: rest ∧
      before.length = values.length ∧ results = values.map .ok ++ .error cause :: later ∧
      evaluateEach fuel ctx (before ++ [form]) m = .ok (values.map .ok ++ [.error cause]) after ∧
      evaluateEach fuel ctx rest after = .ok later m'

section

variable {fuel : Nat} {ctx : Context} {form : Node} {rest : List Node} {m next m' after : Machine}
  {results : List (Except EvalError Node)} {cause : EvalError}

/-- It may be the very first. -/
theorem FailsFirst.head (hform : evaluateTop fuel ctx form m = .error cause after)
    (hrest : evaluateEach fuel ctx rest after = .ok results m') :
    FailsFirst fuel ctx (form :: rest) m (.error cause :: results) m' cause after :=
  ⟨[], form, rest, [], results, rfl, rfl, rfl, evaluateEach_cons_of_error [] hform, hrest⟩

/-- Otherwise it is the first one among the others. -/
theorem FailsFirst.tail {value : Node} (hform : evaluateTop fuel ctx form m = .ok value next)
    (h : FailsFirst fuel ctx rest next results m' cause after) :
    FailsFirst fuel ctx (form :: rest) m (.ok value :: results) m' cause after := by
  obtain ⟨before, failing, rest, values, later, rfl, hlength, rfl, hbefore, hlater⟩ := h
  refine ⟨form :: before, failing, rest, value :: values, later, rfl, congrArg Nat.succ hlength,
    rfl, ?_, hlater⟩
  rw [List.cons_append, evaluateEach_cons_of_ok _ hform, hbefore]
  rfl

/-- Running forms up to the first error, told from running all of them. -/
theorem evaluateAll_of_evaluateEach {forms : List Node}
    (h : evaluateEach fuel ctx forms m ≠ .outOfFuel) :
    ∃ results m', evaluateEach fuel ctx forms m = .ok results m' ∧
      ((∃ values, results = values.map .ok ∧ evaluateAll fuel ctx forms m = .ok values m') ∨
        ∃ cause after, FailsFirst fuel ctx forms m results m' cause after ∧
          evaluateAll fuel ctx forms m = .error cause after) := by
  induction forms generalizing m with
  | nil => exact ⟨[], m, rfl, .inl ⟨[], rfl, rfl⟩⟩
  | cons form rest ih =>
    rcases hform : evaluateTop fuel ctx form m with ⟨value, next⟩ | ⟨cause, after⟩ | _
    · rw [evaluateEach_cons_of_ok rest hform] at h ⊢
      rw [evaluateAll_cons_of_ok rest hform]
      obtain ⟨results, m', heach, hresults⟩ := ih fun e ↦ h (by rw [e]; rfl)
      refine ⟨.ok value :: results, m', by rw [heach]; rfl, ?_⟩
      rcases hresults with ⟨values, rfl, hall⟩ | ⟨cause, after, hfails, hall⟩
      · exact .inl ⟨value :: values, rfl, by rw [hall]; rfl⟩
      · exact .inr ⟨cause, after, hfails.tail hform, by rw [hall]; rfl⟩
    · -- The other forms are run by only one of the two.
      rw [evaluateEach_cons_of_error rest hform] at h ⊢
      obtain ⟨results, m', heach, -⟩ := ih fun e ↦ h (by rw [e]; rfl)
      exact ⟨.error cause :: results, m', by rw [heach]; rfl, .inr ⟨cause, after,
        .head hform heach, evaluateAll_cons_of_error rest hform⟩⟩
    · exact absurd (evaluateEach_cons_of_outOfFuel rest hform) h

end

/-- **A program up to its first error is a beginning of all of it.** Suppose that all forms of a
program, whatever fails, are run to their end. If the program cannot be read, then both ways fail
for the same cause and leave everything as it was. If all forms have values, then these are the
values of the program, and both ways leave the same behind. Otherwise the program ends in the first
error among the results, with the machine as it is behind that form when all of them are run. -/
theorem exec_of_execEach {fuel : Nat} {ctx : Context} {source : String} {m : Machine}
    (h : execEach fuel ctx source m ≠ .outOfFuel) :
    (∃ cause, execEach fuel ctx source m = .error cause m ∧
      exec fuel ctx source m = .error (.read cause) m) ∨
    ∃ forms results m', read source = .ok forms ∧ execEach fuel ctx source m = .ok results m' ∧
      ((∃ values, results = values.map .ok ∧ exec fuel ctx source m = .ok values m') ∨
        ∃ cause after, FailsFirst fuel ctx forms m results m' cause after ∧
          exec fuel ctx source m = .error (.eval cause) after) := by
  rcases hread : read source with cause | forms
  · refine .inl ⟨cause, ?_, ?_⟩
    · rw [execEach, hread]
      rfl
    · rw [exec, hread]
      rfl
  · have hexecEach : execEach fuel ctx source = evaluateEach fuel ctx forms := by
      rw [execEach, hread]
    have hexec : exec fuel ctx source m =
        (evaluateAll fuel ctx forms).mapError ProgramError.eval m := by
      rw [exec, hread]
    rw [hexecEach] at h ⊢
    obtain ⟨results, m', heach, hresults⟩ := evaluateAll_of_evaluateEach h
    refine .inr ⟨forms, results, m', rfl, heach, ?_⟩
    rw [hexec]
    unfold Action.mapError
    rcases hresults with ⟨values, hvalues, hall⟩ | ⟨cause, after, hfails, hall⟩
    · exact .inl ⟨values, hvalues, by rw [hall]⟩
    · exact .inr ⟨cause, after, hfails, by rw [hall]⟩

/-- The second form fails, so the third is only run when all of them are. -/
theorem exec_of_execEach_second :
    let source := "(define x 1) (car x) (set! x 2)"
    let m : Machine := ⟨Store.empty.add .global, 0, none⟩
    ∃ forms results m' cause after, execEach 9 ⟨0, none⟩ source m = .ok results m' ∧
      FailsFirst 9 ⟨0, none⟩ forms m results m' cause after ∧
      exec 9 ⟨0, none⟩ source m = .error (.eval cause) after := by
  intro source m
  have hspan : (exec 9 ⟨0, none⟩ source m).errorSpan? = some ⟨10, 11⟩ := by decide +kernel
  have hends : execEach 9 ⟨0, none⟩ source m ≠ .outOfFuel := by
    have hmachine : (execEach 9 ⟨0, none⟩ source m).machine?.isSome = true := by decide +kernel
    intro h
    rw [h] at hmachine
    cases hmachine
  obtain ⟨cause, after, hexec, -⟩ := Outcome.exists_of_errorSpan? hspan
  rcases exec_of_execEach hends with ⟨cause', -, hread⟩ |
    ⟨forms, results, m', -, heach, ⟨values, -, hvalues⟩ | ⟨cause', after', hfails, herror⟩⟩
  · rw [hread] at hexec
    cases hexec
  · rw [hvalues] at hexec
    cases hexec
  · exact ⟨forms, results, m', cause', after', heach, hfails, herror⟩

end MiniLisp
