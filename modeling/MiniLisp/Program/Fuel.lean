import MiniLisp.Eval.Fuel
import MiniLisp.Program.Exec

/-!
# Fuel of programs

A program that ends with some fuel ends in the same way with any larger amount (`exec_below`,
`execEach_below`). So it may be run with an amount that no machine uses up (`ampleFuel`), and
nothing that is said about a program has to say how much it was given.
-/

namespace MiniLisp

namespace Action.Below

variable {ε α : Type}

theorem attempt {δ : Type} {x y : Action ε α} (h : Below x y) :
    Below (x.attempt : Action δ _) y.attempt := by
  intro m hm
  have hx : x m ≠ .outOfFuel := by
    intro e
    exact hm (by unfold Action.attempt; rw [e])
  unfold Action.attempt
  rw [h m hx]

theorem mapError {δ : Type} {x y : Action ε α} (h : Below x y) (f : ε → δ) :
    Below (x.mapError f) (y.mapError f) := by
  intro m hm
  have hx : x m ≠ .outOfFuel := by
    intro e
    exact hm (by unfold Action.mapError; rw [e])
  unfold Action.mapError
  rw [h m hx]

end Action.Below

open MiniLisp.Action (Below)

theorem evaluateTop_below {fuel more : Nat} (h : fuel ≤ more) (ctx : Context) (form : Node) :
    Below (evaluateTop fuel ctx form) (evaluateTop more ctx form) :=
  .bind (.refl _) fun _ ↦ .bind (.refl _) fun _ ↦ .bind (.refl _) fun _ ↦ runStep_mono h _

/-- What a program does up to its first error does not depend on the fuel. -/
theorem exec_below {fuel more : Nat} (h : fuel ≤ more) (ctx : Context) (source : String) :
    Below (exec fuel ctx source) (exec more ctx source) := by
  have all : ∀ forms, Below (evaluateAll fuel ctx forms) (evaluateAll more ctx forms) := by
    intro forms
    induction forms with
    | nil => exact .refl _
    | cons form rest ih =>
      exact .bind (evaluateTop_below h ctx form) fun _ ↦ .bind ih fun _ ↦ .refl _
  unfold exec
  split
  · exact .refl _
  · exact (all _).mapError _

/-- What all forms of a program do does not depend on the fuel. -/
theorem execEach_below {fuel more : Nat} (h : fuel ≤ more) (ctx : Context) (source : String) :
    Below (execEach fuel ctx source) (execEach more ctx source) := by
  have each : ∀ forms, Below (evaluateEach fuel ctx forms) (evaluateEach more ctx forms) := by
    intro forms
    induction forms with
    | nil => exact .refl _
    | cons form rest ih =>
      exact .bind (evaluateTop_below h ctx form).attempt fun _ ↦ .bind ih fun _ ↦ .refl _
  unfold execEach
  split
  · exact .refl _
  · exact each _

end MiniLisp
