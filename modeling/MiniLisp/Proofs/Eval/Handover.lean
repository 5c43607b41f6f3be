import Mathlib.Logic.Relation
import MiniLisp.Proofs.Eval.Relabel

/-!
# Calls that are handed over

Two native procedures answer a call with another one. `apply` calls its first argument with the
arguments in between and the elements of the last one, and the host operation `tail` calls its first
argument with the others (`HandsOver`). The other call is made in the same place and with the same
span, so it is a direct call but for the event of the first one (`apply_eq_call`), and so is what it
comes to after being handed over any number of times (`Handed.runStep_eq`).
-/

namespace MiniLisp

/-- A call is answered with another one. -/
inductive HandsOver : Procedure × List Node → Procedure × List Node → Prop
  | apply (name : String) {callee last : Node} {p : Procedure} (given : List Node)
      {items : List Node} (hp : callee.procedure? = some p) (hlast : last.toList? = some items) :
      HandsOver (.native ⟨name, .builtin .apply⟩, callee :: (given ++ [last])) (p, given ++ items)
  | tail (name : String) {target : Node} {p : Procedure} (args : List Node)
      (hp : target.procedure? = some p) :
      HandsOver (.native ⟨name, .host .tail⟩, target :: args) (p, args)

theorem Builtin.spread_append (given : List Node) {last : Node} {items : List Node}
    (h : last.toList? = some items) : spread (given ++ [last]) = .ok (given ++ items) := by
  induction given with
  | nil =>
    rw [List.nil_append, spread, h]
    rfl
  | cons n given ih =>
    obtain ⟨second, rest, hrest⟩ : ∃ second rest, given ++ [last] = second :: rest :=
      List.exists_cons_of_ne_nil (List.concat_ne_nil last given)
    rw [List.cons_append, hrest, spread_cons, ← hrest, ih]
    rfl

variable {call other : Procedure × List Node} (ctx : Context) (span : Span)

/-- The step for a call that is handed over only keeps an event. -/
theorem HandsOver.next_eq (h : HandsOver call other) (run : Runner) :
    (Step.apply call.1 call.2 ctx span).next run = (do
      .note (.applying call.1.name? call.2.length)
      return .apply other.1 other.2 ctx span) := by
  refine bind_congr fun _ ↦ ?_
  cases h with
  | @apply name callee last p given items hp hlast =>
    have hrun : Builtin.apply.run span (callee :: (given ++ [last])) =
        .ok (.call p (given ++ items)) := by
      have haccepts : Builtin.apply.arity.accepts (callee :: (given ++ [last])).length = true :=
        decide_eq_true (Nat.le_add_left 1 (given ++ [last]).length)
      rw [Builtin.run, if_pos haccepts]
      unfold Builtin.answer
      dsimp only
      rw [hp, Builtin.spread_append given hlast]
      rfl
    show (Action.ofExcept (Builtin.apply.run span (callee :: (given ++ [last]))) >>= _) = _
    rw [hrun]
    rfl
  | @tail name target p args hp =>
    show HostOperation.step run ctx span .tail (target :: args) = _
    unfold HostOperation.step
    dsimp only
    rw [hp]

/-- A call that is handed over comes to the same end as the other one, one step later. -/
theorem HandsOver.runStep_eq (h : HandsOver call other) (fuel : Nat) (m : Machine) :
    (runStep (fuel + 1) (.apply call.1 call.2 ctx span) m).quiet =
      (runStep fuel (.apply other.1 other.2 ctx span) m).quiet := by
  let noted : Machine :=
    { m with trace := m.trace.map (.applying call.1.name? call.2.length :: ·) }
  have hnext (run : Runner) : (Step.apply call.1 call.2 ctx span).next run >>= run = (do
      .note (.applying call.1.name? call.2.length)
      run (.apply other.1 other.2 ctx span)) := by
    rw [h.next_eq, bind_assoc]
    rfl
  have hrun : runStep (fuel + 1) (.apply call.1 call.2 ctx span) m =
      runStep fuel (.apply other.1 other.2 ctx span) noted := congrFun (hnext (runStep fuel)) m
  rw [hrun, ← runStep_quiet, ← runStep_quiet]
  rfl

/-- **A call comes to the same end as the one that it is handed over to in the end**, however often
that is. -/
theorem Handed.runStep_eq (h : Relation.ReflTransGen HandsOver call other) :
    ∃ count, ∀ fuel m, (runStep (fuel + count) (.apply call.1 call.2 ctx span) m).quiet =
      (runStep fuel (.apply other.1 other.2 ctx span) m).quiet := by
  induction h with
  | refl => exact ⟨0, fun _ _ ↦ rfl⟩
  | tail _ hands ih =>
    obtain ⟨count, hcount⟩ := ih
    refine ⟨count + 1, fun fuel m ↦ ?_⟩
    rw [Nat.add_comm count, ← Nat.add_assoc, hcount]
    exact hands.runStep_eq ctx span fuel m

/-- **`apply` is a direct call.** Applying `apply`, under whatever name, to a procedure of any kind,
some arguments and a proper list comes to the same end as applying the procedure to the arguments and
the elements of the list in the same place with the same span, one step later: it gives the same
value or the same error, and leaves the same scopes and the same next label. -/
theorem apply_eq_call (name : String) {callee last : Node} {p : Procedure}
    (hp : callee.procedure? = some p) (given : List Node) {items : List Node}
    (hlast : last.toList? = some items) (fuel : Nat) (m : Machine) :
    (runStep (fuel + 1)
      (.apply (.native ⟨name, .builtin .apply⟩) (callee :: (given ++ [last])) ctx span) m).quiet =
        (runStep fuel (.apply p (given ++ items) ctx span) m).quiet :=
  (HandsOver.apply name given hp hlast).runStep_eq ctx span fuel m

/-- Where `apply` is applied to `apply`, both calls are direct ones. -/
theorem apply_eq_call_apply :
    let native (b : Builtin) : Node := .atom (.native b.native) .nowhere
    let number (k : Int) : Node := .number (.ofInt k) .nowhere
    let list (items : List Node) : Node := .ofList items .nowhere
    let apply : Procedure := .native Builtin.apply.native
    let ctx : Context := ⟨0, none⟩
    (runStep 4 (.apply apply [native .apply, native .add, number 1, list [list [number 2]]] ctx
      .nowhere) .initial).quiet =
        (runStep 3 (.apply apply [native .add, number 1, list [number 2]] ctx .nowhere)
          .initial).quiet ∧
      (runStep 3 (.apply apply [native .add, number 1, list [number 2]] ctx .nowhere)
        .initial).quiet = .ok (number 3) .initial := by
  intro native number list apply ctx
  exact ⟨apply_eq_call ctx .nowhere "apply" rfl [native .add, number 1]
    (Node.toList?_ofList _ _) 3 .initial, rfl⟩

end MiniLisp
