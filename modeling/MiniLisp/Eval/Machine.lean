import MiniLisp.Data.Label
import MiniLisp.Eval.Error
import MiniLisp.Scope.Global

/-!
# The machine

Evaluation works on a machine: the store of scopes and the next label that is free. What it does to
the machine is made of a few actions, which are all given here; the rest of the evaluator only
combines them.

An action ends in a value or in an error, and leaves a machine behind either way, since what was
done before an error stays done. A third ending is that the action was given too little fuel: it
then says nothing about the program.
-/

namespace MiniLisp

/-- What can be told about a run while it goes on. -/
inductive Event where
  /-- The evaluation of a form of a program begins, in a scope of this name. -/
  | evaluating (form : Node) (scope : String)
  /-- A macro was expanded. -/
  | expanded (name : String) (expansion : Node)
  /-- A procedure is about to be applied. -/
  | applying (name : Option String) (given : Nat)

/-- What evaluation works on. -/
structure Machine where
  store : Store
  /-- The next label that is free. -/
  label : Label
  /-- The events so far, the last one first, if they are to be kept. -/
  trace : Option (List Event)

/-- The machine without any scope. -/
def Machine.initial : Machine := ⟨.empty, 0, none⟩

/-- How an action ends. -/
inductive Outcome (ε α : Type) where
  | ok (value : α) (machine : Machine)
  | error (cause : ε) (machine : Machine)
  | outOfFuel

/-- What is done to a machine. -/
def Action (ε α : Type) : Type := Machine → Outcome ε α

namespace Action

variable {ε α β : Type}

/-- The action that only gives a value. -/
@[inline] def pure (value : α) : Action ε α := fun m ↦ .ok value m

/-- One action after the other. -/
@[inline] def bind (x : Action ε α) (f : α → Action ε β) : Action ε β := fun m ↦
  match x m with
  | .ok value m => f value m
  | .error cause m => .error cause m
  | .outOfFuel => .outOfFuel

/-- The action that fails. -/
@[inline] def fail (cause : ε) : Action ε α := fun m ↦ .error cause m

instance : Monad (Action ε) where
  pure := pure
  bind := bind

/-- The value of a computation that may fail. -/
@[inline] def ofExcept : Except ε α → Action ε α
  | .ok value => pure value
  | .error cause => fail cause

theorem bind_pure (x : Action ε α) : bind x pure = x := by
  funext m
  unfold bind
  cases x m <;> rfl

theorem bind_assoc {γ : Type} (x : Action ε α) (f : α → Action ε β) (g : β → Action ε γ) :
    bind (bind x f) g = bind x fun value ↦ bind (f value) g := by
  funext m
  unfold bind
  cases x m <;> rfl

instance : LawfulMonad (Action ε) :=
  LawfulMonad.mk' _ (fun x ↦ bind_pure x) (fun _ _ ↦ rfl) (fun x f g ↦ bind_assoc x f g)

theorem bind_of_ok {x : Action ε α} {m next : Machine} {value : α} (h : x m = .ok value next)
    (f : α → Action ε β) : (x >>= f) m = f value next := by
  show bind x f m = _
  rw [bind, h]

theorem bind_of_error {x : Action ε α} {m next : Machine} {cause : ε} (h : x m = .error cause next)
    (f : α → Action ε β) : (x >>= f) m = .error cause next := by
  show bind x f m = _
  rw [bind, h]

theorem bind_of_outOfFuel {x : Action ε α} {m : Machine} (h : x m = .outOfFuel)
    (f : α → Action ε β) : (x >>= f) m = .outOfFuel := by
  show bind x f m = _
  rw [bind, h]

/-! ### The actions on the machine -/

/-- The store of scopes. -/
def store : Action ε Store := fun m ↦ .ok m.store m

/-- Adds a scope that stands in no other. -/
def addScope (scope : Scope) : Action ε ScopeId := fun m ↦
  .ok m.store.next { m with store := m.store.add scope }

/-- Adds a scope inside another one, with bindings made one after the other. -/
def enter (outer : ScopeId) (name : Option String) (pairs : List (String × Node)) :
    Action ε ScopeId := fun m ↦
  .ok m.store.next { m with store := m.store.add ⟨name, some outer, Bindings.ofList pairs⟩ }

/-- Binds a name in a scope itself. -/
def define (scope : ScopeId) (name : String) (value : Node) : Action ε Unit := fun m ↦
  .ok () { m with store := m.store.define scope name value }

/-- Changes what a name means in a scope. -/
def assign (scope : ScopeId) (name : String) (value : Node) (span : Span) : Action EvalError Unit :=
  fun m ↦ match m.store.resolve? name scope with
    | some (owner, _) => .ok () { m with store := m.store.define owner name value }
    | none => .error (.unbound name span) m

/-- An assignment changes the store as `Store.assign?` says, and fails where that has no answer. -/
theorem assign_eq (scope : ScopeId) (name : String) (value : Node) (span : Span) (m : Machine) :
    assign scope name value span m = match m.store.assign? scope name value with
      | some store => .ok () { m with store := store }
      | none => .error (.unbound name span) m := by
  unfold assign Store.assign?
  cases m.store.resolve? name scope <;> rfl

/-- A label that was not used before. -/
def fresh : Action ε Label := fun m ↦ .ok m.label { m with label := m.label + 1 }

/-- The node with labels on all its pairs. -/
def adopt (n : Node) : Action ε Node := fun m ↦
  let adopted := n.adopt m.label
  .ok adopted.1 { m with label := adopted.2 }

/-- Keeps an event, if events are to be kept. -/
def note (event : Event) : Action ε Unit := fun m ↦
  .ok () { m with trace := m.trace.map (event :: ·) }

end Action

end MiniLisp
