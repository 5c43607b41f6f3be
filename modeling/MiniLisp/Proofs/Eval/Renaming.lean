import MiniLisp.Eval.Run
import MiniLisp.Proofs.Scope.Renaming

/-!
# Actions on machines with other labels

Two machines are the same up to a renaming of labels when the store of the second one and its next
free label are those of the first one, renamed (`Renaming.Machines`); the events that they keep do
not matter. An action is the renaming of another one when on such machines it comes to the same end,
again with the labels renamed (`Renaming.Renames`).

Each of the actions that evaluation is made of, given what is renamed, is the renaming of itself, and
so are their combinations. A built-in operation answers arguments that are renamed by its answer,
renamed (`Builtin.run_relabel`), since it only ever compares labels.
-/

namespace MiniLisp

/-! ### What holds data -/

/-- The same fault, with other labels in the data it is about. -/
def FormFault.relabel (f : Label → Label) : FormFault → FormFault
  | notSymbol part found => .notSymbol part (found.relabel f)
  | parameters found => .parameters (found.relabel f)
  | binding found => .binding (found.relabel f)
  | spliceOf found => .spliceOf (found.relabel f)
  | fault => fault

/-- The same fault, with other labels in the data it is about. -/
def ArgumentFault.relabel (f : Label → Label) : ArgumentFault → ArgumentFault
  | improper rest => .improper (rest.relabel f)
  | notNumber operation place found => .notNumber operation place (found.relabel f)
  | notPair operation found => .notPair operation (found.relabel f)
  | notSpread found => .notSpread (found.relabel f)
  | fault => fault

/-- The same error, with other labels in the data it is about. -/
def EvalError.relabel (f : Label → Label) : EvalError → EvalError
  | notCallable name value span => .notCallable name (value.relabel f) span
  | specialForm fault span => .specialForm (fault.relabel f) span
  | arguments fault span => .arguments (fault.relabel f) span
  | error => error

/-- The same answer with other labels. -/
def Reply.relabel (f : Label → Label) : Reply → Reply
  | value n => .value (n.relabel f)
  | call procedure args => .call (procedure.relabel f) (args.map (Node.relabel f))

/-- The same step with other labels. -/
def Step.relabel (f : Label → Label) : Step → Step
  | done value => .done (value.relabel f)
  | eval form ctx => .eval (form.relabel f) ctx
  | apply procedure args ctx span =>
    .apply (procedure.relabel f) (args.map (Node.relabel f)) ctx span
  | loop condition body ctx span =>
    .loop (condition.relabel f) (body.map (Node.relabel f)) ctx span

/-- The same machine with other labels, and without its events. -/
def Machine.relabel (f : Label → Label) (m : Machine) : Machine :=
  ⟨m.store.relabel f, f m.label, none⟩

/-- The same end of an evaluation with other labels, and without the events. -/
def Outcome.relabel (f : Label → Label) : Outcome EvalError Node → Outcome EvalError Node
  | ok value m => .ok (value.relabel f) (m.relabel f)
  | error e m => .error (e.relabel f) (m.relabel f)
  | outOfFuel => .outOfFuel

namespace Renaming

variable (f : Renaming) {α α' β β' : Type}

/-- The result of a computation that may fail, with a value taken to another one and other labels
in the error. -/
def result (g : α → α') : Except EvalError α → Except EvalError α'
  | .ok value => .ok (g value)
  | .error e => .error (e.relabel f)

/-- The same end with other labels, where those given from then on are new. -/
inductive Ends (g : α → α') : Outcome EvalError α → Outcome EvalError α' → Prop
  | ok {value : α} {m : Machine} (hm : f.limit ≤ m.label) :
      Ends g (.ok value m) (.ok (g value) (m.relabel f))
  | error {e : EvalError} {m : Machine} (hm : f.limit ≤ m.label) :
      Ends g (.error e m) (.error (e.relabel f) (m.relabel f))
  | outOfFuel : Ends g .outOfFuel .outOfFuel

/-- On the renamed machine the second action comes to the same end as the first one does, with the
labels renamed. -/
def Renames (g : α → α') (x : Action EvalError α) (y : Action EvalError α') : Prop :=
  ∀ m, f.limit ≤ m.label → f.Ends g (x m) (y (m.relabel f))

variable {f}

/-- The end of an evaluation with other labels is the one with its labels renamed. -/
theorem Ends.eq {x y : Outcome EvalError Node} (h : f.Ends (Node.relabel f) x y) :
    y = x.relabel f := by
  cases h <;> rfl

namespace Renames

variable {g : α → α'} {g' : β → β'} {x : Action EvalError α} {y : Action EvalError α'}

theorem pure {value : α} {value' : α'} (h : value' = g value) :
    f.Renames g (Pure.pure value) (Pure.pure value') :=
  fun _ hm ↦ h ▸ .ok hm

theorem fail {e e' : EvalError} (h : e' = e.relabel f) :
    f.Renames g (Action.fail e) (Action.fail e') :=
  fun _ hm ↦ h ▸ .error hm

theorem bind (h : f.Renames g x y) {k : α → Action EvalError β} {k' : α' → Action EvalError β'}
    (hk : ∀ value, f.Renames g' (k value) (k' (g value))) : f.Renames g' (x >>= k) (y >>= k') := by
  intro m hm
  have hx := h m hm
  show f.Ends g' (Action.bind x k m) (Action.bind y k' (m.relabel f))
  unfold Action.bind
  generalize x m = a at hx ⊢
  generalize y (m.relabel f) = b at hx ⊢
  cases hx with
  | ok hm => exact hk _ _ hm
  | error hm => exact .error hm
  | outOfFuel => exact .outOfFuel

theorem map (h : f.Renames g x y) {k : α → β} {k' : α' → β'}
    (hk : ∀ value, k' (g value) = g' (k value)) : f.Renames g' (k <$> x) (k' <$> y) := by
  rw [← bind_pure_comp, ← bind_pure_comp]
  exact h.bind fun value ↦ .pure (hk value)

theorem ofExcept {e : Except EvalError α} {e' : Except EvalError α'} (h : e' = f.result g e) :
    f.Renames g (Action.ofExcept e) (Action.ofExcept e') := by
  subst h
  cases e with
  | ok value => exact .pure rfl
  | error e => exact .fail rfl

/-! ### The actions on the machine -/

theorem store : f.Renames (Store.relabel f) Action.store Action.store := fun _ hm ↦ .ok hm

theorem enter (outer : ScopeId) (name : Option String) (pairs : Bindings) :
    f.Renames id (Action.enter outer name pairs) (Action.enter outer name (pairs.relabel f)) := by
  intro m hm
  have hadd := m.store.add_relabel f ⟨name, some outer, Bindings.ofList pairs⟩
  rw [Scope.relabel, Bindings.ofList_relabel] at hadd
  show f.Ends id (.ok _ _) (.ok (m.store.relabel f).next
    ⟨(m.store.relabel f).add ⟨name, some outer, Bindings.ofList (pairs.relabel f)⟩, f m.label, none⟩)
  rw [← hadd, Store.next_relabel]
  exact .ok hm

theorem define (scope : ScopeId) (name : String) (value : Node) :
    f.Renames id (Action.define scope name value) (Action.define scope name (value.relabel f)) := by
  intro m hm
  show f.Ends id (.ok _ _)
    (.ok _ ⟨(m.store.relabel f).define scope name (value.relabel f), f m.label, none⟩)
  rw [← Store.define_relabel]
  exact .ok hm

theorem assign (scope : ScopeId) (name : String) (value : Node) (span : Span) :
    f.Renames id (Action.assign scope name value span)
      (Action.assign scope name (value.relabel f) span) := by
  intro m hm
  have hfound := m.store.resolve?_relabel f scope name
  unfold Action.assign
  cases hresolve : m.store.resolve? name scope with
  | none =>
    rw [hresolve] at hfound
    rw [show (m.relabel f).store.resolve? name scope = none from hfound]
    exact .error hm
  | some found =>
    rw [hresolve] at hfound
    rw [show (m.relabel f).store.resolve? name scope = some (found.1, found.2.relabel f) from
      hfound]
    exact define found.1 name value m hm

theorem fresh : f.Renames f Action.fresh Action.fresh := by
  intro m hm
  show f.Ends f (.ok _ _) (.ok (f m.label) ⟨m.store.relabel f, f m.label + 1, none⟩)
  rw [← f.succ m.label hm]
  exact .ok (Nat.le_succ_of_le hm)

theorem adopt {n n' : Node} (h : n' = n.relabel f) :
    f.Renames (Node.relabel f) (Action.adopt n) (Action.adopt n') := by
  subst h
  intro m hm
  show f.Ends _ (.ok _ _) (.ok ((n.relabel f).adopt (f m.label)).1
    ⟨m.store.relabel f, ((n.relabel f).adopt (f m.label)).2, none⟩)
  rw [n.adopt_relabel f hm]
  exact .ok (Nat.le_trans hm (n.le_adopt m.label))

theorem note (event event' : Event) : f.Renames id (Action.note event) (Action.note event') :=
  fun _ hm ↦ .ok hm

theorem lookup (name : String) (span : Span) (ctx : Context) :
    f.Renames (Node.relabel f) (lookup name span ctx) (lookup name span ctx) := by
  intro m hm
  have hget (scope : ScopeId) :
      (m.relabel f).store.get? name scope = (m.store.get? name scope).map (Node.relabel f) :=
    m.store.get?_relabel f scope name
  unfold MiniLisp.lookup
  rw [hget]
  cases m.store.get? name ctx.scope with
  | some value => exact .ok hm
  | none =>
    cases ctx.dynamic with
    | none => exact .error hm
    | some active =>
      dsimp only [Option.map_none]
      rw [hget]
      split
      · exact .error hm
      · cases m.store.get? name active with
        | some value => exact .ok hm
        | none => exact .error hm

end Renames

end Renaming

/-! ### Built-in operations -/

namespace Builtin

variable (f : Renaming) (op : Builtin) (s : Span) (args : List Node)

theorem expectNumber_relabel (place : Nat) (n : Node) :
    expectNumber op s place (n.relabel f) = f.result id (expectNumber op s place n) := by
  unfold expectNumber
  rw [Node.number?_relabel]
  cases n.number? <;> rfl

theorem foldNumbers_relabel (g : Number → Number → Except NumberError Number) (place : Nat)
    (acc : Number) : foldNumbers op s g place acc (args.map (Node.relabel f)) =
      f.result id (foldNumbers op s g place acc args) := by
  induction args generalizing place acc with
  | nil => rfl
  | cons n rest ih =>
    rw [List.map_cons, foldNumbers, foldNumbers, expectNumber_relabel]
    cases expectNumber op s place n with
    | error e => rfl
    | ok x =>
      dsimp only [Renaming.result, id]
      cases g acc x with
      | error fault => rfl
      | ok acc => exact ih _ _

theorem foldFromFirst_relabel (neutral : Number)
    (g : Number → Number → Except NumberError Number) :
    foldFromFirst op s neutral g (args.map (Node.relabel f)) =
      f.result id (foldFromFirst op s neutral g args) := by
  match args with
  | [] => rfl
  | [n] => exact foldNumbers_relabel f op s [n] g 1 neutral
  | n :: n₂ :: rest =>
    have hrest := foldNumbers_relabel f op s (n₂ :: rest) g 2
    rw [List.map_cons] at hrest
    rw [List.map_cons, List.map_cons, foldFromFirst, foldFromFirst, expectNumber_relabel]
    · cases expectNumber op s 1 n with
      | error e => rfl
      | ok x => exact hrest x
    · exact nofun
    · exact nofun

theorem ordered_relabel (test : Ordering → Bool) (place : Nat) (result : Bool) (last : Number) :
    ordered op s test place result last (args.map (Node.relabel f)) =
      f.result id (ordered op s test place result last args) := by
  induction args generalizing place result last with
  | nil => rfl
  | cons n rest ih =>
    rw [List.map_cons, ordered, ordered, expectNumber_relabel]
    cases expectNumber op s place n with
    | error e => rfl
    | ok x => exact ih _ _ _

theorem compareAll_relabel (test : Ordering → Bool) :
    compareAll op s test (args.map (Node.relabel f)) = f.result id (compareAll op s test args) := by
  cases args with
  | nil => rfl
  | cons n rest =>
    rw [List.map_cons, compareAll, compareAll, expectNumber_relabel]
    cases expectNumber op s 1 n with
    | error e => rfl
    | ok x => exact ordered_relabel f op s rest test 2 true x

theorem numeric_relabel (e : Except EvalError Number) :
    numeric s (f.result id e) = f.result (Reply.relabel f) (numeric s e) := by
  cases e with
  | ok x => exact congrArg (Except.ok ∘ Reply.value) (Node.relabel_atom f _ s).symm
  | error e => rfl

theorem truth_relabel (e : Except EvalError Bool) :
    truth s (f.result id e) = f.result (Reply.relabel f) (truth s e) := by
  cases e with
  | ok b => exact congrArg (Except.ok ∘ Reply.value) (Node.relabel_atom f _ s).symm
  | error e => rfl

theorem expectPair_relabel (n : Node) : expectPair op (n.relabel f) =
    f.result (Prod.map (Node.relabel f) (Node.relabel f)) (expectPair op n) := by
  have herror : (.error (.arguments (.notPair op (n.relabel f)) (n.relabel f).span) :
      Except EvalError (Node × Node)) = f.result (Prod.map (Node.relabel f) (Node.relabel f))
        (.error (.arguments (.notPair op n) n.span)) := by
    rw [Node.span_relabel]
    rfl
  cases n with
  | pair => rw [Node.relabel_pair]; rfl
  | atom => rw [Node.relabel_atom] at herror ⊢; exact herror
  | closure => rw [Node.relabel_closure] at herror ⊢; exact herror
  | transformer => rw [Node.relabel_transformer] at herror ⊢; exact herror

theorem spread_relabel : spread (args.map (Node.relabel f)) =
    f.result (List.map (Node.relabel f)) (spread args) := by
  induction args with
  | nil => rfl
  | cons n rest ih =>
    cases rest with
    | nil =>
      rw [List.map_cons, List.map_nil, spread, spread, Node.toList?_relabel, Node.span_relabel]
      cases n.toList? <;> rfl
    | cons second rest =>
      rw [List.map_cons] at ih
      rw [List.map_cons, List.map_cons, spread_cons, spread_cons, ih]
      cases spread (second :: rest) <;> rfl

/-- An answer that is an atom has no labels. -/
theorem leaf_relabel (a : Atom) : (.ok (.value (.atom a s)) : Except EvalError Reply) =
    f.result (Reply.relabel f) (.ok (.value (.atom a s))) :=
  congrArg (Except.ok ∘ Reply.value) (Node.relabel_atom f a s).symm

theorem answer_relabel (hcount : op.arity.accepts args.length = true) :
    op.answer s (args.map (Node.relabel f)) = f.result (Reply.relabel f) (op.answer s args) := by
  -- The shape of the arguments, for the operations that take a fixed number of them.
  have one (harity : op.arity = .exactly 1) : ∃ n, args = [n] := by
    rw [harity] at hcount
    exact List.length_eq_one_iff.mp (beq_iff_eq.mp hcount)
  have two (harity : op.arity = .exactly 2) : ∃ a d, args = [a, d] := by
    rw [harity] at hcount
    match args, beq_iff_eq.mp hcount with
    | [a, d], _ => exact ⟨a, d, rfl⟩
  have numeric_of {e e' : Except EvalError Number} (h : e' = f.result id e) :
      numeric s e' = f.result (Reply.relabel f) (numeric s e) := h ▸ numeric_relabel f s e
  have truth_of {e e' : Except EvalError Bool} (h : e' = f.result id e) :
      truth s e' = f.result (Reply.relabel f) (truth s e) := h ▸ truth_relabel f s e
  cases op with
  | add => exact numeric_of (foldNumbers_relabel f _ s args _ _ _)
  | mul => exact numeric_of (foldNumbers_relabel f _ s args _ _ _)
  | sub =>
    match args with
    | [] => exact absurd hcount (by decide)
    | [n] =>
      have hnumber := expectNumber_relabel f .sub s 1 n
      refine numeric_of ?_
      rw [hnumber]
      cases expectNumber .sub s 1 n <;> rfl
    | n :: n₂ :: rest => exact numeric_of (foldFromFirst_relabel f _ s (n :: n₂ :: rest) _ _)
  | div => exact numeric_of (foldFromFirst_relabel f _ s args _ _)
  | expt => exact numeric_of (foldFromFirst_relabel f _ s args _ _)
  | numEq => exact truth_of (compareAll_relabel f _ s args _)
  | less => exact truth_of (compareAll_relabel f _ s args _)
  | lessEq => exact truth_of (compareAll_relabel f _ s args _)
  | greater => exact truth_of (compareAll_relabel f _ s args _)
  | greaterEq => exact truth_of (compareAll_relabel f _ s args _)
  | same =>
    obtain ⟨a, d, rfl⟩ := two rfl
    have hsame := Node.same_relabel f.injective a d
    exact (congrArg (fun b ↦ Except.ok (Reply.value (.boolean b s))) hsame).trans
      (leaf_relabel f s _)
  | identical =>
    obtain ⟨a, d, rfl⟩ := two rfl
    have hidentical := Node.identical_relabel f.injective a d
    exact (congrArg (fun b ↦ Except.ok (Reply.value (.boolean b s))) hidentical).trans
      (leaf_relabel f s _)
  | cons =>
    obtain ⟨a, d, rfl⟩ := two rfl
    exact congrArg (Except.ok ∘ Reply.value) (Node.relabel_pair f none a d s).symm
  | car =>
    obtain ⟨n, rfl⟩ := one rfl
    show (expectPair .car (n.relabel f)).map _ = f.result _ ((expectPair .car n).map _)
    rw [expectPair_relabel]
    cases expectPair .car n <;> rfl
  | cdr =>
    obtain ⟨n, rfl⟩ := one rfl
    show (expectPair .cdr (n.relabel f)).map _ = f.result _ ((expectPair .cdr n).map _)
    rw [expectPair_relabel]
    cases expectPair .cdr n <;> rfl
  | cadr =>
    obtain ⟨n, rfl⟩ := one rfl
    show (expectPair .cadr (n.relabel f) >>= _) = f.result _ (expectPair .cadr n >>= _)
    rw [expectPair_relabel]
    cases expectPair .cadr n with
    | error e => rfl
    | ok parts =>
      show (expectPair .cadr (parts.2.relabel f) >>= _) = f.result _ (expectPair .cadr parts.2 >>= _)
      rw [expectPair_relabel]
      cases expectPair .cadr parts.2 <;> rfl
  | list => exact congrArg (Except.ok ∘ Reply.value) (Node.ofList_relabel f args s).symm
  | concat =>
    have htexts : (args.map (Node.relabel f)).map Node.displayText = args.map Node.displayText := by
      rw [List.map_map]
      exact List.map_congr_left fun n _ ↦ n.displayText_relabel f
    exact (congrArg (fun texts ↦ Except.ok (Reply.value (.string (String.join texts) s)))
      htexts).trans (leaf_relabel f s _)
  | string =>
    obtain ⟨n, rfl⟩ := one rfl
    exact (congrArg (fun text ↦ Except.ok (Reply.value (.string text s)))
      (n.displayText_relabel f)).trans (leaf_relabel f s _)
  | not =>
    obtain ⟨n, rfl⟩ := one rfl
    exact (congrArg (fun b ↦ Except.ok (Reply.value (.boolean (!b) s)))
      (n.isTruthy_relabel f)).trans (leaf_relabel f s _)
  | typeName =>
    obtain ⟨n, rfl⟩ := one rfl
    exact (congrArg (fun name ↦ Except.ok (Reply.value (.string name s)))
      (n.typeName_relabel f)).trans (leaf_relabel f s _)
  | apply =>
    match args with
    | [] => exact absurd hcount (by decide)
    | n :: rest =>
      rw [List.map_cons]
      unfold answer
      dsimp only
      rw [Node.procedure?_relabel, spread_relabel]
      cases n.procedure? with
      | none => rfl
      | some p => cases spread rest <;> rfl
  | isNull | isPair | isNumber | isBoolean | isSymbol | isString | isProcedure =>
    obtain ⟨n, rfl⟩ := one rfl
    exact (congrArg (fun name ↦ Except.ok (Reply.value (.boolean (name == _) s)))
      (n.typeName_relabel f)).trans (leaf_relabel f s _)

/-- **A built-in operation does not see which labels there are**, only which ones are the same. -/
theorem run_relabel :
    op.run s (args.map (Node.relabel f)) = f.result (Reply.relabel f) (op.run s args) := by
  unfold run
  rw [List.length_map]
  split
  · next hcount => exact answer_relabel f op s args hcount
  · rfl

end Builtin

end MiniLisp
