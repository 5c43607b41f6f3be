import MiniLisp.Eval.Run
import MiniLisp.Proofs.Scope.Correspondence

/-!
# Actions on corresponding machines

Two machines correspond when their stores do and so do the labels that they will give out
(`Correspondence.Machines`); the events that they keep do not matter. Two actions are alike when on
corresponding machines they come to the same end: both give a value, or both fail with the same
complaint, and leave corresponding machines behind, or both run out of fuel (`Correspondence.Ends`).
Errors with the same complaint have the same message (`EvalError.message_eq`).

Each of the actions that evaluation is made of is alike to itself, as long as what it is given
corresponds, and likeness passes through their combinations.
-/

namespace MiniLisp

/-! ### Errors -/

/-- What an error says, apart from its place: its kind, and the words that go with it. -/
inductive Complaint where
  | unbound (name : String)
  | notCallable (name : Option String) (value : String)
  | specialForm (words : String)
  | arguments (words : String)
  | number (fault : NumberError)

/-- The message that a complaint is told by. -/
def Complaint.message : Complaint → String
  | unbound name => name ++ " is not bound"
  | notCallable (some name) _ => "Variable \x60" ++ name ++ "' is not a function"
  | notCallable none value => "Expected a procedure, but got: " ++ value
  | specialForm words => "Invalid special form: " ++ words
  | arguments words => "Invalid arguments: " ++ words
  | number fault => fault.message

/-- What an error says. -/
def EvalError.complaint : EvalError → Complaint
  | unbound name _ => .unbound name
  | notCallable name value _ => .notCallable name value.text
  | specialForm fault _ => .specialForm fault.message
  | arguments fault _ => .arguments fault.message
  | number fault _ => .number fault

/-- The message of an error is that of its complaint. -/
theorem EvalError.message_eq (e : EvalError) : e.message = e.complaint.message := by
  cases e with
  | notCallable name => cases name <;> rfl
  | _ => rfl

namespace Correspondence

variable (C : Correspondence) {α α' β β' : Type}

/-- The errors say the same. -/
structure Errors (e e' : EvalError) : Prop where
  complaint : e.complaint = e'.complaint
  span : C.Spans e.span e'.span

/-- Both computations give a value, or both fail with the same complaint. -/
inductive Excepts (post : α → α' → Prop) : Except EvalError α → Except EvalError α' → Prop
  | ok {value : α} {value' : α'} (hv : post value value') : Excepts post (.ok value) (.ok value')
  | error {e e' : EvalError} (he : C.Errors e e') : Excepts post (.error e) (.error e')

/-! ### Machines and actions -/

/-- The stores correspond, and the labels that are free. -/
structure Machines (m m' : Machine) : Prop where
  store : C.Stores m.store m'.store
  labels : C.LabelsFrom m.label m'.label

/-- The same end on corresponding machines. -/
inductive Ends (post : α → α' → Prop) : Outcome EvalError α → Outcome EvalError α' → Prop
  | ok {value : α} {value' : α'} {m m' : Machine} (hv : post value value')
      (hm : C.Machines m m') : Ends post (.ok value m) (.ok value' m')
  | error {e e' : EvalError} {m m' : Machine} (he : C.Errors e e') (hm : C.Machines m m') :
      Ends post (.error e m) (.error e' m')
  | outOfFuel : Ends post .outOfFuel .outOfFuel

/-- On corresponding machines both actions come to the same end. -/
def Alike (post : α → α' → Prop) (x : Action EvalError α) (y : Action EvalError α') : Prop :=
  ∀ m m', C.Machines m m' → C.Ends post (x m) (y m')

/-- The places are the same. -/
structure Places (ctx ctx' : Context) : Prop where
  scope : C.scope ctx.scope ctx'.scope
  dynamic : Option.Rel C.scope ctx.dynamic ctx'.dynamic

variable {C}

theorem Errors.arguments {fault fault' : ArgumentFault} {s s' : Span}
    (h : fault.message = fault'.message) (hs : C.Spans s s') :
    C.Errors (.arguments fault s) (.arguments fault' s') :=
  ⟨congrArg Complaint.arguments h, hs⟩

theorem Errors.specialForm {fault fault' : FormFault} {s s' : Span}
    (h : fault.message = fault'.message) (hs : C.Spans s s') :
    C.Errors (.specialForm fault s) (.specialForm fault' s') :=
  ⟨congrArg Complaint.specialForm h, hs⟩

/-- A special form fails alike at corresponding nodes if the message ends in their text. -/
theorem Errors.specialForm_text {fault : Node → FormFault} {words : String}
    (hfault : ∀ n, (fault n).message = words ++ n.text) {n n' : Node} (hn : C.Nodes n n')
    {s s' : Span} (hs : C.Spans s s') :
    C.Errors (.specialForm (fault n) s) (.specialForm (fault n') s') :=
  .specialForm (by rw [hfault, hfault, hn.text]) hs

/-- A call fails alike at corresponding nodes if the message ends in their type. -/
theorem Errors.arguments_typeName {fault : Node → ArgumentFault} {words : String}
    (hfault : ∀ n, (fault n).message = words ++ n.typeName) {n n' : Node} (hn : C.Nodes n n')
    {s s' : Span} (hs : C.Spans s s') :
    C.Errors (.arguments (fault n) s) (.arguments (fault n') s') :=
  .arguments (by rw [hfault, hfault, hn.typeName]) hs

namespace Excepts

variable {post : α → α' → Prop} {post' : β → β' → Prop} {e : Except EvalError α}
  {e' : Except EvalError α'}

theorem map (h : C.Excepts post e e') {f : α → β} {f' : α' → β'}
    (hf : ∀ value value', post value value' → post' (f value) (f' value')) :
    C.Excepts post' (e.map f) (e'.map f') := by
  cases h with
  | ok hv => exact .ok (hf _ _ hv)
  | error he => exact .error he

theorem bind (h : C.Excepts post e e') {f : α → Except EvalError β} {f' : α' → Except EvalError β'}
    (hf : ∀ value value', post value value' → C.Excepts post' (f value) (f' value')) :
    C.Excepts post' (e >>= f) (e' >>= f') := by
  cases h with
  | ok hv => exact hf _ _ hv
  | error he => exact .error he

end Excepts

namespace Places

variable {ctx ctx' : Context} {s s' : ScopeId}

theorem inside (h : C.Places ctx ctx') (hs : C.scope s s') :
    C.Places (ctx.inside s) (ctx'.inside s') :=
  ⟨hs, rel_map h.dynamic fun _ _ _ ↦ hs⟩

theorem parent (h : C.Places ctx ctx') (hs : C.scope s s') :
    C.scope (ctx.parent s) (ctx'.parent s') := by
  have hdynamic := h.dynamic
  unfold Context.parent
  generalize ctx.dynamic = x at hdynamic ⊢
  generalize ctx'.dynamic = x' at hdynamic ⊢
  cases hdynamic with
  | none => exact hs
  | some hdynamic => exact hdynamic

end Places

namespace Alike

variable {post : α → α' → Prop} {post' : β → β' → Prop} {x : Action EvalError α}
  {y : Action EvalError α'}

theorem pure {value : α} {value' : α'} (h : post value value') :
    C.Alike post (Pure.pure value) (Pure.pure value') :=
  fun _ _ hm ↦ .ok h hm

theorem fail {e e' : EvalError} (h : C.Errors e e') :
    C.Alike post (Action.fail e) (Action.fail e') :=
  fun _ _ hm ↦ .error h hm

theorem bind (h : C.Alike post x y) {f : α → Action EvalError β} {g : α' → Action EvalError β'}
    (hf : ∀ value value', post value value' → C.Alike post' (f value) (g value')) :
    C.Alike post' (x >>= f) (y >>= g) := by
  intro m m' hm
  have hx := h m m' hm
  show C.Ends post' (Action.bind x f m) (Action.bind y g m')
  unfold Action.bind
  generalize x m = a at hx ⊢
  generalize y m' = b at hx ⊢
  cases hx with
  | ok hv hm => exact hf _ _ hv _ _ hm
  | error he hm => exact .error he hm
  | outOfFuel => exact .outOfFuel

theorem map (h : C.Alike post x y) {f : α → β} {g : α' → β'}
    (hf : ∀ value value', post value value' → post' (f value) (g value')) :
    C.Alike post' (f <$> x) (g <$> y) := by
  rw [← bind_pure_comp, ← bind_pure_comp]
  exact h.bind fun value value' hv ↦ .pure (hf value value' hv)

theorem ofExcept {e : Except EvalError α} {e' : Except EvalError α'} (h : C.Excepts post e e') :
    C.Alike post (Action.ofExcept e) (Action.ofExcept e') := by
  cases h with
  | ok hv => exact .pure hv
  | error he => exact .fail he

/-! ### The actions on the machine -/

theorem enter {s s' : ScopeId} (hs : C.scope s s') (name : Option String)
    {pairs pairs' : List (String × Node)} (h : List.Forall₂ C.Bound pairs pairs') :
    C.Alike C.scope (Action.enter s name pairs) (Action.enter s' name pairs') :=
  fun _ _ hm ↦ .ok (hm.store.next 0) ⟨hm.store.add ⟨rfl, .some hs, .ofList h⟩, hm.labels⟩

theorem define {s s' : ScopeId} (hs : C.scope s s') (name : String) {value value' : Node}
    (h : C.Nodes value value') :
    C.Alike (fun _ _ ↦ True) (Action.define s name value) (Action.define s' name value') :=
  fun _ _ hm ↦ .ok trivial ⟨hm.store.define hs name h, hm.labels⟩

theorem assign {s s' : ScopeId} (hs : C.scope s s') (name : String) {value value' : Node}
    (h : C.Nodes value value') {span span' : Span} (hspan : C.Spans span span') :
    C.Alike (fun _ _ ↦ True) (Action.assign s name value span)
      (Action.assign s' name value' span') := by
  intro m m' hm
  have hfound := hm.store.resolve? hs name
  unfold Action.assign
  generalize m.store.resolve? name s = found at hfound ⊢
  generalize m'.store.resolve? name s' = found' at hfound ⊢
  cases hfound with
  | none => exact .error ⟨rfl, hspan⟩ hm
  | some hfound => exact .ok trivial ⟨hm.store.define hfound.1 name h, hm.labels⟩

theorem fresh : C.Alike C.label Action.fresh Action.fresh :=
  fun _ _ hm ↦ .ok (hm.labels 0) ⟨hm.store, hm.labels.succ⟩

theorem adopt {n n' : Node} (h : C.Nodes n n') :
    C.Alike C.Nodes (Action.adopt n) (Action.adopt n') := by
  intro m m' hm
  obtain ⟨hn, hlabels⟩ := h.adopt hm.labels
  exact .ok hn ⟨hm.store, hlabels⟩

theorem note (event event' : Event) :
    C.Alike (fun _ _ ↦ True) (Action.note event) (Action.note event') :=
  fun _ _ hm ↦ .ok trivial ⟨hm.store, hm.labels⟩

theorem lookup (name : String) {span span' : Span} (hspan : C.Spans span span')
    {ctx ctx' : Context} (hc : C.Places ctx ctx') :
    C.Alike C.Nodes (lookup name span ctx) (lookup name span' ctx') := by
  intro m m' hm
  have hunbound :
      C.Ends C.Nodes (.error (.unbound name span) m) (.error (.unbound name span') m') :=
    .error ⟨rfl, hspan⟩ hm
  have hfound := hm.store.get? hc.scope name
  have hdynamic := hc.dynamic
  unfold MiniLisp.lookup
  generalize m.store.get? name ctx.scope = x at hfound ⊢
  generalize m'.store.get? name ctx'.scope = x' at hfound ⊢
  cases hfound with
  | some hvalue => exact .ok hvalue hm
  | none =>
    generalize ctx.dynamic = d at hdynamic ⊢
    generalize ctx'.dynamic = d' at hdynamic ⊢
    cases hdynamic with
    | none => exact hunbound
    | @some active active' hactive =>
      -- The dynamic scope is only looked into where it is another one, on both sides.
      have hsame := scope_eq_iff hactive hc.scope
      have hfound := hm.store.get? hactive name
      dsimp only
      by_cases heq : active = ctx.scope
      · rw [if_pos heq, if_pos (hsame.mp heq)]
        exact hunbound
      · rw [if_neg heq, if_neg (mt hsame.mpr heq)]
        generalize m.store.get? name active = x at hfound ⊢
        generalize m'.store.get? name active' = x' at hfound ⊢
        cases hfound with
        | some hvalue => exact .ok hvalue hm
        | none => exact hunbound

end Alike

end Correspondence

end MiniLisp
