import MiniLisp.Eval.Run

/-!
# Invariants of evaluation

What evaluation does to a machine consists of a few actions. A property of machines that those
actions keep is kept by every rule, and by every run of every step, whether the run ends in a value
or in an error (`Invariant.evaluate_keeps`).

One of the actions is not free. Names are bound only in scopes of the evaluation itself, which are
the one that it was started in and those that it entered. An invariant says which scopes it takes to
be its own (`Invariant.own`); the induction over runs shows that each step, wherever it comes from,
is done in one of them. So the places of steps are tracked here once, for all invariants.
-/

namespace MiniLisp

/-- The machine that an action leaves behind, if it ends. -/
def Outcome.machine? {ε α : Type} : Outcome ε α → Option Machine
  | .ok _ m => some m
  | .error _ m => some m
  | .outOfFuel => none

/-- The value that an action gives, if it does not fail. -/
def Outcome.value? {ε α : Type} : Outcome ε α → Option α
  | .ok value _ => some value
  | _ => none

theorem Outcome.exists_of_map_value? {ε α β : Type} {outcome : Outcome ε α} {f : α → β} {b : β}
    (h : outcome.value?.map f = some b) : ∃ value m, outcome = .ok value m ∧ f value = b := by
  unfold value? at h
  split at h
  · next value m => exact ⟨value, m, rfl, Option.some.inj h⟩
  · cases h

/-- A property of machines that the actions keep, as long as names are bound in own scopes only. -/
structure Invariant where
  machine : Machine → Prop
  /-- The scopes of the evaluation. -/
  own : ScopeId → Prop
  relabel : ∀ m label, machine m → machine { m with label := label }
  retrace : ∀ m trace, machine m → machine { m with trace := trace }
  add : ∀ m scope, machine m → machine { m with store := m.store.add scope }
  /-- A scope that is entered is an own one. -/
  own_next : ∀ m, machine m → own m.store.next
  define : ∀ m id name value, own id → machine m →
    machine { m with store := m.store.define id name value }
  assign : ∀ m id name value store, m.store.assign? id name value = some store → machine m →
    machine { m with store := store }

namespace Invariant

variable (inv : Invariant) {ε α β : Type}

/-- The machine that is left behind has the property, and so has a value. -/
def Holds (post : α → Prop) : Outcome ε α → Prop
  | .ok value m => inv.machine m ∧ post value
  | .error _ m => inv.machine m
  | .outOfFuel => True

/-- An action keeps the invariant, and if it ends in a value, then in one with a property. -/
def Keeps (post : α → Prop) (x : Action ε α) : Prop :=
  ∀ m, inv.machine m → inv.Holds post (x m)

/-- A step is done in an own scope. -/
def Inside : Step → Prop
  | .done _ => True
  | .eval _ ctx => inv.own ctx.scope
  | .apply _ _ ctx _ => inv.own ctx.scope
  | .loop _ _ ctx _ => inv.own ctx.scope

/-- A way to run steps keeps the invariant for steps in own scopes. -/
def Runs (run : Runner) : Prop := ∀ step, inv.Inside step → inv.Keeps (fun _ ↦ True) (run step)

variable {inv}

namespace Keeps

theorem pure {post : α → Prop} {value : α} (h : post value) :
    inv.Keeps post (Pure.pure value : Action ε α) :=
  fun _ hm ↦ ⟨hm, h⟩

theorem fail {post : α → Prop} (cause : ε) : inv.Keeps post (Action.fail cause) :=
  fun _ hm ↦ hm

theorem bind {post : α → Prop} {post' : β → Prop} {x : Action ε α} {f : α → Action ε β}
    (hx : inv.Keeps post x) (hf : ∀ value, post value → inv.Keeps post' (f value)) :
    inv.Keeps post' (x >>= f) := by
  intro m hm
  have h := hx m hm
  show inv.Holds post' (Action.bind x f m)
  unfold Action.bind
  cases e : x m with
  | ok value after =>
    rw [e] at h
    exact hf value h.2 after h.1
  | error cause after =>
    rw [e] at h
    exact h
  | outOfFuel => trivial

theorem map {post : α → Prop} {x : Action ε α} {f : α → β} {post' : β → Prop}
    (hx : inv.Keeps post x) (hf : ∀ value, post value → post' (f value)) :
    inv.Keeps post' (f <$> x) := by
  rw [← bind_pure_comp]
  exact hx.bind fun value hv ↦ .pure (hf value hv)

theorem ofExcept (e : Except ε α) : inv.Keeps (fun _ ↦ True) (Action.ofExcept e) := by
  cases e with
  | ok value => exact .pure trivial
  | error cause => exact .fail cause

/-! ### The actions on the machine -/

theorem store : inv.Keeps (fun _ ↦ True) (Action.store : Action ε Store) :=
  fun _ hm ↦ ⟨hm, trivial⟩

theorem enter (outer : ScopeId) (name : Option String) (pairs : List (String × Node)) :
    inv.Keeps inv.own (Action.enter outer name pairs : Action ε ScopeId) :=
  fun m hm ↦ ⟨inv.add m _ hm, inv.own_next m hm⟩

theorem define {id : ScopeId} (h : inv.own id) (name : String) (value : Node) :
    inv.Keeps (fun _ ↦ True) (Action.define id name value : Action ε Unit) :=
  fun m hm ↦ ⟨inv.define m id name value h hm, trivial⟩

theorem assign (id : ScopeId) (name : String) (value : Node) (span : Span) :
    inv.Keeps (fun _ ↦ True) (Action.assign id name value span) := by
  intro m hm
  rw [Action.assign_eq]
  split
  · next store h => exact ⟨inv.assign m id name value store h hm, trivial⟩
  · exact hm

theorem fresh : inv.Keeps (fun _ ↦ True) (Action.fresh : Action ε Label) :=
  fun m hm ↦ ⟨inv.relabel m _ hm, trivial⟩

theorem adopt (n : Node) : inv.Keeps (fun _ ↦ True) (Action.adopt n : Action ε Node) :=
  fun m hm ↦ ⟨inv.relabel m _ hm, trivial⟩

theorem note (event : Event) : inv.Keeps (fun _ ↦ True) (Action.note event : Action ε Unit) :=
  fun m hm ↦ ⟨inv.retrace m _ hm, trivial⟩

theorem lookup (name : String) (span : Span) (ctx : Context) :
    inv.Keeps (fun _ ↦ True) (lookup name span ctx) := by
  intro m hm
  unfold MiniLisp.lookup
  repeat' split
  all_goals first | exact ⟨hm, trivial⟩ | exact hm

end Keeps

/-! ### Rule by rule

A rule is given a place to evaluate in. What it hands back is to be done in that place or in a scope
that the rule entered. -/

section

variable {run : Runner} (h : inv.Runs run) {ctx : Context} (hc : inv.own ctx.scope) (span : Span)

theorem makeClosure_keeps (name : Option String) (params : Node) (body : List Node)
    (ctx : Context) : inv.Keeps (fun _ ↦ True) (makeClosure name params body span ctx) := by
  unfold makeClosure
  split
  · exact .fail _
  · refine .bind (.ofExcept _) fun _ _ ↦ ?_
    exact .bind .fresh fun _ _ ↦ .pure trivial

theorem leftOver_keeps (p : Params) (args : List Node) :
    inv.Keeps (fun _ ↦ True) (p.leftOver args span) := by
  unfold Params.leftOver
  split
  · exact .pure trivial
  · exact .adopt _

include h hc

theorem effects_keeps (body : List Node) : inv.Keeps (fun _ ↦ True) (effects run ctx body) := by
  induction body with
  | nil => exact .pure trivial
  | cons form rest ih => exact .bind (h _ hc) fun _ _ ↦ ih

theorem sequence_keeps (body : List Node) :
    inv.Keeps inv.Inside (sequence run ctx span body) := by
  induction body with
  | nil => exact .pure trivial
  | cons form rest ih =>
    cases rest with
    | nil => exact .pure hc
    | cons => exact .bind (h _ hc) fun _ _ ↦ ih

theorem arguments_keeps (operands : Node) :
    inv.Keeps (fun _ ↦ True) (arguments run ctx operands) := by
  induction operands with
  | atom a s => cases a with
    | nil => exact .pure trivial
    | _ => exact .fail _
  | pair l a d s _ ih =>
    refine .bind (h _ hc) fun _ _ ↦ ?_
    exact .bind ih fun _ _ ↦ .pure trivial
  | closure => exact .fail _
  | transformer => exact .fail _

theorem spliced_keeps (operand : Node) :
    inv.Keeps (fun _ ↦ True) (spliced run ctx operand span) := by
  refine .bind (h _ hc) fun value _ ↦ ?_
  split
  · exact .pure trivial
  · exact .fail _

theorem quasi_keeps (template : Node) :
    (∀ depth, inv.Keeps (fun _ ↦ True) (quasi run ctx template depth)) ∧
      ∀ l a d s, template = .pair l a d s →
        ∀ depth, inv.Keeps (fun _ ↦ True) (quasi run ctx a depth) := by
  induction template with
  | atom => exact ⟨fun _ ↦ .pure trivial, nofun⟩
  | closure => exact ⟨fun _ ↦ .pure trivial, nofun⟩
  | transformer => exact ⟨fun _ ↦ .pure trivial, nofun⟩
  | pair l car cdr span iha ihd =>
    refine ⟨fun depth ↦ ?_, fun _ _ _ _ e ↦ by cases e; exact iha.1⟩
    -- The operand of a mark is the first part of the second part, so the induction covers both.
    have elements : inv.Keeps (fun _ ↦ True) (do
        let first ← quasi run ctx car depth
        let rest ← quasi run ctx cdr depth
        .adopt (.pair none first rest span) : Action EvalError Node) :=
      .bind (iha.1 _) fun _ _ ↦ .bind (ihd.1 _) fun _ _ ↦ .adopt _
    have splice (operand : Node) : inv.Keeps (fun _ ↦ True) (do
        let items ← spliced run ctx operand car.span
        let tail ← quasi run ctx cdr depth
        .adopt (.listWithTail items tail span) : Action EvalError Node) :=
      .bind (spliced_keeps h hc _ _) fun _ _ ↦ .bind (ihd.1 _) fun _ _ ↦ .adopt _
    have inner (mark : QuoteMark) {l a d s} (e : cdr = .pair l a d s) (depth : Nat) :
        inv.Keeps (fun _ ↦ True) (quasi run ctx a depth >>= rewrap mark span) :=
      .bind (ihd.2 _ _ _ _ e _) fun _ _ ↦ .adopt _
    unfold quasi
    dsimp only
    split
    · split
      · split
        · exact h _ hc
        · exact inner _ rfl _
      · split
        · exact .fail _
        · exact inner _ rfl _
      · exact inner _ rfl _
      · split
        · exact splice _
        · exact elements
    · split
      · exact splice _
      · exact elements

theorem letValues_keeps (bindings : List Node) :
    inv.Keeps (fun _ ↦ True) (SpecialForm.letValues run ctx bindings) := by
  induction bindings with
  | nil => exact .pure trivial
  | cons binding rest ih =>
    unfold SpecialForm.letValues
    split
    · refine .bind (.ofExcept _) fun _ _ ↦ ?_
      refine .bind (h _ hc) fun _ _ ↦ ?_
      exact .bind ih fun _ _ ↦ .pure trivial
    · exact .fail _

theorem rule_keeps (form : SpecialForm) (operands : List Node) :
    inv.Keeps inv.Inside (form.rule run ctx span operands) := by
  -- All three kinds of definitions bind a name in the place of the form.
  have bound (name : String) (value : Node) : inv.Keeps inv.Inside
      (do Action.define ctx.scope name value; return SpecialForm.noResult span :
        Action EvalError Step) :=
    .bind (.define hc _ _) fun _ _ ↦ .pure trivial
  unfold SpecialForm.rule
  split
  · exact .pure trivial
  · exact .map ((quasi_keeps h hc _).1 _) fun _ _ ↦ trivial
  · exact .fail _
  · exact .bind (h _ hc) fun _ _ ↦ bound _ _
  · refine .bind (.ofExcept _) fun _ _ ↦ ?_
    exact .bind (makeClosure_keeps _ _ _ _ _) fun _ _ ↦ bound _ _
  · exact .map (makeClosure_keeps _ _ _ _ _) fun _ _ ↦ trivial
  · refine .bind (.ofExcept _) fun _ _ ↦ ?_
    refine .bind (letValues_keeps h hc _) fun _ _ ↦ ?_
    -- The body is done in the scope that was entered, which is an own one.
    exact .bind (.enter _ _ _) fun _ hs ↦ sequence_keeps h hs _ _
  · refine .bind (h _ hc) fun value _ ↦ .pure ?_
    cases value.isTruthy with
    | true => exact hc
    | false => trivial
  · exact .bind (h _ hc) fun _ _ ↦ .pure hc
  · refine .bind (.ofExcept _) fun _ _ ↦ ?_
    refine .bind (h _ hc) fun _ _ ↦ ?_
    exact .bind (.assign _ _ _ _) fun _ _ ↦ .pure trivial
  · exact .pure hc
  · split
    · refine .bind (.ofExcept _) fun _ _ ↦ ?_
      refine .bind (.ofExcept _) fun _ _ ↦ ?_
      exact .bind .fresh fun _ _ ↦ bound _ _
    · exact .fail _
  · exact sequence_keeps h hc _ _
  · exact .fail _

theorem specialForm_step_keeps (form : SpecialForm) (operands : Node) :
    inv.Keeps inv.Inside (form.step run ctx span operands) :=
  .bind (.ofExcept _) fun _ _ ↦ rule_keeps h hc _ _ _

theorem host_step_keeps (op : HostOperation) (args : List Node) :
    inv.Keeps inv.Inside (op.step run ctx span args) := by
  unfold HostOperation.step
  split
  · exact .bind .store fun _ _ ↦ .pure trivial
  · exact .bind .store fun _ _ ↦ .map (.adopt _) fun _ _ ↦ trivial
  · split
    · exact .pure hc
    · exact .fail _
  · exact .fail _
  · exact .map (h _ hc) fun _ _ ↦ trivial
  · exact .fail _
  · exact .bind .store fun _ _ ↦ .map (.adopt _) fun _ _ ↦ trivial

theorem native_step_keeps (p : Native) (args : List Node) :
    inv.Keeps inv.Inside (p.step run ctx span args) := by
  unfold Native.step
  split
  · refine .bind (.ofExcept _) fun reply _ ↦ ?_
    cases reply with
    | value n => exact .map (.adopt _) fun _ _ ↦ trivial
    | call procedure args => exact .pure hc
  · exact host_step_keeps h hc _ _ _

omit hc in
theorem enter_keeps (ctx : Context) (c : Closure) (args : List Node) :
    inv.Keeps inv.Inside (c.enter run ctx span args) := by
  unfold Closure.enter
  split
  · refine .bind (leftOver_keeps _ _ _) fun _ _ ↦ ?_
    exact .bind (.enter _ _ _) fun _ hs ↦ sequence_keeps h hs _ _
  · exact .fail _

theorem procedure_step_keeps (p : Procedure) (args : List Node) :
    inv.Keeps inv.Inside (p.step run ctx span args) := by
  cases p with
  | native p => exact native_step_keeps h hc _ _ _
  | closure c => exact enter_keeps h _ _ _ _

omit hc in
theorem expand_keeps (ctx : Context) (t : Transformer) (operands : Node) :
    inv.Keeps (fun _ ↦ True) (t.expand run ctx span operands) := by
  refine .bind (.enter _ _ _) fun _ hs ↦ ?_
  exact .bind (sequence_keeps h hs _ _) fun last hl ↦ h last hl

theorem headValue_keeps (head : Node) : inv.Keeps (fun _ ↦ True) (headValue run ctx head) := by
  unfold headValue
  split
  · exact .lookup _ _ _
  · exact h _ hc

theorem callStep_keeps (head operands : Node) :
    inv.Keeps inv.Inside (callStep run ctx span head operands) := by
  refine .bind (headValue_keeps h hc _) fun _ _ ↦ ?_
  split
  · refine .bind (expand_keeps h _ _ _ _) fun _ _ ↦ ?_
    exact .bind (.note _) fun _ _ ↦ .pure hc
  · exact .bind (arguments_keeps h hc _) fun _ _ ↦ .pure hc
  · exact .fail _

theorem evalStep_keeps (form : Node) : inv.Keeps inv.Inside (evalStep run form ctx) := by
  unfold evalStep
  split
  · exact .map (.lookup _ _ _) fun _ _ ↦ trivial
  · split
    · exact specialForm_step_keeps h hc _ _ _
    · exact callStep_keeps h hc _ _ _
  · exact .pure trivial

theorem loopStep_keeps (condition : Node) (body : List Node) :
    inv.Keeps inv.Inside (loopStep run condition body ctx span) := by
  refine .bind (h _ hc) fun _ _ ↦ ?_
  split
  · exact .bind (effects_keeps h hc _) fun _ _ ↦ .pure hc
  · exact .pure trivial

end

/-- A step in an own scope keeps the invariant, and so it is with the step that it hands back. -/
theorem next_keeps {run : Runner} (h : inv.Runs run) {step : Step} (hs : inv.Inside step) :
    inv.Keeps inv.Inside (step.next run) := by
  cases step with
  | done => exact .pure trivial
  | eval form ctx => exact evalStep_keeps h hs form
  | apply procedure args ctx span =>
    exact .bind (.note _) fun _ _ ↦ procedure_step_keeps h hs _ _ _
  | loop condition body ctx span => exact loopStep_keeps h hs _ _ _

/-! ### Runs -/

/-- Runs keep the invariant with any amount of fuel, and so do the runs inside them. -/
theorem runStep_keeps (fuel : Nat) : inv.Runs (runStep fuel) := by
  induction fuel with
  | zero => exact fun _ _ _ _ ↦ trivial
  | succ fuel ih =>
    intro step hs
    cases step with
    | done value => exact .pure trivial
    | eval | apply | loop =>
      exact .bind (next_keeps ih hs) fun next hn ↦ ih next hn

/-- **Evaluation keeps every invariant** that takes the scope it is started in for an own one. -/
theorem evaluate_keeps (fuel : Nat) (form : Node) {ctx : Context} (hc : inv.own ctx.scope) :
    inv.Keeps (fun _ ↦ True) (evaluate fuel form ctx) :=
  .bind (.adopt _) fun form _ ↦ runStep_keeps fuel (.eval form ctx) hc

/-- The machine that is left behind has the property, whether by a value or by an error. -/
theorem Keeps.machine {post : α → Prop} {x : Action ε α} (hx : inv.Keeps post x) {m m' : Machine}
    (hm : inv.machine m) (h : (x m).machine? = some m') : inv.machine m' := by
  have hh := hx m hm
  cases e : x m with
  | ok value after =>
    rw [e] at h hh
    cases h
    exact hh.1
  | error cause after =>
    rw [e] at h hh
    cases h
    exact hh
  | outOfFuel =>
    rw [e] at h
    exact absurd h nofun

end Invariant

end MiniLisp
