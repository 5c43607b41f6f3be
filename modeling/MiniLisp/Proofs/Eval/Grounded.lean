import MiniLisp.Proofs.Data.Grounded
import MiniLisp.Proofs.Eval.Discipline
import MiniLisp.Proofs.Eval.Template
import MiniLisp.Proofs.Number.Canonical
import MiniLisp.Proofs.Scope.Contents

/-!
# Grounded machines and steps

A machine is grounded when each of its scopes stands in an older one and all that they bind is
grounded (`Machine.Grounded`). A step is grounded when the data and the places in it are.

Built-in operations make grounded answers of grounded arguments (`Builtin.run_grounded`). Those that
take data apart or put it together make no scopes; and the numbers that the others compute are in
the narrowest form, even if some argument is not.
-/

namespace MiniLisp

/-- The scopes of a place are below a limit. -/
structure Context.Within (limit : ScopeId) (ctx : Context) : Prop where
  scope : ctx.scope < limit
  dynamic : ∀ active, ctx.dynamic = some active → active < limit

namespace Context.Within

variable {limit limit' : ScopeId} {ctx : Context}

theorem mono (h : ctx.Within limit) (hle : limit ≤ limit') : ctx.Within limit' :=
  ⟨Nat.lt_of_lt_of_le h.scope hle, fun active ha ↦ Nat.lt_of_lt_of_le (h.dynamic active ha) hle⟩

/-- A scope that is entered from the place stands in one below the limit. -/
theorem parent_lt (h : ctx.Within limit) {home : ScopeId} (hhome : home < limit) :
    ctx.parent home < limit := by
  unfold Context.parent
  cases e : ctx.dynamic with
  | none => exact hhome
  | some active => exact h.dynamic active e

theorem inside (ctx : Context) {scope : ScopeId} (h : scope < limit) :
    (ctx.inside scope).Within limit := by
  refine ⟨h, fun active ha ↦ ?_⟩
  obtain ⟨-, -, rfl⟩ := Option.map_eq_some_iff.mp ha
  exact h

end Context.Within

/-- Every scope was added after the one it stands in, and what the scopes bind is grounded. -/
structure Machine.Grounded (numbers : Prop) (m : Machine) : Prop where
  linked : m.store.Linked
  holds : m.store.Holds (Node.Grounded numbers m.store.next)

/-- The scopes that a procedure needs are below a limit. -/
def Procedure.Grounded (numbers : Prop) (limit : ScopeId) : Procedure → Prop
  | .native _ => True
  | .closure c => Node.AllGrounded numbers limit c.body ∧ c.scope < limit

/-- The scopes that a macro needs are below a limit. -/
def Transformer.Grounded (numbers : Prop) (limit : ScopeId) (t : Transformer) : Prop :=
  Node.AllGrounded numbers limit t.body ∧ t.scope < limit

/-- The data and the places in a step are grounded. -/
def Step.Grounded (numbers : Prop) (limit : ScopeId) : Step → Prop
  | .done value => value.Grounded numbers limit
  | .eval form ctx => form.Grounded numbers limit ∧ ctx.Within limit
  | .apply procedure args ctx _ =>
    procedure.Grounded numbers limit ∧ Node.AllGrounded numbers limit args ∧ ctx.Within limit
  | .loop condition body ctx _ =>
    condition.Grounded numbers limit ∧ Node.AllGrounded numbers limit body ∧ ctx.Within limit

/-- The data in the answer of a native is grounded. -/
def Reply.Grounded (numbers : Prop) (limit : ScopeId) : Reply → Prop
  | .value n => n.Grounded numbers limit
  | .call procedure args =>
    procedure.Grounded numbers limit ∧ Node.AllGrounded numbers limit args

variable {numbers : Prop} {limit limit' : ScopeId}

theorem Procedure.Grounded.mono {p : Procedure} (h : p.Grounded numbers limit)
    (hle : limit ≤ limit') : p.Grounded numbers limit' := by
  cases p with
  | native p => trivial
  | closure c => exact ⟨h.1.mono hle, Nat.lt_of_lt_of_le h.2 hle⟩

theorem Step.Grounded.mono {step : Step} (h : step.Grounded numbers limit) (hle : limit ≤ limit') :
    step.Grounded numbers limit' := by
  cases step with
  | done value => exact Node.Grounded.mono h hle
  | eval form ctx => exact ⟨h.1.mono hle, h.2.mono hle⟩
  | apply procedure args ctx span => exact ⟨h.1.mono hle, h.2.1.mono hle, h.2.2.mono hle⟩
  | loop condition body ctx span => exact ⟨h.1.mono hle, h.2.1.mono hle, h.2.2.mono hle⟩

/-! ### Machines -/

namespace Machine.Grounded

variable {m : Machine}

theorem empty (label : Label) (trace : Option (List Event)) :
    (⟨.empty, label, trace⟩ : Machine).Grounded numbers :=
  ⟨Store.linked_empty, Store.holds_empty⟩

theorem add (h : m.Grounded numbers) {scope : Scope}
    (houter : ∀ outer, scope.outer = some outer → outer < m.store.next)
    (hbindings : ∀ p ∈ scope.bindings, p.2.Grounded numbers m.store.next) :
    { m with store := m.store.add scope }.Grounded numbers := by
  have hle : m.store.next ≤ (m.store.add scope).next := by
    rw [Store.next_add]
    exact Nat.le_succ _
  exact ⟨h.linked.add houter, (h.holds.imp fun _ hn ↦ hn.mono hle).add fun p hp ↦
    (hbindings p hp).mono hle⟩

theorem define (h : m.Grounded numbers) (id : ScopeId) (name : String) {value : Node}
    (hvalue : value.Grounded numbers m.store.next) :
    { m with store := m.store.define id name value }.Grounded numbers := by
  refine ⟨h.linked.rebind id _, ?_⟩
  show (m.store.define id name value).Holds
    (Node.Grounded numbers (m.store.define id name value).next)
  rw [Store.define, Store.next_rebind]
  exact h.holds.define id name hvalue

end Machine.Grounded

/-! ### Taking data apart -/

namespace Node

variable {n : Node}

theorem Grounded.items (h : n.Grounded numbers limit) {items : List Node}
    (hitems : n.toList? = some items) : AllGrounded numbers limit items :=
  Discipline.forall_mem_toList? Grounded.parts h hitems

/-- The operand of a mark is grounded with the rest of the pair. -/
theorem Grounded.of_isMarked {mark : QuoteMark} {car cdr operand : Node}
    (h : cdr.Grounded numbers limit) (hmark : IsMarked mark operand car cdr) :
    operand.Grounded numbers limit := by
  cases hmark
  exact h.parts.1

theorem Grounded.of_operandOf? (h : n.Grounded numbers limit) {mark : QuoteMark} {operand : Node}
    (hoperand : n.operandOf? mark.name = some operand) : operand.Grounded numbers limit := by
  obtain ⟨l, car, cdr, s, rfl, hmark⟩ := operandOf?_eq_some_iff.mp hoperand
  exact h.parts.2.of_isMarked hmark

theorem Grounded.of_procedure? (h : n.Grounded numbers limit) {p : Procedure}
    (hp : n.procedure? = some p) : p.Grounded numbers limit := by
  cases h with
  | @atom a s _ =>
    cases a with
    | native p => cases hp; trivial
    | _ => cases hp
  | closure hbody hscope => cases hp; exact ⟨hbody, hscope⟩
  | pair => cases hp
  | transformer => cases hp

theorem Grounded.of_transformer? (h : n.Grounded numbers limit) {t : Transformer}
    (ht : n.transformer? = some t) : t.Grounded numbers limit := by
  cases h with
  | transformer hbody hscope => cases ht; exact ⟨hbody, hscope⟩
  | _ => cases ht

end Node

/-- If a computation does not fail, then its value has a property. -/
def Gives {ε α : Type} (post : α → Prop) (e : Except ε α) : Prop :=
  ∀ value, e = .ok value → post value

namespace Gives

variable {ε α β : Type} {post : α → Prop}

theorem ok {value : α} (h : post value) : Gives post (.ok value : Except ε α) :=
  fun _ e ↦ Except.ok.inj e ▸ h

theorem error (cause : ε) : Gives post (.error cause) := nofun

theorem map {post' : β → Prop} {e : Except ε α} {f : α → β} (h : Gives post e)
    (hf : ∀ value, post value → post' (f value)) : Gives post' (e.map f) := by
  cases e with
  | ok value => exact .ok (hf value (h value rfl))
  | error cause => exact .error cause

theorem bind {post' : β → Prop} {e : Except ε α} {f : α → Except ε β} (h : Gives post e)
    (hf : ∀ value, post value → Gives post' (f value)) : Gives post' (e >>= f) := by
  cases e with
  | ok value => exact hf value (h value rfl)
  | error cause => exact .error cause

end Gives

theorem properList_grounded {n : Node} (h : n.Grounded numbers limit) (part : ListPart) :
    Gives (Node.AllGrounded numbers limit) (properList part n) := by
  unfold properList
  split
  · next items hitems => exact .ok (h.items hitems)
  · exact .error _

/-! ### Built-in operations -/

namespace Builtin

variable {op : Builtin} {s : Span}

/-- The result is what the operation made last, unless there was nothing to do. -/
theorem foldNumbers_canonical {f : Number → Number → Except NumberError Number}
    (hf : ∀ a b c, f a b = .ok c → c.Canonical) (place : Nat) {acc : Number} {args : List Node}
    (hacc : args = [] → acc.Canonical) :
    Gives Number.Canonical (foldNumbers op s f place acc args) := by
  induction args generalizing place acc with
  | nil => exact .ok (hacc rfl)
  | cons n rest ih =>
    rw [foldNumbers]
    split
    · exact .error _
    · split
      · exact .error _
      · next next hnext => exact ih _ fun _ ↦ hf _ _ _ hnext

theorem foldFromFirst_canonical {f : Number → Number → Except NumberError Number}
    (hf : ∀ a b c, f a b = .ok c → c.Canonical) {neutral : Number} (hneutral : neutral.Canonical)
    (args : List Node) : Gives Number.Canonical (foldFromFirst op s neutral f args) := by
  unfold foldFromFirst
  split
  · exact .ok hneutral
  · exact foldNumbers_canonical hf _ nofun
  · next n rest hrest =>
    split
    · exact .error _
    · exact foldNumbers_canonical hf _ fun e ↦ absurd e hrest

theorem numeric_grounded {e : Except EvalError Number} (h : Gives Number.Canonical e) :
    Gives (Reply.Grounded numbers limit) (numeric s e) := by
  cases e with
  | ok x => exact .ok (.number (h x rfl) s)
  | error cause => exact .error cause

theorem truth_grounded (e : Except EvalError Bool) :
    Gives (Reply.Grounded numbers limit) (truth s e) := by
  cases e with
  | ok b => exact .ok (.leaf (a := .boolean b) nofun s)
  | error cause => exact .error cause

theorem expectPair_grounded {n : Node} (h : n.Grounded numbers limit) :
    Gives (fun parts ↦ parts.1.Grounded numbers limit ∧ parts.2.Grounded numbers limit)
      (expectPair op n) := by
  unfold expectPair
  split
  · exact .ok h.parts
  · exact .error _

theorem spread_grounded {args : List Node} (h : Node.AllGrounded numbers limit args) :
    Gives (Node.AllGrounded numbers limit) (spread args) := by
  fun_induction spread args with
  | case1 => exact .ok (List.forall_mem_nil _)
  | case2 last items hitems => exact .ok ((h last List.mem_cons_self).items hitems)
  | case3 last himproper => exact .error _
  | case4 n rest hrest args hargs ih =>
    obtain ⟨hn, hrest⟩ := List.forall_mem_cons.mp h
    exact .ok (List.forall_mem_cons.mpr ⟨hn, ih hrest args hargs⟩)
  | case5 n rest hrest cause hcause ih => exact .error _

/-- The answers to a right number of grounded arguments are grounded. -/
theorem answer_grounded {args : List Node} (h : Node.AllGrounded numbers limit args) :
    Gives (Reply.Grounded numbers limit) (op.answer s args) := by
  have hint (n : Int) : (Number.ofInt n).Canonical := Number.ofInt_canonical n
  have hatom {a : Atom} (ha : ∀ x, a ≠ .number x) :
      Gives (Reply.Grounded numbers limit) (.ok (.value (.atom a s)) : Except EvalError Reply) :=
    .ok (.leaf ha s)
  unfold answer
  split
  case h_1 =>
    refine numeric_grounded (foldNumbers_canonical ?_ _ fun _ ↦ hint 0)
    exact fun a b c e ↦ Except.ok.inj e ▸ a.add_canonical b
  case h_2 =>
    refine numeric_grounded (foldNumbers_canonical ?_ _ fun _ ↦ hint 1)
    exact fun a b c e ↦ Except.ok.inj e ▸ a.mul_canonical b
  case h_3 n =>
    have hneg (e : Except EvalError Number) : Gives Number.Canonical (e.map Number.neg) :=
      have hany : Gives (fun _ ↦ True) e := fun _ _ ↦ trivial
      hany.map fun x _ ↦ x.neg_canonical
    exact numeric_grounded (hneg _)
  case h_4 =>
    refine numeric_grounded (foldFromFirst_canonical ?_ (hint 0) _)
    exact fun a b c e ↦ Except.ok.inj e ▸ a.sub_canonical b
  case h_5 =>
    exact numeric_grounded (foldFromFirst_canonical (fun _ _ _ ↦ Number.div_canonical) (hint 1) _)
  case h_6 =>
    exact numeric_grounded (foldFromFirst_canonical (fun _ _ _ ↦ Number.pow_canonical) (hint 1) _)
  case h_7 => exact truth_grounded _
  case h_8 => exact truth_grounded _
  case h_9 => exact truth_grounded _
  case h_10 => exact truth_grounded _
  case h_11 => exact truth_grounded _
  case h_15 a d =>
    obtain ⟨ha, hd⟩ := List.forall_mem_cons.mp h
    exact .ok (.pair ha (hd d List.mem_cons_self))
  case h_16 n => exact (expectPair_grounded (h n List.mem_cons_self)).map fun _ h ↦ h.1
  case h_17 n => exact (expectPair_grounded (h n List.mem_cons_self)).map fun _ h ↦ h.2
  case h_18 n =>
    refine (expectPair_grounded (h n List.mem_cons_self)).bind fun parts h ↦ ?_
    exact (expectPair_grounded h.2).bind fun _ h ↦ .ok h.1
  case h_19 => exact .ok (.ofList h s)
  case h_23 n rest =>
    obtain ⟨hn, hrest⟩ := List.forall_mem_cons.mp h
    split
    · next procedure hprocedure =>
      exact (spread_grounded hrest).map fun _ h ↦ ⟨hn.of_procedure? hprocedure, h⟩
    · exact .error _
  case h_31 => exact .error _
  all_goals exact hatom nofun

/-- **Built-in operations make grounded answers of grounded arguments.** -/
theorem run_grounded {args : List Node} (h : Node.AllGrounded numbers limit args) :
    Gives (Reply.Grounded numbers limit) (op.run s args) := by
  unfold run
  split
  · exact answer_grounded h
  · exact .error _

end Builtin

end MiniLisp
