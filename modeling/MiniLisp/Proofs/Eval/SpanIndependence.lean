import MiniLisp.Proofs.Eval.Lockstep
import MiniLisp.Proofs.Scope.Contents

/-!
# Spans do not matter

What a program means does not depend on where it was read. All spans can be taken out of a form, of
what a store binds, and of how an evaluation ends (`Node.unplaced`, `Machine.unplaced`,
`Outcome.unplaced`); and if two evaluations are the same without spans when they begin, they are
when they end (`evaluate_unplaced`).

To be the same without spans is to correspond, with every scope and every label corresponding to
itself and spans left out of account (`Correspondence.withoutSpans`). Host operations are excluded
from the data, as there is one that shows both ends of a span.
-/

namespace MiniLisp

/-! ### Taking spans out -/

namespace Node

mutual

/-- The same data without a place in any text. -/
def unplaced : Node → Node
  | atom value _ => .atom value .nowhere
  | pair label car cdr _ => .pair label (unplaced car) (unplaced cdr) .nowhere
  | closure label name params body scope _ =>
    .closure label name params (unplacedAll body) scope .nowhere
  | transformer label name param body scope _ =>
    .transformer label name param (unplacedAll body) scope .nowhere

/-- The same nodes without a place in any text. -/
def unplacedAll : List Node → List Node
  | [] => []
  | n :: rest => unplaced n :: unplacedAll rest

end

theorem unplacedAll_eq_iff {body body' : List Node} : unplacedAll body = unplacedAll body' ↔
    List.Forall₂ (fun n n' ↦ n.unplaced = n'.unplaced) body body' := by
  induction body generalizing body' with
  | nil =>
    cases body' with
    | nil => exact ⟨fun _ ↦ .nil, fun _ ↦ rfl⟩
    | cons => exact ⟨nofun, nofun⟩
  | cons n rest ih =>
    cases body' with
    | nil => exact ⟨nofun, nofun⟩
    | cons n' rest' =>
      rw [unplacedAll, unplacedAll, List.cons_eq_cons, List.forall₂_cons, ih]

theorem forall₂_of_unplacedAll {R : Node → Node → Prop} {body body' : List Node}
    (h : unplacedAll body = unplacedAll body')
    (hR : ∀ form ∈ body, ∀ form' : Node, form.unplaced = form'.unplaced → R form form') :
    List.Forall₂ R body body' :=
  ((List.forall₂_and_left _ _).mpr ⟨hR, unplacedAll_eq_iff.mp h⟩).imp fun _ form' hform ↦
    hform.1 form' hform.2

/-- All natives that occur in a node do built-in operations. -/
def OnlyBuiltins (n : Node) : Prop := ∀ part ∈ n.parts, ∀ p, part.native? = some p → p.IsBuiltin

end Node

/-- The same scope with what it binds taken out of any text. -/
def Scope.unplaced (scope : Scope) : Scope :=
  { scope with bindings := scope.bindings.map fun p ↦ (p.1, p.2.unplaced) }

/-- The same scopes, with what they bind taken out of any text. -/
def Store.unplaced (st : Store) : Store := ⟨st.scopes.map Scope.unplaced⟩

/-- The same machine, with what is bound taken out of any text and without events. -/
def Machine.unplaced (m : Machine) : Machine := ⟨m.store.unplaced, m.label, none⟩

/-- The same end, with all data taken out of any text. Of an error only what it says is left. -/
def Outcome.unplaced : Outcome EvalError Node → Outcome Complaint Node
  | .ok value m => .ok value.unplaced m.unplaced
  | .error e m => .error e.complaint m.unplaced
  | .outOfFuel => .outOfFuel

/-! ### Correspondence without spans -/

namespace Correspondence

/-- Every scope and every label corresponds to itself, and spans do not count. -/
def withoutSpans : Correspondence where
  scope := Eq
  label := Eq
  sameSpans := False
  others _ := none
  scope_lt_iff := by
    rintro _ _ _ _ rfl rfl
    rfl
  label_eq_iff := by
    rintro _ _ _ _ rfl rfl
    rfl

/-- What corresponds without spans is the same without them. -/
theorem Nodes.unplaced_eq {n n' : Node} (h : withoutSpans.Nodes n n') :
    n.unplaced = n'.unplaced := by
  induction n generalizing n' with
  | atom =>
    cases h
    rfl
  | pair l a d s iha ihd =>
    cases h with
    | @pair _ l' _ _ _ _ _ _ hl ha hd =>
      have hlabel : l = l' := by
        cases hl with
        | none => rfl
        | some hl => exact congrArg some hl
      rw [Node.unplaced, Node.unplaced, hlabel, iha ha, ihd hd]
  | closure l name params body scope s ih =>
    cases h with
    | closure hl hbody hscope =>
      obtain rfl : l = _ := hl
      obtain rfl : scope = _ := hscope
      have hforms := ((List.forall₂_and_left _ _).mpr ⟨@ih, hbody⟩).imp fun _ _ h ↦ h.1 h.2
      rw [Node.unplaced, Node.unplaced, Node.unplacedAll_eq_iff.mpr hforms]
  | transformer l name param body scope s ih =>
    cases h with
    | transformer hl hbody hscope =>
      obtain rfl : l = _ := hl
      obtain rfl : scope = _ := hscope
      have hforms := ((List.forall₂_and_left _ _).mpr ⟨@ih, hbody⟩).imp fun _ _ h ↦ h.1 h.2
      rw [Node.unplaced, Node.unplaced, Node.unplacedAll_eq_iff.mpr hforms]

/-- What is the same without spans corresponds without them. -/
theorem nodes_of_unplaced {n n' : Node} (hn : n.OnlyBuiltins) (h : n.unplaced = n'.unplaced) :
    withoutSpans.Nodes n n' := by
  have hspans (s s' : Span) : withoutSpans.Spans s s' := False.elim
  induction n generalizing n' with
  | atom a s =>
    cases n' with
    | atom a' s' =>
      obtain rfl : a = a' := (Node.atom.inj h).1
      refine .atom ?_ (hspans _ _)
      rintro p rfl
      exact hn _ List.mem_cons_self p rfl
    | _ => cases h
  | pair l a d s iha ihd =>
    cases n' with
    | pair l' a' d' s' =>
      obtain ⟨rfl, ha, hd, -⟩ := Node.pair.inj h
      obtain ⟨-, haBuiltins, hdBuiltins⟩ := Node.forall_parts_pair hn
      refine .pair ?_ (iha haBuiltins ha) (ihd hdBuiltins hd) (hspans _ _)
      cases l with
      | none => exact .none
      | some l => exact .some rfl
    | _ => cases h
  | closure l name params body scope s ih =>
    cases n' with
    | closure l' name' params' body' scope' s' =>
      obtain ⟨rfl, rfl, rfl, hbody, rfl, -⟩ := Node.closure.inj h
      obtain ⟨-, hforms⟩ := List.forall_mem_cons.mp hn
      have hall := Node.forall₂_of_unplacedAll hbody fun form hform _ heq ↦
        ih form hform (Node.forall_parts_form hforms hform) heq
      exact .closure rfl hall rfl (hspans _ _)
    | _ => cases h
  | transformer l name param body scope s ih =>
    cases n' with
    | transformer l' name' param' body' scope' s' =>
      obtain ⟨rfl, rfl, rfl, hbody, rfl, -⟩ := Node.transformer.inj h
      obtain ⟨-, hforms⟩ := List.forall_mem_cons.mp hn
      have hall := Node.forall₂_of_unplacedAll hbody fun form hform _ heq ↦
        ih form hform (Node.forall_parts_form hforms hform) heq
      exact .transformer rfl hall rfl (hspans _ _)
    | _ => cases h

/-! ### Stores and machines -/

theorem Binds.unplaced_eq {b b' : Bindings} (h : withoutSpans.Binds b b') :
    b.map (fun p ↦ (p.1, p.2.unplaced)) = b'.map fun p ↦ (p.1, p.2.unplaced) := by
  induction h with
  | nil => rfl
  | cons hp _ ih => rw [List.map_cons, List.map_cons, hp.1, hp.2.unplaced_eq, ih]

theorem binds_of_unplaced {b b' : Bindings} (hb : ∀ p ∈ b, p.2.OnlyBuiltins)
    (h : b.map (fun p ↦ (p.1, p.2.unplaced)) = b'.map fun p ↦ (p.1, p.2.unplaced)) :
    withoutSpans.Binds b b' := by
  induction b generalizing b' with
  | nil =>
    cases b' with
    | nil => exact .nil
    | cons => cases h
  | cons p b ih =>
    cases b' with
    | nil => cases h
    | cons p' b' =>
      obtain ⟨hfirst, hrest⟩ := List.forall_mem_cons.mp hb
      obtain ⟨hp, htail⟩ := List.cons.inj h
      obtain ⟨hname, hvalue⟩ := Prod.mk.inj hp
      exact .cons ⟨hname, nodes_of_unplaced hfirst hvalue⟩ (ih hrest htail)

theorem Scopes.unplaced_eq {scope scope' : Scope} (h : withoutSpans.Scopes scope scope') :
    scope.unplaced = scope'.unplaced := by
  have houter : scope.outer = scope'.outer := by
    have hrel := h.outer
    generalize scope.outer = o at hrel ⊢
    generalize scope'.outer = o' at hrel ⊢
    cases hrel with
    | none => rfl
    | some heq => exact congrArg some heq
  rw [Scope.unplaced, Scope.unplaced, h.name, houter, h.bindings.unplaced_eq]

theorem scopes_of_unplaced {scope scope' : Scope} (hb : ∀ p ∈ scope.bindings, p.2.OnlyBuiltins)
    (h : scope.unplaced = scope'.unplaced) : withoutSpans.Scopes scope scope' := by
  obtain ⟨name, outer, bindings⟩ := scope
  obtain ⟨name', outer', bindings'⟩ := scope'
  obtain ⟨rfl, rfl, hbindings⟩ := Scope.mk.inj h
  refine ⟨rfl, ?_, binds_of_unplaced hb hbindings⟩
  cases outer with
  | none => exact .none
  | some outer => exact .some rfl

theorem scope?_unplaced (st : Store) (id : ScopeId) :
    st.unplaced.scope? id = (st.scope? id).map Scope.unplaced :=
  Array.getElem?_map

theorem Stores.unplaced_eq {st st' : Store} (h : withoutSpans.Stores st st') :
    st.unplaced = st'.unplaced := by
  have hscopes (id : ScopeId) : st.unplaced.scope? id = st'.unplaced.scope? id := by
    have hrel := h.scopes (s := id) rfl
    rw [scope?_unplaced, scope?_unplaced]
    generalize st.scope? id = x at hrel ⊢
    generalize st'.scope? id = x' at hrel ⊢
    cases hrel with
    | none => rfl
    | some hscope => exact congrArg some hscope.unplaced_eq
  exact congrArg Store.mk (Array.ext_getElem? hscopes)

theorem stores_of_unplaced {st st' : Store} (hst : st.Holds Node.OnlyBuiltins)
    (h : st.unplaced = st'.unplaced) : withoutSpans.Stores st st' where
  scopes {id id'} hid := by
    obtain rfl : id = id' := hid
    have hmap : (st.scope? id).map Scope.unplaced = (st'.scope? id).map Scope.unplaced := by
      rw [← scope?_unplaced, ← scope?_unplaced, h]
    have hbuiltins := hst id
    generalize st.scope? id = x at hmap hbuiltins ⊢
    generalize st'.scope? id = x' at hmap ⊢
    match x, x', hmap with
    | none, none, _ => exact .none
    | some scope, some scope', hmap =>
      exact .some (scopes_of_unplaced (hbuiltins scope rfl) (Option.some.inj hmap))
  next k := by
    have hsize := congrArg Store.next h
    rw [Store.unplaced, Store.unplaced, Store.next, Store.next, Array.size_map,
      Array.size_map] at hsize
    exact congrArg (· + k) hsize
  others id hid := absurd rfl (hid id)

theorem Machines.unplaced_eq {m m' : Machine} (h : withoutSpans.Machines m m') :
    m.unplaced = m'.unplaced := by
  have hlabel : m.label = m'.label := h.labels 0
  rw [Machine.unplaced, Machine.unplaced, h.store.unplaced_eq, hlabel]

theorem machines_of_unplaced {m m' : Machine} (hm : m.store.Holds Node.OnlyBuiltins)
    (h : m.unplaced = m'.unplaced) : withoutSpans.Machines m m' := by
  obtain ⟨hstore, hlabel, -⟩ := Machine.mk.inj h
  exact ⟨stores_of_unplaced hm hstore, fun k ↦ congrArg (· + k) hlabel⟩

theorem Places.withoutSpans (ctx : Context) : withoutSpans.Places ctx ctx := by
  refine ⟨rfl, ?_⟩
  cases ctx.dynamic with
  | none => exact .none
  | some active => exact .some rfl

theorem Ends.unplaced_eq {x y : Outcome EvalError Node}
    (h : withoutSpans.Ends withoutSpans.Nodes x y) : x.unplaced = y.unplaced := by
  cases h with
  | ok hv hm => rw [Outcome.unplaced, Outcome.unplaced, hv.unplaced_eq, hm.unplaced_eq]
  | error he hm => rw [Outcome.unplaced, Outcome.unplaced, he.complaint, hm.unplaced_eq]
  | outOfFuel => rfl

end Correspondence

/-! ### Evaluation -/

/-- **Spans never influence what a program means.** Two forms that are the same without spans, in
the same place of machines that are the same without spans, are evaluated to the same end without
spans: both to a value, or both to an error that says the same, with machines left behind that are
the same without spans. The natives in the form and in the store do built-in operations. -/
theorem evaluate_unplaced (fuel : Nat) {form form' : Node} (hform : form.unplaced = form'.unplaced)
    {m m' : Machine} (hm : m.unplaced = m'.unplaced) (hbuiltins : form.OnlyBuiltins)
    (hbound : m.store.Holds Node.OnlyBuiltins) (ctx : Context) :
    (evaluate fuel form ctx m).unplaced = (evaluate fuel form' ctx m').unplaced := by
  have hforms : Correspondence.withoutSpans.Nodes form form' :=
    Correspondence.nodes_of_unplaced hbuiltins hform
  have hmachines : Correspondence.withoutSpans.Machines m m' :=
    Correspondence.machines_of_unplaced hbound hm
  have hends := Correspondence.evaluate_alike fuel hforms (.withoutSpans ctx) m m' hmachines
  exact hends.unplaced_eq

/-- The call `(car 5)`, with every part of it in the same place. -/
def Node.carOfFive (s : Span) : Node := .ofList [.symbol "car" s, .number (.ofInt 5) s] s

/-- A machine with a scope that binds `car`. -/
def Machine.withCar (s : Span) : Machine :=
  ⟨Store.empty.add ⟨none, none, [("car", .atom (.native Builtin.car.native) s)]⟩, 0, none⟩

/-- The call fails in the same way wherever it was read, and wherever `car` comes from. -/
theorem evaluate_unplaced_car :
    (evaluate 9 (.carOfFive ⟨0, 7⟩) ⟨0, none⟩ (.withCar .nowhere)).unplaced =
      (evaluate 9 (.carOfFive ⟨40, 47⟩) ⟨0, none⟩ (.withCar ⟨3, 9⟩)).unplaced := by
  have hform : (Node.carOfFive ⟨0, 7⟩).unplaced = (Node.carOfFive ⟨40, 47⟩).unplaced := rfl
  have hm : (Machine.withCar .nowhere).unplaced = (Machine.withCar ⟨3, 9⟩).unplaced := by
    simp [Machine.withCar, Machine.unplaced, Store.unplaced, Store.add, Store.empty,
      Scope.unplaced, Node.unplaced]
  have hbuiltins : (Node.carOfFive ⟨0, 7⟩).OnlyBuiltins := by
    intro part hpart p hp
    simp [Node.carOfFive, Node.ofList, Node.listWithTail, Node.chain, Node.withSpan, Node.parts,
      Node.symbol, Node.number, Node.nil] at hpart
    rcases hpart with rfl | rfl | rfl | rfl | rfl <;> cases hp
  have hbound : (Machine.withCar .nowhere).store.Holds Node.OnlyBuiltins := by
    refine Store.holds_empty.add (List.forall_mem_singleton.mpr ?_)
    intro part hpart p hp
    obtain rfl := List.mem_singleton.mp hpart
    cases hp
    exact Builtin.isBuiltin_native .car
  exact evaluate_unplaced 9 hform hm hbuiltins hbound _

end MiniLisp
