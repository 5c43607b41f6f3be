import MiniLisp.Proofs.Eval.Growth
import MiniLisp.Proofs.Scope.Walk

/-!
# Every walk along the links ends

A host may add scopes, bind and assign names in them, and evaluate forms in either mode, in any
order. New scopes also come up in evaluations, for calls, `let` and macros, and they stand in scopes
that closures and macros were made in or in the dynamic one. All of these exist by then, as
everything that is bound or evaluated only knows scopes that exist. So each scope is newer than the
one it stands in, at every moment (`Reached.grounded`), and lookups and listings come through
without looking out for that (`Reached.walks_end`).
-/

namespace MiniLisp

/-- The machines that a host can come to from a store without scopes, and those that come up in the
evaluations on the way. What the host binds and evaluates only knows scopes that exist. -/
inductive Reached : Machine → Prop
  | empty (label : Label) (trace : Option (List Event)) : Reached ⟨.empty, label, trace⟩
  /-- A scope that stands in no other. -/
  | outermost {m : Machine} (h : Reached m) (name : String) :
      Reached { m with store := m.store.add (.outermost name) }
  /-- A scope inside another one. -/
  | inherit {m : Machine} (h : Reached m) {outer : ScopeId} (houter : outer < m.store.next)
      (name : Option String) : Reached { m with store := m.store.add ⟨name, some outer, []⟩ }
  | define {m : Machine} (h : Reached m) {id : ScopeId} (hid : id < m.store.next) (name : String)
      {value : Node} (hvalue : value.Housed m.store.next) :
      Reached { m with store := m.store.define id name value }
  | set {m m' : Machine} (h : Reached m) {id : ScopeId} (hid : id < m.store.next) {name : String}
      {value : Node} (hvalue : value.Housed m.store.next) {span : Span}
      (hset : (Action.assign id name value span m).machine? = some m') : Reached m'
  | evaluate {m m' : Machine} (h : Reached m) {form : Node} (hform : form.Housed m.store.next)
      {ctx : Context} (hc : ctx.Within m.store.next) {fuel : Nat}
      (hends : (evaluate fuel form ctx m).machine? = some m') : Reached m'
  /-- In the middle of an evaluation. -/
  | during {m : Machine} (h : Reached m) {form : Node} (hform : form.Housed m.store.next)
      {ctx : Context} (hc : ctx.Within m.store.next) {p : Moment}
      (hoccurs : Occurs (.start form ctx m) p) : Reached p.machine

open Grounding in
/-- At every moment each scope is newer than the one it stands in, and everything that is bound only
knows scopes that exist. -/
theorem Reached.grounded {m : Machine} (h : Reached m) : m.Grounded False := by
  induction h with
  | empty label trace => exact .empty label trace
  | outermost _ name ih => exact ih.add nofun nofun
  | inherit _ houter name ih =>
    refine ih.add ?_ nofun
    rintro _ ⟨⟩
    exact houter
  | define _ _ name hvalue ih => exact ih.define _ name hvalue.grounded
  | set _ _ hvalue hset ih =>
    exact ((Agree.assign _ _ hvalue.grounded _).of_machine? ih (Nat.le_refl _) hset).1
  | evaluate _ hform hc hends ih =>
    exact ((evaluate_agree _ hform.grounded hc).of_machine? ih (Nat.le_refl _) hends).1
  | during _ hform hc hoccurs ih =>
    exact (hoccurs.grounded (Moment.start_grounded ih hform.grounded hc)).1

/-- **Scopes are linked without cycles, and every walk along the links ends.** At every moment each
scope is newer than the one it stands in. A walk from any scope, wherever the links lead, is through
after one step more than there are older scopes, with the answer of the lookup, of the assignment or
of the listing that it is made for. -/
theorem Reached.walks_end {m : Machine} (h : Reached m) :
    m.store.Linked ∧ (∀ id, ¬ Relation.TransGen m.store.StandsIn id id) ∧
    ∀ id < m.store.next, ∀ steps, id < steps →
      (∀ name, m.store.search? (fun _ b ↦ Bindings.find? name b) steps id =
        some (m.store.get? name id)) ∧
      (∀ name, (m.store.search? (fun _ b ↦ Bindings.find? name b) steps id).map Option.isSome =
        some (m.store.isBound name id)) ∧
      (∀ name value, m.store.search? (fun owner b ↦
          (Bindings.find? name b).map fun _ ↦ m.store.define owner name value) steps id =
        some (m.store.assign? id name value)) ∧
      m.store.gather? Bindings.names steps id = some (m.store.identifiers id) ∧
      m.store.gather? Store.macroNames steps id = some (m.store.transformerNames id) := by
  have hlinked := h.grounded.linked
  refine ⟨hlinked, fun id ↦ hlinked.not_transGen, fun id hid steps hsteps ↦ ?_⟩
  have hget (name : String) : m.store.search? (fun _ b ↦ Bindings.find? name b) steps id =
      some (m.store.get? name id) := by
    rw [hlinked.search?_eq _ hid hsteps, Store.get?, Store.map_resolve?]
    simp only [Option.map_id']
  refine ⟨hget, fun name ↦ ?_, fun name value ↦ ?_, hlinked.gather?_eq _ hid hsteps,
    hlinked.gather?_eq _ hid hsteps⟩
  · rw [hget, Option.map_some, Store.get?, Option.isSome_map]
    rfl
  · rw [hlinked.search?_eq _ hid hsteps, Store.assign?, Store.map_resolve?]

/-- In dynamic mode `((lambda () x))`, evaluated in a scope inside another one that binds `x`, is
called in a third scope that stands in the second. Three steps are enough from there. -/
theorem Reached.walks_end_call :
    let list (items : List Node) : Node := .ofList items .nowhere
    let lambda : Node := list [.symbol "lambda" .nowhere, list [], .symbol "x" .nowhere]
    let nested : Machine :=
      ⟨((Store.empty.add (.outermost "global")).define 0 "x" (list [])).add ⟨none, some 0, []⟩, 0,
        none⟩
    ∃ m', (MiniLisp.evaluate 9 (list [lambda]) ⟨1, some 1⟩ nested).machine? = some m' ∧ Reached m' ∧
      2 < m'.store.next ∧ m'.store.Linked ∧
      m'.store.search? (fun _ b ↦ Bindings.find? "x" b) 3 2 = some (m'.store.get? "x" 2) := by
  intro list lambda nested
  have hlist {limit : ScopeId} {items : List Node} (h : Node.AllGrounded False limit items) :
      (list items).Grounded False limit := .ofList h _
  have hnil {limit : ScopeId} : (list []).Grounded False limit := hlist nofun
  have hlambda : lambda.Grounded False 2 :=
    hlist (List.forall_mem_cons.mpr ⟨.symbol _ _, List.forall_mem_cons.mpr
      ⟨hnil, List.forall_mem_singleton.mpr (.symbol _ _)⟩⟩)
  have hnested : Reached nested :=
    (((Reached.empty 0 none).outermost "global").define (by decide) "x"
      hnil.housed).inherit (by decide) none
  have hc : (⟨1, some 1⟩ : Context).Within nested.store.next :=
    ⟨by decide, fun active ha ↦ Option.some.inj ha ▸ by decide⟩
  have hnext : (MiniLisp.evaluate 9 (list [lambda]) ⟨1, some 1⟩ nested).machine?.map
      (·.store.next) = some 3 := by
    decide +kernel
  obtain ⟨m', hends, hnext⟩ := Option.map_eq_some_iff.mp hnext
  have hm' : Reached m' :=
    hnested.evaluate (hlist (List.forall_mem_singleton.mpr hlambda)).housed hc hends
  obtain ⟨hlinked, -, hwalks⟩ := hm'.walks_end
  have hlt : 2 < m'.store.next := hnext ▸ (by decide : 2 < 3)
  exact ⟨m', hends, hm', hlt, hlinked, (hwalks 2 hlt 3 (by decide)).1 "x"⟩

end MiniLisp
