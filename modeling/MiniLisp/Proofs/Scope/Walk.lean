import Mathlib.Logic.Relation
import MiniLisp.Proofs.Scope.Chain

/-!
# Walks along the links

Lookups and listings go outwards from a scope, and only to scopes that are older, so they end in any
store. Without that restriction a walk goes wherever the links lead, and may never end: it is given
here for a number of steps (`Store.search?`, `Store.gather?`).

In a linked store the restriction makes no difference. A walk is through after as many steps as
there are scopes up to the one that it begins at, and its answer is found on the chain of that scope
(`Store.Linked.search?_eq`, `Store.Linked.gather?_eq`).
-/

namespace MiniLisp

namespace Store

variable {α : Type}

/-- Walks outwards up to the first scope with an answer, and answers `none` if there is no such
scope. The walk is not through if there were too few steps for it, or if it came to a scope that is
not in the store. -/
def search? (st : Store) (here : ScopeId → Bindings → Option α) : Nat → ScopeId → Option (Option α)
  | 0, _ => none
  | steps + 1, id => match st.scope? id with
    | none => none
    | some scope => match here id scope.bindings with
      | some answer => some (some answer)
      | none => match scope.outer with
        | some outer => search? st here steps outer
        | none => some none

/-- Walks outwards to the last scope, and collects names of all scopes on the way. -/
def gather? (st : Store) (own : Bindings → List String) : Nat → ScopeId → Option (List String)
  | 0, _ => none
  | steps + 1, id => match st.scope? id with
    | none => none
    | some scope => match scope.outer with
      | some outer => (gather? st own steps outer).map (own scope.bindings ++ ·)
      | none => some (own scope.bindings)

variable {st : Store} {id : ScopeId}

theorem exists_scope_of_lt (h : id < st.next) :
    ∃ scope, st.scope? id = some scope ∧ st.bindings id = scope.bindings := by
  have hscope : st.scope? id = some st.scopes[id] := Array.getElem?_eq_getElem h
  exact ⟨_, hscope, by rw [bindings, hscope]⟩

/-- In a linked store, the chain goes on wherever the link leads. -/
theorem Linked.chain_of_outer (h : st.Linked) {scope : Scope} (hscope : st.scope? id = some scope)
    {outer : ScopeId} (houter : scope.outer = some outer) : st.chain id = id :: st.chain outer :=
  have hfound : st.outer? id = some ⟨outer, h id scope hscope outer houter⟩ :=
    outer?_eq_some_iff.mpr ⟨scope, hscope, houter⟩
  chain_of_outer? hfound

theorem chain_of_no_outer {scope : Scope} (hscope : st.scope? id = some scope)
    (houter : scope.outer = none) : st.chain id = [id] := by
  refine chain_of_outermost ?_
  unfold outer?
  rw [hscope, Option.bind_some, houter]

/-- **A search in a linked store is through after enough steps.** It answers as the first scope on
the chain that has an answer. -/
theorem Linked.search?_eq (h : st.Linked) (here : ScopeId → Bindings → Option α) {steps : Nat}
    (hid : id < st.next) (hsteps : id < steps) :
    st.search? here steps id =
      some ((st.chain id).findSome? fun scope ↦ here scope (st.bindings scope)) := by
  induction steps generalizing id with
  | zero => exact absurd hsteps (Nat.not_lt_zero _)
  | succ steps ih =>
    obtain ⟨scope, hscope, hbindings⟩ := exists_scope_of_lt hid
    rw [search?, hscope]
    dsimp only
    cases hanswer : here id scope.bindings with
    | some answer => rw [chain, List.findSome?_cons, hbindings, hanswer]
    | none =>
      cases houter : scope.outer with
      | none => rw [chain_of_no_outer hscope houter, List.findSome?_cons, hbindings, hanswer]; rfl
      | some outer =>
        have hlt : outer < id := h id scope hscope outer houter
        rw [h.chain_of_outer hscope houter, List.findSome?_cons, hbindings, hanswer]
        exact ih (Nat.lt_trans hlt hid) (Nat.lt_of_lt_of_le hlt (Nat.le_of_lt_succ hsteps))

/-- **A listing in a linked store is through after enough steps.** It has the names of all scopes on
the chain. -/
theorem Linked.gather?_eq (h : st.Linked) (own : Bindings → List String) {steps : Nat}
    (hid : id < st.next) (hsteps : id < steps) :
    st.gather? own steps id = some ((st.chain id).flatMap fun scope ↦ own (st.bindings scope)) := by
  induction steps generalizing id with
  | zero => exact absurd hsteps (Nat.not_lt_zero _)
  | succ steps ih =>
    obtain ⟨scope, hscope, hbindings⟩ := exists_scope_of_lt hid
    rw [gather?, hscope]
    dsimp only
    cases houter : scope.outer with
    | none => rw [chain_of_no_outer hscope houter, List.flatMap_singleton, hbindings]
    | some outer =>
      have hlt : outer < id := h id scope hscope outer houter
      rw [h.chain_of_outer hscope houter, List.flatMap_cons, hbindings]
      dsimp only
      rw [ih (Nat.lt_trans hlt hid) (Nat.lt_of_lt_of_le hlt (Nat.le_of_lt_succ hsteps))]
      rfl

/-- A lookup looks at the scopes on the chain one after the other. -/
theorem resolve?_eq_findSome? (st : Store) (name : String) (id : ScopeId) :
    st.resolve? name id = (st.chain id).findSome? fun scope ↦
      (Bindings.find? name (st.bindings scope)).map (scope, ·) := by
  induction id using resolve?.induct st name with
  | case1 id value hvalue => rw [resolve?, chain, List.findSome?_cons, hvalue]; rfl
  | case2 id hnone outer hlt houter ih =>
    rw [resolve?, hnone, houter, chain_of_outer? houter, List.findSome?_cons, hnone]
    exact ih
  | case3 id hnone houter =>
    rw [resolve?, hnone, houter, chain_of_outermost houter, List.findSome?_cons, hnone]
    rfl

/-- What is made of the outcome of a lookup can be made of the binding where it is found. -/
theorem map_resolve? (st : Store) (name : String) (id : ScopeId) (f : ScopeId × Node → α) :
    (st.resolve? name id).map f = (st.chain id).findSome? fun scope ↦
      (Bindings.find? name (st.bindings scope)).map fun value ↦ f (scope, value) := by
  rw [resolve?_eq_findSome?, List.map_findSome?]
  congr
  funext scope
  exact Option.map_map _ _ _

/-- No walk along the links comes back. -/
theorem Linked.not_transGen (h : st.Linked) : ¬ Relation.TransGen st.StandsIn id id := by
  have hlt {a b : ScopeId} (hab : Relation.TransGen st.StandsIn a b) : b < a := by
    induction hab with
    | single hlink =>
      obtain ⟨scope, hscope, houter⟩ := hlink
      exact h _ scope hscope _ houter
    | tail _ hlink ih =>
      obtain ⟨scope, hscope, houter⟩ := hlink
      exact Nat.lt_trans (h _ scope hscope _ houter) ih
  exact fun hcycle ↦ absurd (hlt hcycle) (Nat.lt_irrefl _)

end Store

end MiniLisp
