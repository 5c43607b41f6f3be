import MiniLisp.Scope.Store

/-!
# Where names are added

Evaluation may add names to the scope it is started in and to those that it makes on the way. What
it does to all others is limited: they keep their names, their places and the names that they bind,
and only what these mean may change.

`Store.Confined` says so about a store and a later one, given which scopes may be added to. It holds
of the three ways in which a store changes: a scope is added, a name is bound in a scope that may be
added to, or a name is assigned, and then it is bound already in the scope that changes.
-/

namespace MiniLisp

namespace Bindings

/-- Binding a name that is bound already leaves the names as they are. -/
theorem names_bind_of_mem {name : String} {b : Bindings} (h : name ∈ names b) (value : Node) :
    names (bind name value b) = names b := by
  induction b with
  | nil => exact absurd h List.not_mem_nil
  | cons p rest ih =>
    obtain ⟨n, old⟩ := p
    rw [bind]
    split
    · rfl
    · next hn =>
      -- The name is not the first one, so it is bound further back.
      have hrest : name ∈ names rest := (List.mem_cons.mp h).resolve_left (Ne.symm hn)
      show n :: names (bind name value rest) = n :: names rest
      rw [ih hrest]

theorem names_subset_bind (name : String) (value : Node) (b : Bindings) :
    names b ⊆ names (bind name value b) :=
  fun other h ↦ (mem_names_bind name other value b).mpr (.inr h)

end Bindings

/-- A scope as it was and as it is later. Only in an `own` scope may further names be bound. -/
structure Scope.Kept (own : Prop) (scope scope' : Scope) : Prop where
  name : scope'.name = scope.name
  outer : scope'.outer = scope.outer
  names_subset : Bindings.names scope.bindings ⊆ Bindings.names scope'.bindings
  names_eq : ¬ own → Bindings.names scope'.bindings = Bindings.names scope.bindings

namespace Scope.Kept

variable {own own' : Prop} {scope scope' scope'' : Scope}

theorem refl (scope : Scope) : Kept own scope scope := ⟨rfl, rfl, fun _ h ↦ h, fun _ ↦ rfl⟩

theorem trans (h : Kept own scope scope') (h' : Kept own scope' scope'') :
    Kept own scope scope'' where
  name := h'.name.trans h.name
  outer := h'.outer.trans h.outer
  names_subset := fun _ hn ↦ h'.names_subset (h.names_subset hn)
  names_eq := fun ho ↦ (h'.names_eq ho).trans (h.names_eq ho)

theorem mono (h : Kept own scope scope') (ho : own → own') : Kept own' scope scope' :=
  { h with names_eq := fun hn ↦ h.names_eq fun o ↦ hn (ho o) }

/-- A name may be bound in a scope that is added to or that binds the name already. -/
theorem bind {name : String} (h : own ∨ name ∈ Bindings.names scope.bindings) (value : Node) :
    Kept own scope { scope with bindings := Bindings.bind name value scope.bindings } where
  name := rfl
  outer := rfl
  names_subset := Bindings.names_subset_bind name value scope.bindings
  names_eq := fun ho ↦ Bindings.names_bind_of_mem (h.resolve_left ho) value

end Scope.Kept

namespace Store

/-- Every scope of the first store is kept in the second one, and names are only added to scopes
that are `own`. -/
def Confined (own : ScopeId → Prop) (st st' : Store) : Prop :=
  ∀ id scope, st.scope? id = some scope →
    ∃ scope', st'.scope? id = some scope' ∧ scope.Kept (own id) scope'

/-- The scope where a name is found binds it. -/
theorem mem_names_of_resolve? {st : Store} {name : String} {id owner : ScopeId} {value : Node}
    (h : st.resolve? name id = some (owner, value)) :
    name ∈ Bindings.names (st.bindings owner) := by
  induction id using Store.resolve?.induct st name with
  | case1 id found hfound =>
    rw [resolve?, hfound] at h
    obtain ⟨rfl, rfl⟩ := Prod.mk.inj (Option.some.inj h)
    exact (Bindings.find?_isSome_iff _ _).mp (by rw [hfound]; rfl)
  | case2 id hfound outer hlt houter ih =>
    rw [resolve?, hfound, houter] at h
    exact ih h
  | case3 id hfound houter =>
    rw [resolve?, hfound, houter] at h
    exact absurd h nofun

theorem scope?_lt {st : Store} {id : ScopeId} {scope : Scope} (h : st.scope? id = some scope) :
    id < st.next := by
  obtain ⟨hlt, -⟩ := Array.getElem?_eq_some_iff.mp h
  exact hlt

namespace Confined

variable {own own' : ScopeId → Prop} {st st' st'' : Store}

theorem refl (st : Store) : Confined own st st :=
  fun _ scope h ↦ ⟨scope, h, .refl scope⟩

theorem trans (h : Confined own st st') (h' : Confined own st' st'') : Confined own st st'' := by
  intro id scope hs
  obtain ⟨scope', hs', hk⟩ := h id scope hs
  obtain ⟨scope'', hs'', hk'⟩ := h' id scope' hs'
  exact ⟨scope'', hs'', hk.trans hk'⟩

/-- Only the scopes that were there matter. -/
theorem mono (h : Confined own st st') (ho : ∀ id, id < st.next → own id → own' id) :
    Confined own' st st' := by
  intro id scope hs
  obtain ⟨scope', hs', hk⟩ := h id scope hs
  exact ⟨scope', hs', hk.mono (ho id (scope?_lt hs))⟩

theorem add (st : Store) (scope : Scope) : Confined own st (st.add scope) := by
  intro id old hs
  refine ⟨old, ?_, .refl old⟩
  rw [scope?_add, if_neg (Nat.ne_of_lt (scope?_lt hs)), hs]

/-- A name may be bound in a scope that is added to or that binds the name already. -/
theorem define {id : ScopeId} {name : String}
    (h : own id ∨ name ∈ Bindings.names (st.bindings id)) (value : Node) :
    Confined own st (st.define id name value) := by
  intro other scope hs
  rw [Store.define, scope?_rebind, hs]
  split
  · next e =>
    subst e
    have hb : st.bindings id = scope.bindings := by rw [bindings, hs]
    rw [hb] at h
    exact ⟨_, rfl, .bind h value⟩
  · exact ⟨scope, rfl, .refl scope⟩

/-- An assignment adds no name to any scope. -/
theorem assign {id : ScopeId} {name : String} {value : Node}
    (h : st.assign? id name value = some st') : Confined own st st' := by
  obtain ⟨⟨owner, old⟩, hfound, rfl⟩ := Option.map_eq_some_iff.mp h
  exact .define (.inr (mem_names_of_resolve? hfound)) value

end Confined

end Store

end MiniLisp
