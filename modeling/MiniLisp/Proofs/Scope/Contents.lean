import MiniLisp.Scope.Store

/-!
# What scopes hold

A property of everything that is bound in a store (`Store.Holds`). It is kept when scopes are added
and names are bound, as long as what is bound has the property, and lookups then only find what has
it, however far out they go.
-/

namespace MiniLisp

namespace Bindings

variable {P : Node → Prop}

theorem forall_mem_bind {name : String} {value : Node} {b : Bindings} (hvalue : P value)
    (hb : ∀ p ∈ b, P p.2) : ∀ p ∈ bind name value b, P p.2 := by
  induction b with
  | nil => exact fun p hp ↦ List.mem_singleton.mp hp ▸ hvalue
  | cons first rest ih =>
    obtain ⟨hfirst, hrest⟩ := List.forall_mem_cons.mp hb
    rw [bind]
    split
    · exact List.forall_mem_cons.mpr ⟨hvalue, hrest⟩
    · exact List.forall_mem_cons.mpr ⟨hfirst, ih hrest⟩

theorem forall_mem_ofList {pairs : List (String × Node)} (h : ∀ p ∈ pairs, P p.2) :
    ∀ p ∈ ofList pairs, P p.2 := by
  -- The bindings made so far are the accumulator of the fold.
  suffices hfold : ∀ b : Bindings, (∀ p ∈ b, P p.2) →
      ∀ p ∈ pairs.foldl (fun b p ↦ bind p.1 p.2 b) b, P p.2 from hfold [] nofun
  induction pairs with
  | nil => exact fun b hb ↦ hb
  | cons first rest ih =>
    obtain ⟨hfirst, hrest⟩ := List.forall_mem_cons.mp h
    exact fun b hb ↦ ih hrest _ (forall_mem_bind hfirst hb)

theorem mem_of_find? {name : String} {value : Node} {b : Bindings}
    (h : find? name b = some value) : (name, value) ∈ b := by
  induction b with
  | nil => cases h
  | cons first rest ih =>
    obtain ⟨n, old⟩ := first
    rw [find?] at h
    split at h
    · next hn =>
      obtain rfl := Option.some.inj h
      exact hn ▸ List.mem_cons_self
    · exact List.mem_cons_of_mem _ (ih h)

/-! ### Bindings made one after the other -/

theorem find?_foldl_of_not_mem {name : String} {pairs : List (String × Node)}
    (h : name ∉ pairs.map Prod.fst) (b : Bindings) :
    find? name (pairs.foldl (fun b p ↦ bind p.1 p.2 b) b) = find? name b := by
  induction pairs generalizing b with
  | nil => rfl
  | cons first rest ih =>
    obtain ⟨hfirst, hrest⟩ := not_or.mp (mt List.mem_cons.mpr h)
    rw [List.foldl_cons, ih hrest, find?_bind, if_neg (Ne.symm hfirst)]

/-- The last value that is given for a name counts. -/
theorem find?_ofList_of_last {name : String} (value : Node) (before : List (String × Node))
    {after : List (String × Node)} (h : name ∉ after.map Prod.fst) :
    find? name (ofList (before ++ (name, value) :: after)) = some value := by
  rw [ofList, List.foldl_append, List.foldl_cons, find?_foldl_of_not_mem h, find?_bind,
    if_pos rfl]

/-- All names that values are given for are bound, and no others. -/
theorem mem_names_ofList {name : String} {pairs : List (String × Node)} :
    name ∈ names (ofList pairs) ↔ name ∈ pairs.map Prod.fst := by
  suffices hfold : ∀ b : Bindings, name ∈ names (pairs.foldl (fun b p ↦ bind p.1 p.2 b) b) ↔
      name ∈ pairs.map Prod.fst ∨ name ∈ names b from
    (hfold []).trans (or_iff_left List.not_mem_nil)
  induction pairs with
  | nil => exact fun b ↦ (or_iff_right List.not_mem_nil).symm
  | cons first rest ih =>
    intro b
    rw [List.foldl_cons, ih, mem_names_bind, List.map_cons, List.mem_cons, or_left_comm, or_assoc]

end Bindings

namespace Store

/-- Everything bound in any scope of the store has a property. -/
def Holds (P : Node → Prop) (st : Store) : Prop :=
  ∀ id scope, st.scope? id = some scope → ∀ p ∈ scope.bindings, P p.2

variable {P : Node → Prop} {st : Store}

theorem holds_empty : empty.Holds P := fun _ _ h ↦ absurd h nofun

theorem Holds.imp {Q : Node → Prop} (h : st.Holds P) (hPQ : ∀ n, P n → Q n) : st.Holds Q :=
  fun id scope hscope p hp ↦ hPQ _ (h id scope hscope p hp)

theorem Holds.add (h : st.Holds P) {scope : Scope} (hscope : ∀ p ∈ scope.bindings, P p.2) :
    (st.add scope).Holds P := by
  intro id s hs
  rw [scope?_add] at hs
  split at hs
  · obtain rfl := Option.some.inj hs
    exact hscope
  · exact h id s hs

theorem Holds.define (h : st.Holds P) (id : ScopeId) (name : String) {value : Node}
    (hvalue : P value) : (st.define id name value).Holds P := by
  intro other s hs
  rw [Store.define, scope?_rebind] at hs
  split at hs
  · obtain ⟨scope, hscope, rfl⟩ := Option.map_eq_some_iff.mp hs
    exact Bindings.forall_mem_bind hvalue (h other scope hscope)
  · exact h other s hs

/-- What a name is bound to has the property. -/
theorem Holds.of_find? (h : st.Holds P) {name : String} {id : ScopeId} {value : Node}
    (hvalue : Bindings.find? name (st.bindings id) = some value) : P value := by
  have hmem := Bindings.mem_of_find? hvalue
  unfold bindings at hmem
  split at hmem
  · next scope hscope => exact h id scope hscope _ hmem
  · exact absurd hmem List.not_mem_nil

/-- What a name means has the property, wherever it is bound. -/
theorem Holds.of_resolve? (h : st.Holds P) {name : String} {id owner : ScopeId} {value : Node}
    (hvalue : st.resolve? name id = some (owner, value)) : P value := by
  induction id using resolve?.induct st name with
  | case1 id found hfound =>
    rw [resolve?, hfound] at hvalue
    cases hvalue
    exact h.of_find? hfound
  | case2 id hnone outer hlt houter ih =>
    rw [resolve?, hnone, houter] at hvalue
    exact ih hvalue
  | case3 id hnone houter =>
    rw [resolve?, hnone, houter] at hvalue
    cases hvalue

theorem Holds.of_get? (h : st.Holds P) {name : String} {id : ScopeId} {value : Node}
    (hvalue : st.get? name id = some value) : P value := by
  obtain ⟨⟨owner, found⟩, hfound, rfl⟩ := Option.map_eq_some_iff.mp hvalue
  exact h.of_resolve? hfound

end Store

end MiniLisp
