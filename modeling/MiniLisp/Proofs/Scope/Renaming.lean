import MiniLisp.Proofs.Data.Renaming
import MiniLisp.Proofs.Scope.Contents

/-!
# Other names for labels in a store

Renaming the labels in all that a store binds (`Store.relabel`) leaves the scopes where they are and
what they are called. So the same names are found in the same scopes, bound to the same data with
its labels renamed, and a store may be changed before or after the renaming.
-/

namespace MiniLisp

/-- The same names, bound to data with other labels. -/
def Bindings.relabel (f : Label → Label) (b : Bindings) : Bindings :=
  b.map fun p ↦ (p.1, p.2.relabel f)

/-- The same scope, with other labels in what it binds. -/
def Scope.relabel (f : Label → Label) (scope : Scope) : Scope :=
  { scope with bindings := scope.bindings.relabel f }

/-- The same scopes, with other labels in what they bind. -/
def Store.relabel (f : Label → Label) (st : Store) : Store := ⟨st.scopes.map (Scope.relabel f)⟩

namespace Bindings

variable (f : Label → Label) (name : String) (value : Node) (b : Bindings)

theorem relabel_cons (p : String × Node) :
    relabel f (p :: b) = (p.1, p.2.relabel f) :: b.relabel f := rfl

@[simp] theorem find?_relabel : find? name (b.relabel f) = (find? name b).map (Node.relabel f) := by
  induction b with
  | nil => rfl
  | cons p rest ih =>
    rw [relabel_cons, find?, find?]
    split
    · rfl
    · exact ih

@[simp] theorem names_relabel : names (b.relabel f) = names b := by
  rw [relabel, names, names, List.map_map]
  rfl

theorem bind_relabel : (bind name value b).relabel f = bind name (value.relabel f) (b.relabel f) := by
  induction b with
  | nil => rfl
  | cons p rest ih =>
    rw [relabel_cons, bind, bind]
    split
    · rfl
    · rw [relabel_cons, ih]

theorem ofList_relabel (pairs : List (String × Node)) :
    (ofList pairs).relabel f = ofList (relabel f pairs) := by
  -- The bindings made so far are the accumulator of the fold.
  suffices hfold : ∀ b : Bindings, (pairs.foldl (fun b p ↦ bind p.1 p.2 b) b).relabel f =
      (relabel f pairs).foldl (fun b p ↦ bind p.1 p.2 b) (b.relabel f) from hfold []
  induction pairs with
  | nil => exact fun b ↦ rfl
  | cons p pairs ih =>
    intro b
    rw [relabel_cons, List.foldl_cons, List.foldl_cons, ih, bind_relabel]

end Bindings

namespace Store

variable (f : Label → Label) (st : Store) (id : ScopeId)

@[simp] theorem scope?_relabel :
    (st.relabel f).scope? id = (st.scope? id).map (Scope.relabel f) :=
  Array.getElem?_map

@[simp] theorem next_relabel : (st.relabel f).next = st.next := Array.size_map

@[simp] theorem bindings_relabel : (st.relabel f).bindings id = (st.bindings id).relabel f := by
  rw [bindings, bindings, scope?_relabel]
  cases st.scope? id <;> rfl

theorem outer_relabel :
    ((st.relabel f).scope? id).bind Scope.outer = (st.scope? id).bind Scope.outer := by
  rw [scope?_relabel]
  cases st.scope? id <;> rfl

@[simp] theorem outer?_relabel : (st.relabel f).outer? id = st.outer? id := by
  unfold outer?
  rw [outer_relabel]

/-- Renaming does not change a store if it changes nothing that is bound there. -/
theorem Holds.relabel_eq {f : Label → Label} {st : Store} (h : st.Holds fun n ↦ n.relabel f = n) :
    st.relabel f = st := by
  refine congrArg mk (Array.ext_getElem? fun id ↦ ?_)
  rw [Array.getElem?_map]
  cases hscope : st.scopes[id]? with
  | none => rfl
  | some scope =>
    have hbindings : scope.bindings.relabel f = scope.bindings := by
      refine (List.map_congr_left fun p hp ↦ ?_).trans (List.map_id _)
      rw [h id scope hscope p hp]
      rfl
    rw [Option.map_some, Scope.relabel, hbindings]

theorem relabel_refl : st.relabel Renaming.refl = st :=
  Holds.relabel_eq fun _ _ _ p _ ↦ p.2.relabel_refl

/-- Names are found in the same scopes. -/
theorem resolve?_relabel (name : String) : (st.relabel f).resolve? name id =
    (st.resolve? name id).map fun found ↦ (found.1, found.2.relabel f) := by
  induction id using resolve?.induct st name with
  | case1 id value hvalue => rw [resolve?, resolve?]; simp [hvalue]
  | case2 id hnone outer hlt houter ih => rw [resolve?, resolve?]; simp [hnone, houter, ih]
  | case3 id hnone houter => rw [resolve?, resolve?]; simp [hnone, houter]

@[simp] theorem get?_relabel (name : String) :
    (st.relabel f).get? name id = (st.get? name id).map (Node.relabel f) := by
  rw [get?, get?, resolve?_relabel, Option.map_map, Option.map_map]
  rfl

@[simp] theorem name_relabel : (st.relabel f).name id = st.name id := by
  have hname (id : ScopeId) :
      ((st.relabel f).scope? id).bind Scope.name = (st.scope? id).bind Scope.name := by
    rw [scope?_relabel]
    cases st.scope? id <;> rfl
  induction id using Nat.strongRecOn with
  | ind id ih =>
    rw [Store.name, Store.name, hname, outer?_relabel]
    cases (st.scope? id).bind Scope.name with
    | some name => rfl
    | none =>
      cases st.outer? id with
      | none => rfl
      | some outer => exact congrArg ("child of " ++ ·) (ih outer.1 outer.2)

@[simp] theorem chain_relabel : (st.relabel f).chain id = st.chain id := by
  induction id using Nat.strongRecOn with
  | ind id ih =>
    rw [chain, chain, outer?_relabel]
    cases st.outer? id with
    | none => rfl
    | some outer => exact congrArg (id :: ·) (ih outer.1 outer.2)

@[simp] theorem identifiers_relabel : (st.relabel f).identifiers id = st.identifiers id := by
  simp [identifiers]

theorem add_relabel (scope : Scope) :
    (st.add scope).relabel f = (st.relabel f).add (scope.relabel f) := by
  simp [add, relabel]

theorem define_relabel (name : String) (value : Node) :
    (st.define id name value).relabel f = (st.relabel f).define id name (value.relabel f) := by
  rw [define, define, rebind, rebind, relabel, relabel]
  congr 1
  refine Array.ext_getElem? fun i ↦ ?_
  rw [Array.getElem?_map, Array.getElem?_modify, Array.getElem?_modify, Array.getElem?_map]
  split
  · rw [Option.map_map, Option.map_map]
    congr 1
    funext scope
    simp [Scope.relabel, Bindings.bind_relabel]
  · rfl

end Store

end MiniLisp
