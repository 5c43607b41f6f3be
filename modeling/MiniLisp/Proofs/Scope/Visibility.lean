import MiniLisp.Proofs.Scope.Walk

/-!
# Visible names

There are three ways to ask for a name in a scope: for what it means there, for whether it means
anything, and for all the names that can be seen. The first two go outwards until the name is found.
The third one goes all the way and puts the names of all scopes together.

They agree about every name, and what a name means is what it is bound to in the first scope
outwards that binds it itself (`Store.Innermost`), however often it is bound beyond that. This is
so in every store whose links lead to older scopes, and whether the three ways are taken along the
chain of a scope or along the bare links (`Store.Linked.visible_iff`).
-/

namespace MiniLisp

namespace Store

variable {st : Store} {name : String} {id owner : ScopeId}

/-! ### The innermost scope that binds a name -/

/-- On the way outwards from the first scope, the second one is the first that binds the name
itself. -/
inductive Innermost (st : Store) (name : String) : ScopeId → ScopeId → Prop
  | own {id : ScopeId} (h : st.Binds name id) : Innermost st name id id
  | outward {id outer owner : ScopeId} (h : ¬ st.Binds name id) (hlink : st.StandsIn id outer)
      (howner : Innermost st name outer owner) : Innermost st name id owner

theorem Linked.nearest?_of_standsIn (h : st.Linked) {outer : ScopeId} (hlink : st.StandsIn id outer)
    (hnot : ¬ st.Binds name id) : st.nearest? name id = st.nearest? name outer := by
  obtain ⟨scope, hscope, houter⟩ := hlink
  have hfound : st.outer? id = some ⟨outer, h id scope hscope outer houter⟩ :=
    outer?_eq_some_iff.mpr ⟨scope, hscope, houter⟩
  exact nearest?_of_outer? hfound hnot

/-- In a linked store, the nearest scope of a name is the innermost one that binds it. -/
theorem Linked.nearest?_eq_some_iff (h : st.Linked) :
    st.nearest? name id = some owner ↔ st.Innermost name id owner := by
  constructor
  · intro hnearest
    induction id using chain.induct with
    | case1 id ih =>
      by_cases hbinds : st.Binds name id
      · rw [nearest?_of_binds hbinds] at hnearest
        obtain rfl := Option.some.inj hnearest
        exact .own hbinds
      · cases houter : st.outer? id with
        | none =>
          rw [nearest?_of_outermost houter hbinds] at hnearest
          cases hnearest
        | some outer =>
          have hlink : st.StandsIn id outer := outer?_eq_some_iff.mp houter
          rw [nearest?_of_outer? houter hbinds] at hnearest
          exact .outward hbinds hlink (ih outer.1 outer.2 hnearest)
  · intro hinnermost
    induction hinnermost with
    | own hbinds => exact nearest?_of_binds hbinds
    | outward hnot hlink _ ih => exact (h.nearest?_of_standsIn hlink hnot).trans ih

/-! ### The three ways to ask -/

theorem isBound_iff_exists_get? :
    st.isBound name id = true ↔ ∃ value, st.get? name id = some value := by
  rw [isBound, get?, ← Option.isSome_map, Option.isSome_iff_exists]

theorem mem_identifiers_iff :
    name ∈ st.identifiers id ↔ ∃ scope ∈ st.chain id, st.Binds name scope :=
  List.mem_flatMap

/-- A name means what it is bound to in the innermost scope that binds it. -/
theorem Linked.get?_eq_some_iff (h : st.Linked) {value : Node} :
    st.get? name id = some value ↔
      ∃ owner, st.Innermost name id owner ∧
        Bindings.find? name (st.bindings owner) = some value := by
  rw [get?_eq, Option.bind_eq_some_iff]
  exact exists_congr fun owner ↦ and_congr_left' h.nearest?_eq_some_iff

/-- A walk that only asks whether a scope has the name among its own. -/
theorem Linked.search?_names (h : st.Linked) (name : String) {steps : Nat} (hid : id < st.next)
    (hsteps : id < steps) :
    (st.search? (fun _ b ↦ if name ∈ Bindings.names b then some () else none) steps id).map
      Option.isSome = some (st.isBound name id) := by
  have hown (b : Bindings) : (if name ∈ Bindings.names b then some () else none) =
      (Bindings.find? name b).map fun _ ↦ () := by
    simp only [← Bindings.find?_isSome_iff]
    cases Bindings.find? name b <;> rfl
  simp only [hown]
  rw [h.search?_eq _ hid hsteps, ← map_resolve? st name id fun _ ↦ (), Option.map_some,
    Option.isSome_map, isBound]

end Store

/-- **Visibility is one notion.** Let the links in a store lead to older scopes. In each scope, a
name has a meaning exactly when it is said to be bound, and exactly when it is among the visible
names. What it means is what it is bound to in the innermost scope that binds it itself. Walks along
the bare links come to the same: two that stop at the first scope with the name, for its meaning or
only for its being there, and one that puts the names of all scopes together. -/
theorem Store.Linked.visible_iff {st : Store} (h : st.Linked) (name : String) (id : ScopeId) :
    ((∃ value, st.get? name id = some value) ↔ st.isBound name id = true) ∧
    (st.isBound name id = true ↔ name ∈ st.identifiers id) ∧
    (∀ value, st.get? name id = some value ↔
      ∃ owner, st.Innermost name id owner ∧
        Bindings.find? name (st.bindings owner) = some value) ∧
    (id < st.next → ∀ steps, id < steps →
      st.search? (fun _ b ↦ Bindings.find? name b) steps id = some (st.get? name id) ∧
      (st.search? (fun _ b ↦ if name ∈ Bindings.names b then some () else none) steps id).map
        Option.isSome = some (st.isBound name id) ∧
      st.gather? Bindings.names steps id = some (st.identifiers id)) := by
  refine ⟨isBound_iff_exists_get?.symm, ?_, fun value ↦ h.get?_eq_some_iff,
    fun hid steps hsteps ↦ ⟨?_, h.search?_names name hid hsteps, h.gather?_eq _ hid hsteps⟩⟩
  · rw [isBound_iff_exists_get?, exists_get?_iff, mem_identifiers_iff]
  · rw [h.search?_eq _ hid hsteps, get?, map_resolve?]
    simp only [Option.map_id']

/-- The middle one of three scopes binds `x` anew, and that is what the inner one sees. It sees `y`
of the outer one as well. -/
theorem Store.Linked.visible_iff_shadowed :
    let outermost : Scope :=
      ⟨none, none, [("x", .boolean false .nowhere), ("y", .nil .nowhere)]⟩
    let middle : Scope := ⟨none, some 0, [("x", .boolean true .nowhere)]⟩
    let st : Store := ((empty.add outermost).add middle).add ⟨none, some 1, []⟩
    st.Linked ∧ st.get? "x" 2 = some (.boolean true .nowhere) ∧ st.isBound "x" 2 = true ∧
      "x" ∈ st.identifiers 2 ∧ st.get? "y" 2 = some (.nil .nowhere) := by
  intro outermost middle st
  have hlinked : st.Linked := by
    refine ((linked_empty.add ?_).add ?_).add ?_
    · rintro outer ⟨⟩
    · rintro outer ⟨⟩
      decide
    · rintro outer ⟨⟩
      decide
  have hinner : st.StandsIn 2 1 := ⟨_, rfl, rfl⟩
  have hmiddle : st.StandsIn 1 0 := ⟨_, rfl, rfl⟩
  have hx : st.Innermost "x" 2 1 := .outward (by decide) hinner (.own (by decide))
  have hy : st.Innermost "y" 2 0 :=
    .outward (by decide) hinner (.outward (by decide) hmiddle (.own (by decide)))
  obtain ⟨hmeant, hbound, hget, -⟩ := hlinked.visible_iff "x" 2
  have hvalue : st.get? "x" 2 = some (.boolean true .nowhere) := (hget _).mpr ⟨1, hx, rfl⟩
  have hx' := hmeant.mp ⟨_, hvalue⟩
  exact ⟨hlinked, hvalue, hx', hbound.mp hx',
    ((hlinked.visible_iff "y" 2).2.2.1 _).mpr ⟨0, hy, rfl⟩⟩

end MiniLisp
