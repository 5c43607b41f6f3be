import MiniLisp.Proofs.Scope.Chain
import MiniLisp.Proofs.Scope.Contents

/-!
# Names of macros

A lookup stops at the nearest scope that binds a name, and the listing of macros goes on to the end
of the chain. So every name that means a macro is listed. A name that is listed is bound to a macro
somewhere on the chain, and it may still mean something else that is bound further in: then it hides
the macro (`Store.HidesMacro`).

The listed names are those that mean a macro and those that hide one, which are never the same. So
the listing and the lookup agree about exactly the names that hide no macro
(`mem_transformerNames_iff_means`), and they do not agree about all
(`transformerNames_hidden`).
-/

namespace MiniLisp

namespace Store

variable {st : Store} {name : String} {id : ScopeId}

/-- A scope itself binds a name to a macro. -/
def BindsMacro (st : Store) (name : String) (id : ScopeId) : Prop :=
  ∃ value, (name, value) ∈ st.bindings id ∧ value.transformer?.isSome

/-- A name means a macro in a scope. -/
def MeansMacro (st : Store) (name : String) (id : ScopeId) : Prop :=
  ∃ value, st.get? name id = some value ∧ value.transformer?.isSome

/-- A name means something other than a macro in a scope, though some scope on the chain binds it to
one. -/
def HidesMacro (st : Store) (name : String) (id : ScopeId) : Prop :=
  (∃ value, st.get? name id = some value ∧ ¬ value.transformer?.isSome) ∧
    ∃ scope ∈ st.chain id, st.BindsMacro name scope

/-! ### The listing -/

theorem mem_macroNames {b : Bindings} :
    name ∈ macroNames b ↔ ∃ value, (name, value) ∈ b ∧ value.transformer?.isSome := by
  simp [macroNames, Bindings.names]

/-- A name is listed if a scope anywhere on the chain binds it to a macro. -/
theorem mem_transformerNames :
    name ∈ st.transformerNames id ↔ ∃ scope ∈ st.chain id, st.BindsMacro name scope := by
  simp only [transformerNames, List.mem_flatMap, mem_macroNames, BindsMacro]

/-! ### The lookup -/

theorem BindsMacro.binds (h : st.BindsMacro name id) : st.Binds name id := by
  obtain ⟨value, hmem, -⟩ := h
  exact List.mem_map_of_mem hmem

/-- A name that some scope on the chain binds has a meaning. -/
theorem exists_get?_of_binds {scope : ScopeId} (hscope : scope ∈ st.chain id)
    (h : st.Binds name scope) : ∃ value, st.get? name id = some value :=
  exists_get?_iff.mpr ⟨scope, hscope, h⟩

/-- What a name means is bound on the chain. -/
theorem exists_mem_bindings_of_get? {value : Node} (h : st.get? name id = some value) :
    ∃ owner ∈ st.chain id, (name, value) ∈ st.bindings owner := by
  rw [get?_eq] at h
  obtain ⟨owner, howner, hvalue⟩ := Option.bind_eq_some_iff.mp h
  exact ⟨owner, List.mem_of_find?_eq_some howner, Bindings.mem_of_find? hvalue⟩

theorem MeansMacro.exists_bindsMacro (h : st.MeansMacro name id) :
    ∃ scope ∈ st.chain id, st.BindsMacro name scope := by
  obtain ⟨value, hvalue, hmacro⟩ := h
  obtain ⟨owner, howner, hmem⟩ := exists_mem_bindings_of_get? hvalue
  exact ⟨owner, howner, value, hmem, hmacro⟩

/-- A name means one thing only. -/
theorem MeansMacro.not_hidesMacro (h : st.MeansMacro name id) : ¬ st.HidesMacro name id := by
  rintro ⟨⟨other, hother, hnot⟩, -⟩
  obtain ⟨value, hvalue, hmacro⟩ := h
  obtain rfl := Option.some.inj (hvalue.symm.trans hother)
  exact hnot hmacro

end Store

/-- **The listing of macros and the lookup agree about a name exactly where it hides no macro.** A
name is listed if it means a macro, and besides only if it hides one. -/
theorem mem_transformerNames_iff_means (st : Store) (name : String) (id : ScopeId) :
    (name ∈ st.transformerNames id ↔ st.MeansMacro name id ∨ st.HidesMacro name id) ∧
    ((name ∈ st.transformerNames id ↔ st.MeansMacro name id) ↔ ¬ st.HidesMacro name id) := by
  have hlisted : name ∈ st.transformerNames id ↔
      st.MeansMacro name id ∨ st.HidesMacro name id := by
    rw [Store.mem_transformerNames]
    constructor
    · rintro ⟨scope, hscope, hmacro⟩
      obtain ⟨value, hvalue⟩ := Store.exists_get?_of_binds hscope hmacro.binds
      by_cases h : value.transformer?.isSome
      · exact .inl ⟨value, hvalue, h⟩
      · exact .inr ⟨⟨value, hvalue, h⟩, scope, hscope, hmacro⟩
    · rintro (hmeans | ⟨-, hbound⟩)
      · exact hmeans.exists_bindsMacro
      · exact hbound
  refine ⟨hlisted, ?_⟩
  rw [hlisted]
  constructor
  · intro hagree hhides
    exact (hagree.mp (.inr hhides)).not_hidesMacro hhides
  · exact fun hnot ↦ or_iff_left hnot

/-- A number in the inner scope hides the macro in the outer one, whose name is still listed. -/
theorem transformerNames_hidden :
    let st : Store := ⟨#[
      ⟨none, none, [("m", .transformer 0 "m" "x" [.symbol "x" .nowhere] 0 .nowhere)]⟩,
      ⟨none, some 0, [("m", .number (.ofInt 1) .nowhere)]⟩]⟩
    st.get? "m" 1 = some (.number (.ofInt 1) .nowhere) ∧ "m" ∈ st.transformerNames 1 ∧
      ¬ ("m" ∈ st.transformerNames 1 ↔ st.MeansMacro "m" 1) := by
  intro st
  have hchain : st.chain 1 = [1, 0] := by
    simp [Store.chain, Store.outer?, Store.scope?, st]
  have hget : st.get? "m" 1 = some (.number (.ofInt 1) .nowhere) := by
    rw [Store.get?_eq, Store.nearest?, hchain]
    rfl
  have hlisted : "m" ∈ st.transformerNames 1 :=
    Store.mem_transformerNames.mpr
      ⟨0, by simp [hchain], _, List.mem_cons_self, rfl⟩
  refine ⟨hget, hlisted, fun hagree ↦ ?_⟩
  obtain ⟨value, hvalue, hmacro⟩ := hagree.mp hlisted
  obtain rfl := Option.some.inj (hvalue.symm.trans hget)
  cases hmacro

end MiniLisp
