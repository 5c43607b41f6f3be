import MiniLisp.Data.Node

/-!
# Parts of a node

All nodes that occur in a node (`Node.parts`): the node itself, the parts of a pair, and the forms
in the bodies of procedures and macros, at any depth. What a node can lead to is found there. A
procedure or a macro among the parts leads to the scope it was made in (`Node.home?`), and a label
among them stands for the identity of a part (`Node.label?`).
-/

namespace MiniLisp

/-- A native that does one of the built-in operations, whatever its name. -/
def Native.IsBuiltin (p : Native) : Prop := ∃ operation, p.operation = .builtin operation

theorem Builtin.isBuiltin_native (b : Builtin) : b.native.IsBuiltin := ⟨b, rfl⟩

namespace Node

mutual

/-- The node itself and all nodes that occur in it. -/
def parts : Node → List Node
  | atom value span => [.atom value span]
  | pair label car cdr span => .pair label car cdr span :: (parts car ++ parts cdr)
  | closure label name params body scope span =>
    .closure label name params body scope span :: partsOf body
  | transformer label name param body scope span =>
    .transformer label name param body scope span :: partsOf body

/-- All nodes that occur in some nodes. -/
def partsOf : List Node → List Node
  | [] => []
  | n :: rest => parts n ++ partsOf rest

end

/-- The scope that a procedure or a macro was made in. -/
def home? : Node → Option ScopeId
  | closure _ _ _ _ scope _ => some scope
  | transformer _ _ _ _ scope _ => some scope
  | _ => none

/-- The label of a node, if it has one. -/
def label? : Node → Option Label
  | atom _ _ => none
  | pair label _ _ _ => label
  | closure label _ _ _ _ _ => some label
  | transformer label _ _ _ _ _ => some label

/-- The native procedure in a node. -/
def native? : Node → Option Native
  | atom (.native p) _ => some p
  | _ => none

theorem mem_partsOf {body : List Node} {form part : Node} (hform : form ∈ body)
    (hpart : part ∈ form.parts) : part ∈ partsOf body := by
  induction body with
  | nil => exact absurd hform List.not_mem_nil
  | cons first rest ih =>
    rw [partsOf, List.mem_append]
    rcases List.mem_cons.mp hform with rfl | hrest
    · exact .inl hpart
    · exact .inr (ih hrest)

theorem exists_form_of_mem_partsOf {body : List Node} {part : Node} (h : part ∈ partsOf body) :
    ∃ form ∈ body, part ∈ form.parts := by
  induction body with
  | nil => exact absurd h List.not_mem_nil
  | cons first rest ih =>
    rcases List.mem_append.mp h with hfirst | hrest
    · exact ⟨first, List.mem_cons_self, hfirst⟩
    · obtain ⟨form, hform, hpart⟩ := ih hrest
      exact ⟨form, List.mem_cons_of_mem _ hform, hpart⟩

section

variable {P : Node → Prop}

theorem forall_parts_pair {label : Option Label} {car cdr : Node} {span : Span}
    (h : ∀ part ∈ (Node.pair label car cdr span).parts, P part) :
    P (.pair label car cdr span) ∧ (∀ part ∈ car.parts, P part) ∧ ∀ part ∈ cdr.parts, P part := by
  obtain ⟨hself, hparts⟩ := List.forall_mem_cons.mp h
  obtain ⟨hcar, hcdr⟩ := List.forall_mem_append.mp hparts
  exact ⟨hself, hcar, hcdr⟩

theorem forall_parts_form {body : List Node} (h : ∀ part ∈ partsOf body, P part) {form : Node}
    (hform : form ∈ body) : ∀ part ∈ form.parts, P part :=
  fun part hpart ↦ h part (mem_partsOf hform hpart)

end

end Node

end MiniLisp
