import MiniLisp.Scope.Store

/-!
# The global scope

A global scope binds `nil` to the empty list and each built-in operation to its name. Nothing in it
was read from any text.
-/

namespace MiniLisp

/-- The name of a scope that stands in no other. -/
def globalName : String := "global"

/-- The bindings of a fresh global scope. -/
def globalBindings : Bindings :=
  ("nil", .nil .nowhere) :: Builtin.all.map fun b ↦ (b.name, .atom (.native b.native) .nowhere)

namespace Scope

/-- A scope without bindings that stands in no other. -/
def outermost (name : String) : Scope := ⟨some name, none, []⟩

/-- A fresh global scope. -/
def global : Scope := ⟨some globalName, none, globalBindings⟩

end Scope

end MiniLisp
