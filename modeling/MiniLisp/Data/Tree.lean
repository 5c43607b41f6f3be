import MiniLisp.Data.Equality

/-!
# Trees

The nested view of data: a proper list is a list of trees, and everything else, a list with another
end included, is kept whole as a leaf. The span of the node in a leaf carries no meaning.
-/

namespace MiniLisp

/-- Data as nested lists. -/
inductive Tree where
  | leaf (data : Node)
  | list (items : List Tree)

namespace Tree

mutual

/-- The node with a nested view. What is built has no place in any text. -/
def toNode : Tree → Node
  | leaf n => n.withSpan .nowhere
  | list items => .ofList (toNodes items) .nowhere

/-- The nodes with given nested views. -/
def toNodes : List Tree → List Node
  | [] => []
  | t :: ts => t.toNode :: toNodes ts

end

mutual

/-- Equality of nested views. -/
def same : Tree → Tree → Bool
  | leaf a, leaf b => a.same b
  | list as, list bs => sameAll as bs
  | _, _ => false

/-- Equality of lists of nested views. -/
def sameAll : List Tree → List Tree → Bool
  | [], [] => true
  | a :: as, b :: bs => a.same b && sameAll as bs
  | _, _ => false

end

@[simp] theorem toNodes_eq_map (ts : List Tree) : toNodes ts = ts.map toNode := by
  induction ts with
  | nil => rw [toNodes]; rfl
  | cons t ts ih => rw [toNodes, ih]; rfl

end Tree

namespace Node

mutual

/-- The nested view of a node. -/
def toTree : Node → Tree
  | pair l a d s => match toTrees? d with
    | some ts => .list (toTree a :: ts)
    | none => .leaf (.pair l a d s)
  | atom .nil _ => .list []
  | n => .leaf n

/-- The nested views of the elements of a proper list. -/
def toTrees? : Node → Option (List Tree)
  | pair _ a d _ => match toTrees? d with
    | some ts => some (toTree a :: ts)
    | none => none
  | atom .nil _ => some []
  | _ => none

end

/-- The nested views of the elements are those of the list taken apart. -/
theorem toTrees?_eq (n : Node) : n.toTrees? = n.toList?.map (List.map toTree) := by
  induction n with
  | atom a s => cases a <;> rfl
  | pair l a d s _ ihd =>
    rw [toTrees?, ihd, toList?_pair]
    cases d.toList? <;> rfl
  | closure => rfl
  | transformer => rfl

end Node

end MiniLisp
