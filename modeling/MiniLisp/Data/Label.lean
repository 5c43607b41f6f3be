import MiniLisp.Data.List

/-!
# Giving labels

Pairs that have no label yet get one before they take part in evaluation (`Node.adopt`): those of a
form when its evaluation begins, and those of a list when it is made. A pair with a label was
adopted before, and so were its parts, so it is left alone; adopting a node twice changes nothing
(`adopt_adopt`).

The chain of a list is gone through in one loop, as lists may be long.
-/

namespace MiniLisp.Node

/-- The first parts of a chain, the last one first, put back in front of a node. -/
def unread (read : List (Label × Node × Span)) (tail : Node) : Node :=
  read.foldl (fun d cell ↦ .pair (some cell.1) cell.2.1 d cell.2.2) tail

/-- Gives labels to the pairs of a node, the first of them `next`, behind a chain that is already
labelled. Also gives the next label. -/
def adoptOnto (read : List (Label × Node × Span)) : Node → Label → Node × Label
  | pair none a d s, next =>
    let car := adoptOnto [] a (next + 1)
    adoptOnto ((next, car.1, s) :: read) d car.2
  | n, next => (unread read n, next)

/-- The node with labels on all its pairs. Labels are given from `next` on, from left to right; the
first label that was not needed is given too. -/
def adopt (n : Node) (next : Label) : Node × Label := adoptOnto [] n next

theorem adoptOnto_eq (n : Node) : ∀ (read : List (Label × Node × Span)) (next : Label),
    n.adoptOnto read next = (unread read (n.adopt next).1, (n.adopt next).2) := by
  induction n with
  | atom => intro read next; rfl
  | pair l a d s _ ihd =>
    intro read next
    cases l with
    | none =>
      rw [adopt, adoptOnto, adoptOnto, ihd, ihd [_]]
      rfl
    | some l => rfl
  | closure => intro read next; rfl
  | transformer => intro read next; rfl

@[simp] theorem adopt_atom (a : Atom) (s : Span) (next : Label) :
    (Node.atom a s).adopt next = (.atom a s, next) := rfl

/-- A new pair takes the next label, then its parts are adopted. -/
theorem adopt_new (a d : Node) (s : Span) (next : Label) :
    (Node.pair none a d s).adopt next =
      (.pair (some next) (a.adopt (next + 1)).1 (d.adopt (a.adopt (next + 1)).2).1 s,
        (d.adopt (a.adopt (next + 1)).2).2) := by
  rw [adopt, adoptOnto, adoptOnto_eq]
  rfl

@[simp] theorem adopt_old (l : Label) (a d : Node) (s : Span) (next : Label) :
    (Node.pair (some l) a d s).adopt next = (.pair (some l) a d s, next) := rfl

@[simp] theorem adopt_closure (l : Label) (name : Option String) (params : Params)
    (body : List Node) (scope : ScopeId) (s : Span) (next : Label) :
    (Node.closure l name params body scope s).adopt next =
      (.closure l name params body scope s, next) := rfl

@[simp] theorem adopt_transformer (l : Label) (name param : String) (body : List Node)
    (scope : ScopeId) (s : Span) (next : Label) :
    (Node.transformer l name param body scope s).adopt next =
      (.transformer l name param body scope s, next) := rfl

/-- No label is given that was given before. -/
theorem le_adopt (n : Node) (next : Label) : next ≤ (n.adopt next).2 := by
  induction n generalizing next with
  | atom => exact Nat.le_refl _
  | pair l a d s iha ihd =>
    cases l with
    | none =>
      rw [adopt_new]
      exact Nat.le_trans (Nat.le_of_lt (iha (next + 1))) (ihd _)
    | some l => exact Nat.le_refl _
  | closure => exact Nat.le_refl _
  | transformer => exact Nat.le_refl _

/-- What is adopted already stays as it is. -/
theorem adopt_adopt (n : Node) (next later : Label) :
    (n.adopt next).1.adopt later = ((n.adopt next).1, later) := by
  cases n with
  | pair l a d s => cases l <;> simp [adopt_new]
  | _ => rfl

@[simp] theorem span_adopt (n : Node) (next : Label) : (n.adopt next).1.span = n.span := by
  cases n with
  | pair l a d s => cases l <;> simp [adopt_new, span]
  | _ => rfl

/-- The elements of a list are adopted one after the other, and none is lost. -/
theorem length_toList?_adopt (n : Node) (next : Label) :
    ((n.adopt next).1.toList?).map List.length = n.toList?.map List.length := by
  induction n generalizing next with
  | atom => rfl
  | pair l a d s _ ihd =>
    cases l with
    | none =>
      rw [adopt_new, toList?_pair, toList?_pair, Option.map_map, Option.map_map]
      have h := ihd (a.adopt (next + 1)).2
      revert h
      cases d.toList? <;> cases ((d.adopt (a.adopt (next + 1)).2).1).toList? <;> simp
    | some l => rfl
  | closure => rfl
  | transformer => rfl

end MiniLisp.Node
