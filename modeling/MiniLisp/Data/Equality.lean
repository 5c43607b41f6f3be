import MiniLisp.Data.List

/-!
# Equality of data

Two nodes are the same when they hold the same data, wherever it came from: spans do not count,
numbers compare by value, and procedures and macros are only the same as themselves. A pair is the
same as itself without a look at its parts, which can be seen where a part is a number that is not
equal to itself.
-/

namespace MiniLisp

/-- The labels are given and agree. -/
def sameLabel : Option Label → Option Label → Bool
  | some l, some m => l == m
  | _, _ => false

namespace Node

/-- Equality of data. -/
def same : Node → Node → Bool
  | atom a _, atom b _ => a.same b
  | pair l a d _, pair m b e _ => sameLabel l m || (a.same b && d.same e)
  | closure l .., closure m .. => l == m
  | transformer l .., transformer m .. => l == m
  | _, _ => false

/-- Identity: pairs by their labels, and all else by equality of data. -/
def identical : Node → Node → Bool
  | pair l .., pair m .. => sameLabel l m
  | a, b => a.same b

/-- Equality of lists of data. -/
def sameAll : List Node → List Node → Bool
  | [], [] => true
  | a :: as, b :: bs => a.same b && sameAll as bs
  | _, _ => false

/-- Equality does not see the span of a node. -/
@[simp] theorem same_withSpan_left (a b : Node) (s : Span) : (a.withSpan s).same b = a.same b := by
  cases a <;> cases b <;> simp [withSpan, same]

/-- What is identical is the same. -/
theorem same_of_identical {a b : Node} (h : a.identical b = true) : a.same b = true := by
  cases a with
  | pair l a d s =>
    cases b with
    | pair m b e t =>
      have h : sameLabel l m = true := h
      simp [same, h]
    | _ => exact h
  | _ => exact h

end Node

end MiniLisp
