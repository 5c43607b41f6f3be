import MiniLisp.Data.Equality
import MiniLisp.Data.Label
import MiniLisp.Data.Printer
import MiniLisp.Proofs.Data.Parts

/-!
# Copies

One node is a copy of another if it is put together in the same way from the same atoms, procedures
and macros (`Node.Copy`). Spans and the labels of pairs may differ. They do where pairs are made
anew, and neither adopting a node nor giving it another span makes anything but a copy.

A copy is the same data, as far as that can be told: it is written alike, and a number that is not
equal to itself is not equal to its copy either (`Node.Copy.same`).
-/

namespace MiniLisp.Node

/-- The node is a copy of another one. -/
inductive Copy : Node → Node → Prop
  | atom {a : Atom} {s s' : Span} : Copy (.atom a s) (.atom a s')
  | pair {l l' : Option Label} {a a' d d' : Node} {s s' : Span} (ha : Copy a a') (hd : Copy d d') :
      Copy (.pair l a d s) (.pair l' a' d' s')
  | closure {l : Label} {name : Option String} {params : Params} {body : List Node}
      {scope : ScopeId} {s s' : Span} :
      Copy (.closure l name params body scope s) (.closure l name params body scope s')
  | transformer {l : Label} {name param : String} {body : List Node} {scope : ScopeId}
      {s s' : Span} :
      Copy (.transformer l name param body scope s) (.transformer l name param body scope s')

namespace Copy

variable {n n' n'' : Node} {s : Span}

theorem refl (n : Node) : n.Copy n := by
  induction n with
  | atom => exact .atom
  | pair l a d s iha ihd => exact .pair iha ihd
  | closure => exact .closure
  | transformer => exact .transformer

theorem symm (h : n.Copy n') : n'.Copy n := by
  induction h with
  | atom => exact .atom
  | pair _ _ iha ihd => exact .pair iha ihd
  | closure => exact .closure
  | transformer => exact .transformer

theorem trans (h : n.Copy n') (h' : n'.Copy n'') : n.Copy n'' := by
  induction h generalizing n'' with
  | atom => cases h'; exact .atom
  | pair _ _ iha ihd =>
    cases h' with
    | pair ha hd => exact .pair (iha ha) (ihd hd)
  | closure => cases h'; exact .closure
  | transformer => cases h'; exact .transformer

theorem withSpan (n : Node) (s : Span) : (n.withSpan s).Copy n := by
  cases n with
  | atom => exact .atom
  | pair => exact .pair (refl _) (refl _)
  | closure => exact .closure
  | transformer => exact .transformer

theorem adopt (n : Node) (next : Label) : (n.adopt next).1.Copy n := by
  induction n generalizing next with
  | pair l a d s iha ihd =>
    cases l with
    | none =>
      rw [adopt_new]
      exact .pair (iha _) (ihd _)
    | some l => exact refl _
  | _ => exact refl _

theorem chain (stop stop' : Nat) (items : List Node) (h : n.Copy n') :
    (chain stop items n).Copy (chain stop' items n') := by
  induction items with
  | nil => exact h
  | cons item items ih => exact .pair (refl item) ih

/-- With a copy of the tail, a list is a copy of the list. -/
theorem listWithTail (items : List Node) (h : n.Copy n') (s s' : Span) :
    (listWithTail items n s).Copy (listWithTail items n' s') :=
  (withSpan _ s).trans ((chain s.stop s'.stop items h).trans (withSpan _ s').symm)

/-- Elements may be put in front of a tail in one go or in several. -/
theorem listWithTail_append (items items' : List Node) (h : n.Copy (Node.listWithTail items' n' s))
    (s' s'' : Span) :
    (Node.listWithTail items n s').Copy (Node.listWithTail (items ++ items') n' s'') := by
  have hrest : n.Copy (Node.chain s''.stop items' n') :=
    h.trans ((withSpan _ s).trans (chain _ _ items' (refl n')))
  have happend : Node.listWithTail (items ++ items') n' s'' =
      Node.listWithTail items (Node.chain s''.stop items' n') s'' :=
    congrArg (Node.withSpan · s'') List.foldr_append
  exact happend ▸ listWithTail items hrest s' s''

theorem car? (h : n.Copy n') {a : Node} (ha : n.car? = some a) :
    ∃ a', n'.car? = some a' ∧ a.Copy a' := by
  cases h with
  | pair hcar _ => cases ha; exact ⟨_, rfl, hcar⟩
  | _ => cases ha

theorem cdr? (h : n.Copy n') {d : Node} (hd : n.cdr? = some d) :
    ∃ d', n'.cdr? = some d' ∧ d.Copy d' := by
  cases h with
  | pair _ hcdr => cases hd; exact ⟨_, rfl, hcdr⟩
  | _ => cases hd

theorem symbol? (h : n.Copy n') : n.symbol? = n'.symbol? := by
  cases h with
  | @atom a => cases a <;> rfl
  | _ => rfl

theorem texts (h : n.Copy n') : n.text = n'.text ∧ n.restText = n'.restText := by
  induction h with
  | @atom a => exact ⟨rfl, by cases a <;> rfl⟩
  | pair _ _ iha ihd =>
    rw [text_pair, text_pair, restText_pair, restText_pair, iha.1, ihd.2]
    exact ⟨rfl, rfl⟩
  | @closure _ name => cases name <;> exact ⟨rfl, rfl⟩
  | transformer => exact ⟨rfl, rfl⟩

/-- A copy is written in the same way. -/
theorem text (h : n.Copy n') : n.text = n'.text := h.texts.1

/-- **A copy is the same data**, given that all numbers in it are equal to themselves. -/
theorem same (h : n.Copy n')
    (hnumbers : ∀ part ∈ n.parts, ∀ x, part.number? = some x → x.same x = true) :
    n.same n' = true := by
  induction h with
  | @atom a s s' =>
    cases a with
    | number x => exact hnumbers _ List.mem_cons_self x rfl
    | nil => rfl
    | undefined => rfl
    | _ => exact beq_self_eq_true _
  | pair _ _ iha ihd =>
    obtain ⟨-, ha, hd⟩ := forall_parts_pair hnumbers
    rw [Node.same, iha ha, ihd hd, Bool.and_self, Bool.or_true]
  | closure => exact beq_self_eq_true _
  | transformer => exact beq_self_eq_true _

end Copy

end MiniLisp.Node
