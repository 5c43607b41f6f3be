import MiniLisp.Data.Tree
import MiniLisp.Proofs.Data.Copy

/-!
# The nested view and back

A nested view can have the same data as a leaf or as a list, but only one of the two is what the
view of a node gives: no leaf there is a proper list, the empty one included. Between these views
and nodes the two translations are inverse to each other (`toTree_toNode`): a view comes back as it
was, apart from the spans of its leaves, which carry no meaning, and a node as a copy of itself.
What is no proper list is never taken apart.
-/

namespace MiniLisp

namespace Tree

/-- Induction over trees: to all trees in a list. -/
@[induction_eliminator]
theorem induct {motive : Tree → Prop} (leaf : ∀ data, motive (.leaf data))
    (list : ∀ items, (∀ t ∈ items, motive t) → motive (.list items)) (t : Tree) : motive t :=
  @Tree.rec motive (fun items ↦ ∀ t ∈ items, motive t) leaf list
    (fun _ h ↦ absurd h List.not_mem_nil)
    (fun _ _ hfirst hrest _ h ↦ (List.mem_cons.1 h).elim (fun e ↦ e ▸ hfirst) (hrest _)) t

mutual

/-- The data in the leaves, from left to right. -/
def leaves : Tree → List Node
  | leaf n => [n]
  | list items => leavesOf items

/-- The data in the leaves of some trees. -/
def leavesOf : List Tree → List Node
  | [] => []
  | t :: ts => t.leaves ++ leavesOf ts

end

mutual

/-- The tree without the spans of its leaves. -/
def unplaced : Tree → Tree
  | leaf n => .leaf (n.withSpan .nowhere)
  | list items => .list (unplacedAll items)

def unplacedAll : List Tree → List Tree
  | [] => []
  | t :: ts => t.unplaced :: unplacedAll ts

end

theorem mem_leavesOf {items : List Tree} {data : Node} :
    data ∈ leavesOf items ↔ ∃ t ∈ items, data ∈ t.leaves := by
  induction items with
  | nil => simp [leavesOf]
  | cons t ts ih => simp [leavesOf, ih]

theorem unplacedAll_eq_map (items : List Tree) : unplacedAll items = items.map unplaced := by
  induction items with
  | nil => rw [unplacedAll]; rfl
  | cons t ts ih => rw [unplacedAll, ih]; rfl

end Tree

namespace Node

/-- A proper list is viewed element by element. -/
theorem toTree_of_some {n : Node} {items : List Node} (h : n.toList? = some items) :
    n.toTree = .list (items.map toTree) := by
  cases n with
  | atom a s =>
    cases a with
    | nil => cases h; rfl
    | _ => cases h
  | pair l a d s =>
    rw [toList?_pair] at h
    obtain ⟨rest, hrest, rfl⟩ := Option.map_eq_some_iff.mp h
    rw [toTree, toTrees?_eq, hrest]
    rfl
  | closure => cases h
  | transformer => cases h

/-- Everything else is kept whole. -/
theorem toTree_of_none {n : Node} (h : n.toList? = none) : n.toTree = .leaf n := by
  cases n with
  | atom a s =>
    cases a with
    | nil => cases h
    | _ => rfl
  | pair l a d s =>
    rw [toList?_pair, Option.map_eq_none_iff] at h
    rw [toTree, toTrees?_eq, h]
    rfl
  | closure => rfl
  | transformer => rfl

/-- Induction over nodes as nested lists: to the elements of a proper list. -/
theorem induct_list {motive : Node → Prop} (improper : ∀ n, n.toList? = none → motive n)
    (proper : ∀ n items, n.toList? = some items → (∀ item ∈ items, motive item) → motive n)
    (n : Node) : motive n := by
  have whole (m : Node) (h : ∀ items, m.toList? = some items → ∀ item ∈ items, motive item) :
      motive m := by
    cases hlist : m.toList? with
    | none => exact improper m hlist
    | some items => exact proper m items hlist (h items hlist)
  refine whole n ?_
  -- The rest of a list is none of its elements, so the induction is on what is known of those.
  induction n with
  | pair l a d s iha ihd =>
    intro items hitems
    rw [toList?_pair] at hitems
    obtain ⟨rest, hrest, rfl⟩ := Option.map_eq_some_iff.mp hitems
    exact List.forall_mem_cons.mpr ⟨whole a iha, ihd rest hrest⟩
  | atom a s =>
    cases a with
    | nil =>
      rintro _ ⟨⟩
      exact nofun
    | _ => exact nofun
  | closure => exact nofun
  | transformer => exact nofun

theorem self_mem_parts (n : Node) : n ∈ n.parts := by
  cases n <;> exact List.mem_cons_self

/-- What occurs in an element of a list occurs in the list. -/
theorem parts_subset_of_toList? {n item : Node} {items : List Node} (h : n.toList? = some items)
    (hitem : item ∈ items) : item.parts ⊆ n.parts := by
  induction items generalizing n with
  | nil => exact absurd hitem List.not_mem_nil
  | cons first rest ih =>
    obtain ⟨l, cdr, s, rfl, hcdr⟩ := exists_pair_of_toList? h
    intro part hpart
    refine List.mem_cons_of_mem _ (List.mem_append.mpr ?_)
    rcases List.mem_cons.mp hitem with rfl | hrest
    · exact .inl hpart
    · exact .inr (ih hcdr hrest hpart)

/-- The leaves of a view are nodes that occur in the node viewed, and no proper lists. -/
theorem leaves_toTree (n : Node) :
    ∀ data ∈ n.toTree.leaves, data ∈ n.parts ∧ data.toList? = none := by
  induction n using induct_list with
  | improper n hnone =>
    rw [toTree_of_none hnone, Tree.leaves, List.forall_mem_singleton]
    exact ⟨n.self_mem_parts, hnone⟩
  | proper n items hsome ih =>
    rw [toTree_of_some hsome, Tree.leaves]
    intro data hdata
    obtain ⟨t, ht, hdata⟩ := Tree.mem_leavesOf.mp hdata
    obtain ⟨item, hitem, rfl⟩ := List.mem_map.mp ht
    obtain ⟨hpart, hnone⟩ := ih item hitem data hdata
    exact ⟨parts_subset_of_toList? hsome hitem hpart, hnone⟩

/-- A list of copies is a copy of the list. -/
theorem Copy.ofList_map {f : Node → Node} {items : List Node} (s : Span)
    (h : ∀ item ∈ items, (f item).Copy item) {n : Node} (hn : n.toList? = some items) :
    (Node.ofList (items.map f) s).Copy n := by
  induction items generalizing n with
  | nil =>
    obtain ⟨s', rfl⟩ := eq_nil_of_toList? hn
    exact .atom
  | cons first rest ih =>
    obtain ⟨hfirst, hrest⟩ := List.forall_mem_cons.mp h
    obtain ⟨l, cdr, s', rfl, hcdr⟩ := exists_pair_of_toList? hn
    exact .pair hfirst ((withSpan _ s).symm.trans (ih hrest hcdr))

/-- A node is built again from its view. -/
theorem copy_toNode (n : Node) : n.toTree.toNode.Copy n := by
  induction n using induct_list with
  | improper n hnone =>
    rw [toTree_of_none hnone, Tree.toNode]
    exact .withSpan n .nowhere
  | proper n items hsome ih =>
    rw [toTree_of_some hsome, Tree.toNode, Tree.toNodes_eq_map, List.map_map]
    exact .ofList_map .nowhere ih hsome

end Node

/-- A view of which no leaf is a proper list is viewed again as it was. -/
theorem Tree.toTree_toNode_eq {t : Tree} (h : ∀ data ∈ t.leaves, data.toList? = none) :
    t.toNode.toTree = t.unplaced := by
  induction t with
  | leaf data =>
    have hnone : (data.withSpan .nowhere).toList? = none := by
      rw [Node.toList?_withSpan, h data List.mem_cons_self]
    exact Node.toTree_of_none hnone
  | list items ih =>
    have hitems : (items.map toNode).map Node.toTree = items.map unplaced := by
      rw [List.map_map]
      exact List.map_congr_left fun t ht ↦ ih t ht fun data hdata ↦
        h data (mem_leavesOf.mpr ⟨t, ht, hdata⟩)
    rw [toNode, toNodes_eq_map, Node.toTree_of_some (Node.toList?_ofList _ _), hitems, unplaced,
      unplacedAll_eq_map]

/-- **Views and nodes are the same thing.** A nested view without proper lists in its leaves is the
view of the node that is built from it. The view of any node is such a view, and the node that is
built from it is a copy of the first one. What is no proper list is kept whole, so the leaves of the
view occur in the node as they are. -/
theorem toTree_toNode :
    (∀ t : Tree, (∀ data ∈ t.leaves, data.toList? = none) → t.toNode.toTree = t.unplaced) ∧
    ∀ n : Node, n.toTree.toNode.Copy n ∧
      (∀ data ∈ n.toTree.leaves, data ∈ n.parts ∧ data.toList? = none) ∧
      (n.toList? = none → n.toTree = .leaf n) :=
  ⟨fun _ h ↦ Tree.toTree_toNode_eq h,
    fun n ↦ ⟨n.copy_toNode, n.leaves_toTree, Node.toTree_of_none⟩⟩

/-- Lists of different depths, the empty list, and a dotted list that has a proper one in it. -/
theorem toTree_toNode_nested :
    let one : Node := .number (.integer 1) .nowhere
    let dotted : Node := .pair none (.ofList [one, one] .nowhere) one .nowhere
    let t : Tree := .list [.list [.leaf one], .leaf one, .list [], .leaf dotted,
      .list [.leaf one, .list [.list [.leaf one, .leaf dotted], .leaf one]]]
    (∀ data ∈ t.leaves, data.toList? = none) ∧ t.toNode.toTree = t ∧
      dotted.toList? = none ∧ dotted.toTree = .leaf dotted ∧ dotted.toTree.toNode.Copy dotted := by
  intro one dotted t
  have hdotted : dotted.toList? = none := rfl
  have hleaves : ∀ data ∈ t.leaves, data.toList? = none := by
    intro data hdata
    have hdata : data ∈ [one, one, dotted, one, one, dotted, one] := hdata
    simp only [List.mem_cons, List.not_mem_nil, or_false] at hdata
    rcases hdata with rfl | rfl | rfl | rfl | rfl | rfl | rfl <;> rfl
  obtain ⟨hview, hnode⟩ := toTree_toNode
  exact ⟨hleaves, hview t hleaves, hdotted, (hnode dotted).2.2 hdotted, (hnode dotted).1⟩

end MiniLisp
