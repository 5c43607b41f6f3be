import MiniLisp.Data.Node

/-!
# Lists

A list is a chain of pairs through their second parts. It is *proper* if the chain ends in the empty
list. Taking a proper list apart gives the elements it was made of (`toList?_ofList`).

Each inner pair of a list spans from its element to the end of the whole list, and the empty list at
its end has the empty span there.
-/

namespace MiniLisp.Node

/-- The elements of a chain put in front of those already collected, in reverse. -/
def toListOnto (read : List Node) : Node → Option (List Node)
  | atom .nil _ => some read.reverse
  | pair _ a d _ => toListOnto (a :: read) d
  | _ => none

/-- The elements of a proper list. -/
def toList? (n : Node) : Option (List Node) := toListOnto [] n

/-- The chain of some elements in front of a node, in a list that ends at the offset `stop`. -/
def chain (stop : Nat) (items : List Node) (tail : Node) : Node :=
  items.foldr (fun a d ↦ .pair none a d ⟨a.span.start, max stop d.span.stop⟩) tail

/-- One more element in front of a chain is a pair that reaches as far as the list and the chain. -/
theorem chain_cons (stop : Nat) (a : Node) (items : List Node) (tail : Node) :
    chain stop (a :: items) tail = .pair none a (chain stop items tail)
      ⟨a.span.start, max stop (chain stop items tail).span.stop⟩ := rfl

/-- The list of some elements with a tail, as a whole of a given span. -/
def listWithTail (items : List Node) (tail : Node) (span : Span) : Node :=
  (chain span.stop items tail).withSpan span

/-- The proper list of some elements. -/
def ofList (items : List Node) (span : Span) : Node :=
  listWithTail items (.nil (.at_ span.stop)) span

/-- The list of a symbol and one node, such as `(quote x)`. The symbol takes the span of the mark
that stands for it. -/
def tagged (name : String) (mark : Span) (n : Node) : Node :=
  ofList [.symbol name mark, n] (mark.merge n.span)

/-- The quotation of a node. -/
def quoted (mark : Span) (n : Node) : Node := tagged "quote" mark n

/-! ### Elements -/

theorem toListOnto_eq (read : List Node) (n : Node) :
    n.toListOnto read = n.toList?.map (read.reverse ++ ·) := by
  suffices h : ∀ m : Node, ∀ r s : List Node,
      m.toListOnto (r ++ s) = (m.toListOnto r).map (s.reverse ++ ·) by
    exact h n [] read
  intro m
  induction m with
  | atom a sp => intro r s; cases a <;> simp [toListOnto]
  | pair l a d sp _ ih => intro r s; exact ih (a :: r) s
  | closure => intro r s; rfl
  | transformer => intro r s; rfl

@[simp] theorem toList?_nil (s : Span) : (Node.atom .nil s).toList? = some [] := rfl

@[simp] theorem toList?_pair (l : Option Label) (a d : Node) (s : Span) :
    (Node.pair l a d s).toList? = d.toList?.map (a :: ·) := by
  show d.toListOnto [a] = _
  rw [toListOnto_eq]
  rfl

@[simp] theorem toList?_withSpan (n : Node) (s : Span) : (n.withSpan s).toList? = n.toList? := by
  cases n with
  | atom a t => cases a <;> rfl
  | pair => rw [withSpan, toList?_pair, toList?_pair]
  | closure => rfl
  | transformer => rfl

theorem toList?_chain (stop : Nat) (items : List Node) (tail : Node) :
    (chain stop items tail).toList? = tail.toList?.map (items ++ ·) := by
  induction items with
  | nil => simp [chain]
  | cons a items ih =>
    rw [chain_cons, toList?_pair, ih]
    cases tail.toList? <;> rfl

/-- A list gives back the elements it was made of. -/
@[simp] theorem toList?_ofList (items : List Node) (span : Span) :
    (ofList items span).toList? = some items := by
  rw [ofList, listWithTail, toList?_withSpan, toList?_chain, nil, toList?_nil]
  simp

/-- A list without elements is the empty list. -/
theorem eq_nil_of_toList? {n : Node} (h : n.toList? = some []) : ∃ s, n = .atom .nil s := by
  cases n with
  | atom a s => cases a <;> first | exact ⟨s, rfl⟩ | cases h
  | pair l car cdr s =>
    rw [toList?_pair] at h
    obtain ⟨items, -, he⟩ := Option.map_eq_some_iff.mp h
    cases he
  | closure => cases h
  | transformer => cases h

/-- Any other proper list begins with its first element. -/
theorem exists_pair_of_toList? {n first : Node} {rest : List Node}
    (h : n.toList? = some (first :: rest)) :
    ∃ l cdr s, n = .pair l first cdr s ∧ cdr.toList? = some rest := by
  cases n with
  | atom a => cases a <;> cases h
  | pair l car cdr s =>
    rw [toList?_pair] at h
    obtain ⟨items, hitems, he⟩ := Option.map_eq_some_iff.mp h
    cases he
    exact ⟨l, cdr, s, rfl, hitems⟩
  | closure => cases h
  | transformer => cases h

@[simp] theorem span_listWithTail (items : List Node) (tail : Node) (span : Span) :
    (listWithTail items tail span).span = span := by
  rw [listWithTail, span_withSpan]

end MiniLisp.Node
