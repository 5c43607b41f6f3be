import MiniLisp.Data.Label

/-!
# What nodes are made of

Two properties of nodes as a whole. `Node.Spanned` is about the spans: all of them have a property.
`Node.Written` is about the shape: the node is made of pairs and of atoms that texts have, and the
names of its symbols have a property.

The spans of the inner pairs of a list are not those of any part of it. Each runs from its element
to the end of the list or of what follows, whichever is further on, so a property of all spans of a
list has to hold of these too (`Node.Spanned.listWithTail`).
-/

namespace MiniLisp.Node

/-- A property of nodes that passes to parts, and to a pair with a label from its labelled parts,
stays when a node is adopted. -/
theorem adopt_induct {Q : Node → Prop} (parts : ∀ {l a d s}, Q (pair l a d s) → Q a ∧ Q d)
    (label : ∀ {a d s} (l next next' : Label), Q (pair none a d s) → Q (a.adopt next).1 →
      Q (d.adopt next').1 → Q (pair (some l) (a.adopt next).1 (d.adopt next').1 s)) {n : Node}
    (h : Q n) (next : Label) : Q (n.adopt next).1 := by
  induction n generalizing next with
  | pair l a d s iha ihd =>
    cases l with
    | some l => exact h
    | none =>
      rw [adopt_new]
      exact label _ _ _ h (iha (parts h).1 _) (ihd (parts h).2 _)
  | _ => exact h

/-- A property of nodes that passes from the rest of a chain to the pair in front of it passes from
the tail to the whole chain. -/
theorem chain_induct {Q : Node → Prop} {stop : Nat} {items : List Node} {tail : Node}
    (htail : Q tail)
    (hpair : ∀ item ∈ items, ∀ d, Q d →
      Q (pair none item d ⟨item.span.start, max stop d.span.stop⟩)) :
    Q (chain stop items tail) := by
  induction items with
  | nil => exact htail
  | cons item items ih =>
    obtain ⟨hfirst, hrest⟩ := List.forall_mem_cons.mp hpair
    exact hfirst _ (ih hrest)

/-- All spans in a node have a property, those in the bodies of procedures and macros included. -/
inductive Spanned (P : Span → Prop) : Node → Prop
  | atom {a : Atom} {s : Span} (hs : P s) : Spanned P (.atom a s)
  | pair {l : Option Label} {a d : Node} {s : Span} (ha : Spanned P a) (hd : Spanned P d)
      (hs : P s) : Spanned P (.pair l a d s)
  | closure {l : Label} {name : Option String} {params : Params} {body : List Node}
      {scope : ScopeId} {s : Span} (hbody : ∀ form ∈ body, Spanned P form) (hs : P s) :
      Spanned P (.closure l name params body scope s)
  | transformer {l : Label} {name param : String} {body : List Node} {scope : ScopeId} {s : Span}
      (hbody : ∀ form ∈ body, Spanned P form) (hs : P s) :
      Spanned P (.transformer l name param body scope s)

namespace Spanned

variable {P Q : Span → Prop} {n : Node}

theorem mono (h : n.Spanned P) (hPQ : ∀ s, P s → Q s) : n.Spanned Q := by
  induction n with
  | atom =>
    cases h with
    | atom hs => exact .atom (hPQ _ hs)
  | pair l a d s iha ihd =>
    cases h with
    | pair ha hd hs => exact .pair (iha ha) (ihd hd) (hPQ _ hs)
  | closure l name params body scope s ih =>
    cases h with
    | closure hbody hs => exact .closure (fun form hf ↦ ih form hf (hbody form hf)) (hPQ _ hs)
  | transformer l name param body scope s ih =>
    cases h with
    | transformer hbody hs =>
      exact .transformer (fun form hf ↦ ih form hf (hbody form hf)) (hPQ _ hs)

theorem span (h : n.Spanned P) : P n.span := by
  cases h with
  | atom hs => exact hs
  | pair _ _ hs => exact hs
  | closure _ hs => exact hs
  | transformer _ hs => exact hs

theorem parts {l : Option Label} {a d : Node} {s : Span} (h : (Node.pair l a d s).Spanned P) :
    a.Spanned P ∧ d.Spanned P := by
  cases h with
  | pair ha hd _ => exact ⟨ha, hd⟩

theorem withSpan (h : n.Spanned P) {s : Span} (hs : P s) : (n.withSpan s).Spanned P := by
  cases h with
  | atom _ => exact .atom hs
  | pair ha hd _ => exact .pair ha hd hs
  | closure hbody _ => exact .closure hbody hs
  | transformer hbody _ => exact .transformer hbody hs

theorem adopt (h : n.Spanned P) (next : Label) : (n.adopt next).1.Spanned P :=
  adopt_induct parts (fun _ _ _ h ha hd ↦ .pair ha hd h.span) h next

/-- A list in which the spans of the inner pairs have the property. -/
theorem listWithTail {items : List Node} {tail : Node} {s : Span}
    (hitems : ∀ item ∈ items, item.Spanned P) (htail : tail.Spanned P) (hs : P s)
    (hinner : ∀ item ∈ items, ∀ t, P t → P ⟨item.span.start, max s.stop t.stop⟩) :
    (listWithTail items tail s).Spanned P := by
  have hchain : (chain s.stop items tail).Spanned P :=
    chain_induct htail fun item hitem d hd ↦
      .pair (hitems item hitem) hd (hinner item hitem _ hd.span)
  exact hchain.withSpan hs

theorem ofList {items : List Node} {s : Span} (hitems : ∀ item ∈ items, item.Spanned P) (hs : P s)
    (hstop : P (.at_ s.stop))
    (hinner : ∀ item ∈ items, ∀ t, P t → P ⟨item.span.start, max s.stop t.stop⟩) :
    (ofList items s).Spanned P := by
  have hnil : (nil (.at_ s.stop)).Spanned P := .atom hstop
  exact listWithTail hitems hnil hs hinner

end Spanned

/-- The node is made of pairs and of atoms other than natives, and the names of its symbols have a
property. -/
inductive Written (N : String → Prop) : Node → Prop
  | atom {a : Atom} {s : Span} (hnative : ∀ p, a ≠ .native p)
      (hname : ∀ name, a = .symbol name → N name) : Written N (.atom a s)
  | pair {l : Option Label} {a d : Node} {s : Span} (ha : Written N a) (hd : Written N d) :
      Written N (.pair l a d s)

namespace Written

variable {N : String → Prop} {n : Node}

theorem parts {l : Option Label} {a d : Node} {s : Span} (h : (Node.pair l a d s).Written N) :
    a.Written N ∧ d.Written N := by
  cases h with
  | pair ha hd => exact ⟨ha, hd⟩

theorem symbol? (h : n.Written N) {name : String} (hname : n.symbol? = some name) : N name := by
  cases h with
  | @atom a s _ hnames =>
    cases a with
    | symbol other => cases hname; exact hnames _ rfl
    | _ => cases hname
  | pair => cases hname

theorem withSpan (h : n.Written N) (s : Span) : (n.withSpan s).Written N := by
  cases h with
  | atom hnative hname => exact .atom hnative hname
  | pair ha hd => exact .pair ha hd

theorem adopt (h : n.Written N) (next : Label) : (n.adopt next).1.Written N :=
  adopt_induct parts (fun _ _ _ _ ha hd ↦ .pair ha hd) h next

theorem listWithTail {items : List Node} {tail : Node} (hitems : ∀ item ∈ items, item.Written N)
    (htail : tail.Written N) (s : Span) : (listWithTail items tail s).Written N := by
  have hchain : (chain s.stop items tail).Written N :=
    chain_induct htail fun item hitem _ hd ↦ .pair (hitems item hitem) hd
  exact hchain.withSpan s

theorem ofList {items : List Node} (hitems : ∀ item ∈ items, item.Written N) (s : Span) :
    (ofList items s).Written N := by
  have hnil : (nil (.at_ s.stop)).Written N := .atom nofun nofun
  exact listWithTail hitems hnil s

end Written

end MiniLisp.Node
