import MiniLisp.Proofs.Data.Parts
import MiniLisp.Proofs.Data.Spans

/-!
# Grounded data

What a node takes for granted. Its procedures and macros were made in scopes that exist, so their
numbers are below that of the next scope (`Node.Housed`); and its numbers, as far as that is asked
for, are in the narrowest form (`Node.Canonical`). Both are about all parts of the node, the forms
in the bodies of procedures and macros included.

A store only grows, so a node that is grounded in it stays grounded (`Node.Grounded.mono`).
-/

namespace MiniLisp.Node

/-- All numbers in a node are in the narrowest form. -/
def Canonical (n : Node) : Prop :=
  ∀ part ∈ n.parts, ∀ x, part.number? = some x → x.Canonical

/-- All procedures and macros in a node were made in scopes with numbers below a limit. -/
def Housed (limit : ScopeId) (n : Node) : Prop :=
  ∀ part ∈ n.parts, ∀ home, part.home? = some home → home < limit

/-- The scopes that a node needs are below a limit. If numbers matter, then those in the node are in
the narrowest form. -/
inductive Grounded (numbers : Prop) (limit : ScopeId) : Node → Prop
  | atom {a : Atom} {s : Span} (ha : numbers → ∀ x, a = .number x → x.Canonical) :
      Grounded numbers limit (.atom a s)
  | pair {l : Option Label} {a d : Node} {s : Span} (ha : Grounded numbers limit a)
      (hd : Grounded numbers limit d) : Grounded numbers limit (.pair l a d s)
  | closure {l : Label} {name : Option String} {params : Params} {body : List Node}
      {scope : ScopeId} {s : Span} (hbody : ∀ form ∈ body, Grounded numbers limit form)
      (hscope : scope < limit) : Grounded numbers limit (.closure l name params body scope s)
  | transformer {l : Label} {name param : String} {body : List Node} {scope : ScopeId} {s : Span}
      (hbody : ∀ form ∈ body, Grounded numbers limit form) (hscope : scope < limit) :
      Grounded numbers limit (.transformer l name param body scope s)

/-- Some nodes are grounded. -/
def AllGrounded (numbers : Prop) (limit : ScopeId) (items : List Node) : Prop :=
  ∀ item ∈ items, item.Grounded numbers limit

namespace Grounded

variable {numbers : Prop} {limit limit' : ScopeId} {n : Node}

theorem leaf {a : Atom} (ha : ∀ x, a ≠ .number x) (s : Span) :
    (Node.atom a s).Grounded numbers limit :=
  .atom fun _ x hx ↦ absurd hx (ha x)

theorem number {x : Number} (hx : x.Canonical) (s : Span) :
    (Node.number x s).Grounded numbers limit := by
  refine .atom fun _ y hy ↦ ?_
  cases hy
  exact hx

theorem symbol (name : String) (s : Span) : (Node.symbol name s).Grounded numbers limit :=
  leaf (a := .symbol name) nofun s

theorem string (text : String) (s : Span) : (Node.string text s).Grounded numbers limit :=
  leaf (a := .string text) nofun s

theorem nil (s : Span) : (Node.nil s).Grounded numbers limit := leaf (a := .nil) nofun s

theorem parts {l : Option Label} {a d : Node} {s : Span}
    (h : (Node.pair l a d s).Grounded numbers limit) :
    a.Grounded numbers limit ∧ d.Grounded numbers limit := by
  cases h with
  | pair ha hd => exact ⟨ha, hd⟩

/-- More scopes may be added. -/
theorem mono (h : n.Grounded numbers limit) (hle : limit ≤ limit') :
    n.Grounded numbers limit' := by
  induction n with
  | atom =>
    cases h with
    | atom ha => exact .atom ha
  | pair l a d s iha ihd => exact .pair (iha h.parts.1) (ihd h.parts.2)
  | closure l name params body scope s ih =>
    cases h with
    | closure hbody hscope =>
      exact .closure (fun form hf ↦ ih form hf (hbody form hf)) (Nat.lt_of_lt_of_le hscope hle)
  | transformer l name param body scope s ih =>
    cases h with
    | transformer hbody hscope =>
      exact .transformer (fun form hf ↦ ih form hf (hbody form hf)) (Nat.lt_of_lt_of_le hscope hle)

theorem withSpan (h : n.Grounded numbers limit) (s : Span) :
    (n.withSpan s).Grounded numbers limit := by
  cases h with
  | atom ha => exact .atom ha
  | pair ha hd => exact .pair ha hd
  | closure hbody hscope => exact .closure hbody hscope
  | transformer hbody hscope => exact .transformer hbody hscope

theorem adopt (h : n.Grounded numbers limit) (next : Label) :
    (n.adopt next).1.Grounded numbers limit :=
  adopt_induct parts (fun _ _ _ _ ha hd ↦ .pair ha hd) h next

theorem listWithTail {items : List Node} (hitems : AllGrounded numbers limit items)
    (h : n.Grounded numbers limit) (s : Span) :
    (listWithTail items n s).Grounded numbers limit := by
  have hchain : (chain s.stop items n).Grounded numbers limit :=
    chain_induct h fun item hitem _ hd ↦ .pair (hitems item hitem) hd
  exact hchain.withSpan s

theorem ofList {items : List Node} (hitems : AllGrounded numbers limit items) (s : Span) :
    (ofList items s).Grounded numbers limit :=
  listWithTail hitems (nil _) s

end Grounded

theorem AllGrounded.mono {numbers : Prop} {limit limit' : ScopeId} {items : List Node}
    (h : AllGrounded numbers limit items) (hle : limit ≤ limit') :
    AllGrounded numbers limit' items :=
  fun item hitem ↦ (h item hitem).mono hle

/-! ### Parts -/

namespace Grounded

variable {numbers : Prop} {limit : ScopeId} {n : Node}

theorem home_lt (h : n.Grounded numbers limit) {home : ScopeId} (hhome : n.home? = some home) :
    home < limit := by
  cases h with
  | closure _ hscope => cases hhome; exact hscope
  | transformer _ hscope => cases hhome; exact hscope
  | _ => cases hhome

theorem number_canonical (h : n.Grounded numbers limit) (hnumbers : numbers) {x : Number}
    (hx : n.number? = some x) : x.Canonical := by
  cases h with
  | @atom a s ha =>
    cases a with
    | number y => cases hx; exact ha hnumbers _ rfl
    | _ => cases hx
  | _ => cases hx

/-- All parts of a grounded node are grounded. -/
theorem of_mem_parts (h : n.Grounded numbers limit) :
    ∀ part ∈ n.parts, part.Grounded numbers limit := by
  induction n with
  | atom a s => exact List.forall_mem_singleton.mpr h
  | pair l a d s iha ihd =>
    obtain ⟨ha, hd⟩ := h.parts
    exact List.forall_mem_cons.mpr ⟨h, List.forall_mem_append.mpr ⟨iha ha, ihd hd⟩⟩
  | closure l name params body scope s ih =>
    refine List.forall_mem_cons.mpr ⟨h, fun part hpart ↦ ?_⟩
    obtain ⟨form, hform, hpart⟩ := exists_form_of_mem_partsOf hpart
    cases h with
    | closure hbody _ => exact ih form hform (hbody form hform) part hpart
  | transformer l name param body scope s ih =>
    refine List.forall_mem_cons.mpr ⟨h, fun part hpart ↦ ?_⟩
    obtain ⟨form, hform, hpart⟩ := exists_form_of_mem_partsOf hpart
    cases h with
    | transformer hbody _ => exact ih form hform (hbody form hform) part hpart

theorem housed (h : n.Grounded numbers limit) : n.Housed limit :=
  fun part hpart _ hhome ↦ (h.of_mem_parts part hpart).home_lt hhome

theorem canonical (h : n.Grounded numbers limit) (hnumbers : numbers) : n.Canonical :=
  fun part hpart _ hx ↦ (h.of_mem_parts part hpart).number_canonical hnumbers hx

end Grounded

/-- Where numbers do not matter, it is enough that all scopes exist. -/
theorem Housed.grounded {limit : ScopeId} {n : Node} (h : n.Housed limit) :
    n.Grounded False limit := by
  induction n with
  | atom a s => exact .atom False.elim
  | pair l a d s iha ihd =>
    obtain ⟨-, ha, hd⟩ := forall_parts_pair h
    exact .pair (iha ha) (ihd hd)
  | closure l name params body scope s ih =>
    obtain ⟨hself, hbody⟩ := List.forall_mem_cons.mp h
    exact .closure (fun form hf ↦ ih form hf (forall_parts_form hbody hf)) (hself scope rfl)
  | transformer l name param body scope s ih =>
    obtain ⟨hself, hbody⟩ := List.forall_mem_cons.mp h
    exact .transformer (fun form hf ↦ ih form hf (forall_parts_form hbody hf)) (hself scope rfl)

end MiniLisp.Node
