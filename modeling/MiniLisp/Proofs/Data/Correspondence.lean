import Mathlib.Data.List.Forall2
import MiniLisp.Data.Equality
import MiniLisp.Data.Label
import MiniLisp.Data.Printer
import MiniLisp.Proofs.Data.Parts
import MiniLisp.Scope.Store

/-!
# Data in two machines

Two machines may hold the same data though they number their scopes and labels differently, and
though spans differ. A correspondence says which scopes and which labels are meant to be the same
ones, and whether spans count. All else is then forced: corresponding nodes (`Correspondence.Nodes`)
have the same shape and the same atoms, and their scopes and labels correspond.

Numbers of scopes are compared by order, as walks go outwards to smaller ones, and labels only for
being the same. So a correspondence keeps the order of scopes and is one-to-one on labels, and then
nothing that is asked of data tells corresponding nodes apart: they are written alike, equal and
identical to corresponding ones, and stay so when they are taken apart, put together or labelled.

Natives in corresponding nodes do built-in operations. A host operation may show the name of a scope
or the ends of a span, so it does tell them apart.
-/

namespace MiniLisp

/-- Which scopes and labels of two machines are meant to be the same ones. -/
structure Correspondence where
  scope : ScopeId → ScopeId → Prop
  label : Label → Label → Prop
  /-- The spans in corresponding data are the same. -/
  sameSpans : Prop
  /-- What a scope of the first machine holds that corresponds to none. -/
  others : ScopeId → Option Scope
  scope_lt_iff : ∀ {s s' t t'}, scope s s' → scope t t' → (s < t ↔ s' < t')
  label_eq_iff : ∀ {l l' m m'}, label l l' → label m m' → (l = m ↔ l' = m')

namespace Correspondence

variable (C : Correspondence)

/-- Two spans are the same if spans count. -/
def Spans (s s' : Span) : Prop := C.sameSpans → s = s'

/-- The nodes are the same up to the numbers of scopes and labels, and up to spans unless they
count. -/
inductive Nodes : Node → Node → Prop
  | atom {a : Atom} {s s' : Span} (ha : ∀ p, a = .native p → p.IsBuiltin) (hs : C.Spans s s') :
      Nodes (.atom a s) (.atom a s')
  | pair {l l' : Option Label} {a a' d d' : Node} {s s' : Span} (hl : Option.Rel C.label l l')
      (ha : Nodes a a') (hd : Nodes d d') (hs : C.Spans s s') :
      Nodes (.pair l a d s) (.pair l' a' d' s')
  | closure {l l' : Label} {name : Option String} {params : Params} {body body' : List Node}
      {scope scope' : ScopeId} {s s' : Span} (hl : C.label l l')
      (hbody : List.Forall₂ Nodes body body') (hscope : C.scope scope scope') (hs : C.Spans s s') :
      Nodes (.closure l name params body scope s) (.closure l' name params body' scope' s')
  | transformer {l l' : Label} {name param : String} {body body' : List Node}
      {scope scope' : ScopeId} {s s' : Span} (hl : C.label l l')
      (hbody : List.Forall₂ Nodes body body') (hscope : C.scope scope scope') (hs : C.Spans s s') :
      Nodes (.transformer l name param body scope s) (.transformer l' name param body' scope' s')

/-- All labels from two numbers on correspond, one by one. -/
def LabelsFrom (next next' : Label) : Prop := ∀ k, C.label (next + k) (next' + k)

/-- The procedures are the same apart from their labels. -/
structure Closures (c c' : Closure) : Prop where
  name : c.name = c'.name
  params : c.params = c'.params
  body : List.Forall₂ C.Nodes c.body c'.body
  scope : C.scope c.scope c'.scope

/-- The macros are the same apart from their labels. -/
structure Transformers (t t' : Transformer) : Prop where
  name : t.name = t'.name
  param : t.param = t'.param
  body : List.Forall₂ C.Nodes t.body t'.body
  scope : C.scope t.scope t'.scope

inductive Procedures : Procedure → Procedure → Prop
  | native {p : Native} (hp : p.IsBuiltin) : Procedures (.native p) (.native p)
  | closure {c c' : Closure} (hc : C.Closures c c') : Procedures (.closure c) (.closure c')

variable {C}

theorem LabelsFrom.succ {next next' : Label} (h : C.LabelsFrom next next') :
    C.LabelsFrom (next + 1) (next' + 1) := by
  intro k
  have hk := h (k + 1)
  rwa [Nat.add_comm k 1, ← Nat.add_assoc, ← Nat.add_assoc] at hk

/-- Scopes that correspond to the same one are the same. -/
theorem scope_eq_iff {s s' t t' : ScopeId} (h : C.scope s s') (ht : C.scope t t') :
    s = t ↔ s' = t' := by
  have heq {a b : Nat} : a = b ↔ ¬ a < b ∧ ¬ b < a := by omega
  rw [heq, heq, C.scope_lt_iff h ht, C.scope_lt_iff ht h]

theorem rel_map {α α' β β' : Type} {r : α → α' → Prop} {r' : β → β' → Prop} {f : α → β}
    {f' : α' → β'} {x : Option α} {x' : Option α'} (h : Option.Rel r x x')
    (hf : ∀ a a', r a a' → r' (f a) (f' a')) : Option.Rel r' (x.map f) (x'.map f') := by
  cases h with
  | none => exact .none
  | some h => exact .some (hf _ _ h)

theorem sameLabel_eq {l l' m m' : Option Label} (hl : Option.Rel C.label l l')
    (hm : Option.Rel C.label m m') : sameLabel l m = sameLabel l' m' := by
  cases hl with
  | none => rfl
  | some hl =>
    cases hm with
    | none => rfl
    | some hm =>
      show (_ == _) = (_ == _)
      rw [Bool.eq_iff_iff, beq_iff_eq, beq_iff_eq]
      exact C.label_eq_iff hl hm

namespace Nodes

variable {n n' m m' : Node}

/-! ### Taking nodes apart -/

theorem span (h : C.Nodes n n') : C.Spans n.span n'.span := by
  cases h with
  | atom _ hs => exact hs
  | pair _ _ _ hs => exact hs
  | closure _ _ _ hs => exact hs
  | transformer _ _ _ hs => exact hs

theorem symbol? (h : C.Nodes n n') : n.symbol? = n'.symbol? := by
  cases h with
  | @atom a => cases a <;> rfl
  | _ => rfl

theorem number? (h : C.Nodes n n') : n.number? = n'.number? := by
  cases h with
  | @atom a => cases a <;> rfl
  | _ => rfl

theorem typeName (h : C.Nodes n n') : n.typeName = n'.typeName := by
  cases h <;> rfl

theorem isTruthy (h : C.Nodes n n') : n.isTruthy = n'.isTruthy := by
  cases h <;> rfl

theorem procedure? (h : C.Nodes n n') : Option.Rel C.Procedures n.procedure? n'.procedure? := by
  cases h with
  | @atom a _ _ ha =>
    cases a with
    | native p => exact .some (.native (ha p rfl))
    | _ => exact .none
  | pair => exact .none
  | closure hl hbody hscope => exact .some (.closure ⟨rfl, rfl, hbody, hscope⟩)
  | transformer => exact .none

theorem transformer? (h : C.Nodes n n') :
    Option.Rel C.Transformers n.transformer? n'.transformer? := by
  cases h with
  | transformer hl hbody hscope => exact .some ⟨rfl, rfl, hbody, hscope⟩
  | _ => exact .none

theorem toList? (h : C.Nodes n n') :
    Option.Rel (List.Forall₂ C.Nodes) n.toList? n'.toList? := by
  induction n generalizing n' with
  | atom a s =>
    cases h
    cases a with
    | nil => exact .some .nil
    | _ => exact .none
  | pair l a d s _ ih =>
    cases h with
    | pair _ ha hd =>
      rw [Node.toList?_pair, Node.toList?_pair]
      exact rel_map (ih hd) fun _ _ hitems ↦ .cons ha hitems
  | closure =>
    cases h
    exact .none
  | transformer =>
    cases h
    exact .none

/-! ### Written forms -/

theorem texts (h : C.Nodes n n') : n.text = n'.text ∧ n.restText = n'.restText := by
  induction n generalizing n' with
  | atom a s =>
    cases h
    constructor
    · simp [Node.text, Node.writeOnto, Node.leafText]
    · cases a <;> simp [Node.restText, Node.writeRestOnto, Node.leafText]
  | pair l a d s iha ihd =>
    cases h with
    | pair _ ha hd =>
      rw [Node.text_pair, Node.text_pair, Node.restText_pair, Node.restText_pair, (iha ha).1,
        (ihd hd).2]
      exact ⟨rfl, rfl⟩
  | closure l name =>
    cases h
    cases name <;>
      simp [Node.text, Node.restText, Node.writeOnto, Node.writeRestOnto, Node.leafText]
  | transformer =>
    cases h
    simp [Node.text, Node.restText, Node.writeOnto, Node.writeRestOnto, Node.leafText]

/-- Corresponding nodes are written alike. -/
theorem text (h : C.Nodes n n') : n.text = n'.text := h.texts.1

theorem displayText (h : C.Nodes n n') : n.displayText = n'.displayText := by
  have htext := h.text
  cases h with
  | @atom a => cases a <;> rfl
  | _ => exact htext

/-! ### Equality -/

/-- Equality does not tell corresponding nodes apart. -/
theorem same (h : C.Nodes n n') (h' : C.Nodes m m') : n.same m = n'.same m' := by
  induction n generalizing n' m m' with
  | atom =>
    cases h
    cases h' <;> rfl
  | pair l a d s iha ihd =>
    cases h with
    | pair hl ha hd =>
      cases h' with
      | pair hl' ha' hd' =>
        show (_ || (_ && _)) = (_ || (_ && _))
        rw [sameLabel_eq hl hl', iha ha ha', ihd hd hd']
      | _ => rfl
  | closure =>
    cases h with
    | closure hl =>
      cases h' with
      | closure hl' => exact sameLabel_eq (.some hl) (.some hl')
      | _ => rfl
  | transformer =>
    cases h with
    | transformer hl =>
      cases h' with
      | transformer hl' => exact sameLabel_eq (.some hl) (.some hl')
      | _ => rfl

theorem identical (h : C.Nodes n n') (h' : C.Nodes m m') : n.identical m = n'.identical m' := by
  have hsame := h.same h'
  cases h with
  | pair hl =>
    cases h' with
    | pair hl' => exact sameLabel_eq hl hl'
    | _ => exact hsame
  | _ => exact hsame

/-! ### Putting nodes together -/

theorem leaf {a : Atom} (ha : ∀ p, a ≠ .native p) {s s' : Span} (hs : C.Spans s s') :
    C.Nodes (.atom a s) (.atom a s') :=
  .atom (fun p hp ↦ absurd hp (ha p)) hs

theorem nil {s s' : Span} (hs : C.Spans s s') : C.Nodes (.nil s) (.nil s') :=
  leaf (a := .nil) nofun hs

theorem undefined {s s' : Span} (hs : C.Spans s s') : C.Nodes (.undefined s) (.undefined s') :=
  leaf (a := .undefined) nofun hs

theorem symbol (name : String) {s s' : Span} (hs : C.Spans s s') :
    C.Nodes (.symbol name s) (.symbol name s') :=
  leaf (a := .symbol name) nofun hs

theorem withSpan (h : C.Nodes n n') {s s' : Span} (hs : C.Spans s s') :
    C.Nodes (n.withSpan s) (n'.withSpan s') := by
  cases h with
  | atom ha => exact .atom ha hs
  | pair hl ha hd => exact .pair hl ha hd hs
  | closure hl hbody hscope => exact .closure hl hbody hscope hs
  | transformer hl hbody hscope => exact .transformer hl hbody hscope hs

theorem chain {items items' : List Node} (hitems : List.Forall₂ C.Nodes items items')
    {stop stop' : Nat} (hstop : C.sameSpans → stop = stop') (h : C.Nodes n n') :
    C.Nodes (Node.chain stop items n) (Node.chain stop' items' n') := by
  induction hitems with
  | nil => exact h
  | @cons item item' items items' hitem hitems ih =>
    refine .pair .none hitem ih fun hsame ↦ ?_
    show (⟨item.span.start, max stop (Node.chain stop items n).span.stop⟩ : Span) =
      ⟨item'.span.start, max stop' (Node.chain stop' items' n').span.stop⟩
    rw [hitem.span hsame, ih.span hsame, hstop hsame]

theorem listWithTail {items items' : List Node} (hitems : List.Forall₂ C.Nodes items items')
    (h : C.Nodes n n') {s s' : Span} (hs : C.Spans s s') :
    C.Nodes (.listWithTail items n s) (.listWithTail items' n' s') :=
  (chain hitems (fun hsame ↦ by rw [hs hsame]) h).withSpan hs

theorem ofList {items items' : List Node} (hitems : List.Forall₂ C.Nodes items items')
    {s s' : Span} (hs : C.Spans s s') : C.Nodes (.ofList items s) (.ofList items' s') :=
  listWithTail hitems (nil fun hsame ↦ by rw [hs hsame]) hs

/-- Corresponding nodes are labelled alike, and use up as many labels. -/
theorem adopt (h : C.Nodes n n') {next next' : Label} (hnext : C.LabelsFrom next next') :
    C.Nodes (n.adopt next).1 (n'.adopt next').1 ∧
      C.LabelsFrom (n.adopt next).2 (n'.adopt next').2 := by
  induction n generalizing n' next next' with
  | pair l a d s iha ihd =>
    cases h with
    | pair hl ha hd hs =>
      cases hl with
      | some hl => exact ⟨.pair (.some hl) ha hd hs, hnext⟩
      | none =>
        rw [Node.adopt_new, Node.adopt_new]
        obtain ⟨ha, hafter⟩ := iha ha hnext.succ
        obtain ⟨hd, hend⟩ := ihd hd hafter
        exact ⟨.pair (.some (hnext 0)) ha hd hs, hend⟩
  | atom =>
    cases h with
    | atom ha hs => exact ⟨.atom ha hs, hnext⟩
  | closure =>
    cases h with
    | closure hl hbody hscope hs => exact ⟨.closure hl hbody hscope hs, hnext⟩
  | transformer =>
    cases h with
    | transformer hl hbody hscope hs => exact ⟨.transformer hl hbody hscope hs, hnext⟩

end Nodes

/-! ### Nodes that stay the same -/

/-- What a node shows by itself corresponds to itself. -/
structure Keeps (C : Correspondence) (n : Node) : Prop where
  label : ∀ l, n.label? = some l → C.label l l
  home : ∀ s, n.home? = some s → C.scope s s
  native : ∀ p, n.native? = some p → p.IsBuiltin

/-- A node corresponds to itself if all its parts do. -/
theorem Nodes.self {n : Node} (h : ∀ part ∈ n.parts, C.Keeps part) : C.Nodes n n := by
  induction n with
  | atom a s =>
    have hself := h _ List.mem_cons_self
    refine .atom ?_ fun _ ↦ rfl
    rintro p rfl
    exact hself.native p rfl
  | pair l a d s iha ihd =>
    obtain ⟨hself, ha, hd⟩ := Node.forall_parts_pair h
    refine .pair ?_ (iha ha) (ihd hd) fun _ ↦ rfl
    cases l with
    | none => exact .none
    | some l => exact .some (hself.label l rfl)
  | closure l name params body scope s ih =>
    obtain ⟨hself, hbody⟩ := List.forall_mem_cons.mp h
    have hforms : List.Forall₂ C.Nodes body body :=
      List.forall₂_same.mpr fun form hf ↦ ih form hf (Node.forall_parts_form hbody hf)
    exact .closure (hself.label l rfl) hforms (hself.home scope rfl) fun _ ↦ rfl
  | transformer l name param body scope s ih =>
    obtain ⟨hself, hbody⟩ := List.forall_mem_cons.mp h
    have hforms : List.Forall₂ C.Nodes body body :=
      List.forall₂_same.mpr fun form hf ↦ ih form hf (Node.forall_parts_form hbody hf)
    exact .transformer (hself.label l rfl) hforms (hself.home scope rfl) fun _ ↦ rfl

end Correspondence

end MiniLisp
