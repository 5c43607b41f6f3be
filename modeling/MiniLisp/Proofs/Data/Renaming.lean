import MiniLisp.Data.Equality
import MiniLisp.Data.Printer
import MiniLisp.Proofs.Data.Adoption
import MiniLisp.Proofs.Data.Parts

/-!
# Other names for labels

A label stands for the identity of a pair, a procedure or a macro. Which number it is does not
matter, as labels are only ever compared: if the labels in some data are replaced by others, no two
of them by the same one (`Renaming`, `Node.relabel`), then the data has the same shape, is written in
the same way, and is equal or identical to other data where it was before.

Labels are given out in order, so a renaming keeps the order of the new ones, those from some limit
on. Then adopting a node and renaming its labels is the same as renaming first (`Node.adopt_relabel`).
-/

namespace MiniLisp

/-- Other numbers for labels, no two of them the same. Labels from the limit on are new, and their
numbers follow each other. -/
structure Renaming where
  toFun : Label → Label
  limit : Label
  injective : Function.Injective toFun
  succ : ∀ l, limit ≤ l → toFun (l + 1) = toFun l + 1

instance : CoeFun Renaming fun _ ↦ Label → Label := ⟨Renaming.toFun⟩

namespace Renaming

/-- Every label keeps its number. -/
def refl : Renaming := ⟨id, 0, Function.injective_id, fun _ _ ↦ rfl⟩

/-- New labels follow each other. -/
theorem add (f : Renaming) {l : Label} (hl : f.limit ≤ l) (k : Nat) : f (l + k) = f l + k := by
  induction k with
  | zero => rfl
  | succ k ih =>
    have hsucc : f (l + k + 1) = f (l + k) + 1 := f.succ _ (Nat.le_add_right_of_le hl)
    rw [← Nat.add_assoc, hsucc, ih, Nat.add_assoc]

end Renaming

namespace Node

mutual

/-- The same data with other labels. -/
def relabel (f : Label → Label) : Node → Node
  | atom value span => .atom value span
  | pair label car cdr span => .pair (label.map f) (relabel f car) (relabel f cdr) span
  | closure label name params body scope span =>
    .closure (f label) name params (relabelAll f body) scope span
  | transformer label name param body scope span =>
    .transformer (f label) name param (relabelAll f body) scope span

/-- The same nodes with other labels. -/
def relabelAll (f : Label → Label) : List Node → List Node
  | [] => []
  | n :: rest => relabel f n :: relabelAll f rest

end

theorem relabelAll_eq (f : Label → Label) (body : List Node) :
    relabelAll f body = body.map (relabel f) := by
  induction body with
  | nil => rfl
  | cons n rest ih => rw [relabelAll, ih, List.map_cons]

end Node

/-- The same procedure with other labels. -/
def Closure.relabel (f : Label → Label) (c : Closure) : Closure :=
  { c with label := f c.label, body := c.body.map (Node.relabel f) }

/-- The same macro with other labels. -/
def Transformer.relabel (f : Label → Label) (t : Transformer) : Transformer :=
  { t with label := f t.label, body := t.body.map (Node.relabel f) }

/-- The same procedure with other labels. -/
def Procedure.relabel (f : Label → Label) : Procedure → Procedure
  | native p => .native p
  | closure c => .closure (c.relabel f)

namespace Node

/-! ### What labels do not change -/

section

variable (f : Label → Label) (n : Node)

@[simp] theorem relabel_atom (a : Atom) (s : Span) : (atom a s).relabel f = .atom a s := by
  rw [relabel]

@[simp] theorem relabel_pair (l : Option Label) (a d : Node) (s : Span) :
    (pair l a d s).relabel f = .pair (l.map f) (a.relabel f) (d.relabel f) s := by
  rw [relabel]

@[simp] theorem relabel_closure (l : Label) (name : Option String) (params : Params)
    (body : List Node) (scope : ScopeId) (s : Span) :
    (closure l name params body scope s).relabel f =
      .closure (f l) name params (body.map (relabel f)) scope s := by
  rw [relabel, relabelAll_eq]

@[simp] theorem relabel_transformer (l : Label) (name param : String) (body : List Node)
    (scope : ScopeId) (s : Span) :
    (transformer l name param body scope s).relabel f =
      .transformer (f l) name param (body.map (relabel f)) scope s := by
  rw [relabel, relabelAll_eq]

@[simp] theorem relabel_nil (s : Span) : (nil s).relabel f = .nil s := relabel_atom f _ s

@[simp] theorem relabel_undefined (s : Span) : (undefined s).relabel f = .undefined s :=
  relabel_atom f _ s

@[simp] theorem relabel_symbol (name : String) (s : Span) :
    (symbol name s).relabel f = .symbol name s := relabel_atom f _ s

@[simp] theorem span_relabel : (n.relabel f).span = n.span := by
  cases n <;> simp [span]

@[simp] theorem symbol?_relabel : (n.relabel f).symbol? = n.symbol? := by
  cases n with
  | atom => rw [relabel_atom]
  | _ => simp [symbol?]

@[simp] theorem number?_relabel : (n.relabel f).number? = n.number? := by
  cases n with
  | atom => rw [relabel_atom]
  | _ => simp [number?]

@[simp] theorem typeName_relabel : (n.relabel f).typeName = n.typeName := by
  cases n <;> simp [typeName]

@[simp] theorem isTruthy_relabel : (n.relabel f).isTruthy = n.isTruthy := by
  cases n <;> simp [isTruthy]

@[simp] theorem procedure?_relabel :
    (n.relabel f).procedure? = n.procedure?.map (Procedure.relabel f) := by
  cases n with
  | atom a => cases a <;> simp [procedure?, Procedure.relabel]
  | _ => simp [procedure?, Procedure.relabel, Closure.relabel]

@[simp] theorem transformer?_relabel :
    (n.relabel f).transformer? = n.transformer?.map (Transformer.relabel f) := by
  cases n <;> simp [transformer?, Transformer.relabel]

@[simp] theorem toList?_relabel :
    (n.relabel f).toList? = n.toList?.map (List.map (relabel f)) := by
  induction n with
  | atom a => cases a <;> simp [toList?, toListOnto]
  | pair l a d s _ ih =>
    rw [relabel_pair, toList?_pair, toList?_pair, ih]
    cases d.toList? <;> rfl
  | closure => simp [toList?, toListOnto]
  | transformer => simp [toList?, toListOnto]

theorem texts_relabel : (n.relabel f).text = n.text ∧ (n.relabel f).restText = n.restText := by
  induction n with
  | atom => rw [relabel_atom]; exact ⟨rfl, rfl⟩
  | pair l a d s iha ihd =>
    rw [relabel_pair, text_pair, text_pair, restText_pair, restText_pair, iha.1, ihd.2]
    exact ⟨rfl, rfl⟩
  | closure l name =>
    rw [relabel_closure]
    cases name <;> simp [text, restText, writeOnto, writeRestOnto, leafText]
  | transformer =>
    rw [relabel_transformer]
    simp [text, restText, writeOnto, writeRestOnto, leafText]

@[simp] theorem text_relabel : (n.relabel f).text = n.text := (n.texts_relabel f).1

@[simp] theorem displayText_relabel : (n.relabel f).displayText = n.displayText := by
  have htext := n.text_relabel f
  cases n with
  | atom => rw [relabel_atom]
  | pair =>
    rw [relabel_pair] at htext ⊢
    exact htext
  | closure =>
    rw [relabel_closure] at htext ⊢
    exact htext
  | transformer =>
    rw [relabel_transformer] at htext ⊢
    exact htext

end

/-! ### Equality -/

theorem sameLabel_map {f : Label → Label} (hf : Function.Injective f) (l m : Option Label) :
    sameLabel (l.map f) (m.map f) = sameLabel l m := by
  cases l with
  | none => rfl
  | some l =>
    cases m with
    | none => rfl
    | some m =>
      show (f l == f m) = (l == m)
      rw [Bool.eq_iff_iff, beq_iff_eq, beq_iff_eq, hf.eq_iff]

section

variable {f : Label → Label} (hf : Function.Injective f) (a b : Node)

include hf

/-- Equality does not see which labels there are. -/
theorem same_relabel : (a.relabel f).same (b.relabel f) = a.same b := by
  induction a generalizing b with
  | atom => cases b <;> simp [same]
  | pair l a d s iha ihd =>
    cases b with
    | pair =>
      rw [relabel_pair, relabel_pair, same, same, iha, ihd, sameLabel_map hf]
    | _ => simp [same]
  | closure l =>
    cases b with
    | closure m =>
      rw [relabel_closure, relabel_closure, same, same, Bool.eq_iff_iff, beq_iff_eq, beq_iff_eq,
        hf.eq_iff]
    | _ => simp [same]
  | transformer l =>
    cases b with
    | transformer m =>
      rw [relabel_transformer, relabel_transformer, same, same, Bool.eq_iff_iff, beq_iff_eq,
        beq_iff_eq, hf.eq_iff]
    | _ => simp [same]

theorem identical_relabel : (a.relabel f).identical (b.relabel f) = a.identical b := by
  have hsame := same_relabel hf a b
  cases a with
  | pair =>
    cases b with
    | pair =>
      rw [relabel_pair, relabel_pair]
      exact sameLabel_map hf _ _
    | _ => simpa [identical] using hsame
  | _ => simpa [identical] using hsame

end

/-! ### Putting nodes together -/

section

variable (f : Label → Label) (n : Node)

@[simp] theorem withSpan_relabel (s : Span) :
    (n.withSpan s).relabel f = (n.relabel f).withSpan s := by
  cases n <;> simp [withSpan]

theorem chain_relabel (stop : Nat) (items : List Node) :
    (chain stop items n).relabel f = chain stop (items.map (relabel f)) (n.relabel f) := by
  induction items with
  | nil => rfl
  | cons item items ih =>
    rw [chain_cons, List.map_cons, chain_cons, relabel_pair, ih.symm, span_relabel, span_relabel]
    rfl

theorem listWithTail_relabel (items : List Node) (s : Span) :
    (listWithTail items n s).relabel f =
      .listWithTail (items.map (relabel f)) (n.relabel f) s := by
  rw [listWithTail, withSpan_relabel, chain_relabel, listWithTail]

@[simp] theorem ofList_relabel (items : List Node) (s : Span) :
    (ofList items s).relabel f = .ofList (items.map (relabel f)) s := by
  rw [ofList, listWithTail_relabel, relabel_nil, ofList]

end

/-! ### Labels that are given -/

@[simp] theorem missing_relabel (f : Label → Label) (n : Node) :
    (n.relabel f).missing = n.missing := by
  induction n with
  | pair l a d s iha ihd => cases l <;> simp [missing, iha, ihd]
  | _ => simp [missing]

/-- The labels of an adopted node are renamed to those that the renamed node is given, if the ones
it needed are renamed in order. -/
theorem adopt_relabel_of (f : Label → Label) (n : Node) {next next' : Label}
    (h : ∀ k < n.missing, f (next + k) = next' + k) :
    (n.adopt next).1.relabel f = ((n.relabel f).adopt next').1 := by
  induction n generalizing next next' with
  | pair l a d s iha ihd =>
    cases l with
    | none =>
      rw [missing] at h
      have hfirst : f next = next' := h 0 (by omega)
      have hcar := @iha (next + 1) (next' + 1) fun k hk ↦ by
        rw [Nat.add_assoc, h (1 + k) (by omega), Nat.add_assoc]
      have hcdr := @ihd (next + 1 + a.missing) (next' + 1 + a.missing)
        fun k hk ↦ by
          rw [Nat.add_assoc, Nat.add_assoc, h (1 + (a.missing + k)) (by omega), Nat.add_assoc,
            Nat.add_assoc]
      rw [relabel_pair, Option.map_none, adopt_new, adopt_new, relabel_pair, adopt_snd, adopt_snd,
        missing_relabel, hcar, hcdr, Option.map_some, hfirst]
    | some l => simp
  | atom => simp
  | closure => simp
  | transformer => simp

/-- A node may be adopted before or after its labels are renamed. -/
theorem adopt_relabel (f : Renaming) (n : Node) {next : Label} (h : f.limit ≤ next) :
    (n.relabel f).adopt (f next) = ((n.adopt next).1.relabel f, f (n.adopt next).2) := by
  refine Prod.ext (n.adopt_relabel_of f fun k _ ↦ f.add h k).symm ?_
  rw [adopt_snd, adopt_snd, missing_relabel, f.add h]

/-! ### Labels that keep their numbers -/

/-- Renaming does not change a node if all its labels keep their numbers. -/
theorem relabel_eq_self {f : Label → Label} {n : Node}
    (h : ∀ part ∈ n.parts, ∀ l, part.label? = some l → f l = l) : n.relabel f = n := by
  have forms {body : List Node} (hbody : ∀ form ∈ body, form.relabel f = form) :
      body.map (relabel f) = body :=
    (List.map_congr_left hbody).trans (List.map_id body)
  induction n with
  | atom => exact relabel_atom f _ _
  | pair l a d s iha ihd =>
    obtain ⟨hself, ha, hd⟩ := forall_parts_pair h
    rw [relabel_pair, iha ha, ihd hd]
    cases l with
    | none => rfl
    | some l => rw [Option.map_some, hself l rfl]
  | closure l name params body scope s ih =>
    obtain ⟨hself, hbody⟩ := List.forall_mem_cons.mp h
    rw [relabel_closure, hself l rfl,
      forms fun form hform ↦ ih form hform (forall_parts_form hbody hform)]
  | transformer l name param body scope s ih =>
    obtain ⟨hself, hbody⟩ := List.forall_mem_cons.mp h
    rw [relabel_transformer, hself l rfl,
      forms fun form hform ↦ ih form hform (forall_parts_form hbody hform)]

@[simp] theorem relabel_refl (n : Node) : n.relabel Renaming.refl = n :=
  relabel_eq_self fun _ _ _ _ ↦ rfl

/-- All labels in a node are below a limit. -/
def LabelsBelow (limit : Label) (n : Node) : Prop :=
  ∀ part ∈ n.parts, ∀ l, part.label? = some l → l < limit

theorem LabelsBelow.relabel_eq {limit : Label} {n : Node} (h : n.LabelsBelow limit)
    {f : Label → Label} (hf : ∀ l < limit, f l = l) : n.relabel f = n :=
  relabel_eq_self fun part hpart l hl ↦ hf l (h part hpart l hl)

end Node

end MiniLisp
