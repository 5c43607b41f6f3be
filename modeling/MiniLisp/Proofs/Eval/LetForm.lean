import MiniLisp.Eval.SpecialForm
import MiniLisp.Proofs.Data.Placement
import MiniLisp.Proofs.Scope.Renaming

/-!
# The shape of `let` and of applications

A `let` and the application of a `lambda` are made of the same names, forms and body, put together in
two ways (`Node.IsLet`, `Node.IsApplication`). When they are adopted they keep their shape, and the
forms and the body are adopted on the way (`Node.IsLet.placed`, `Node.IsApplication.placed`).
-/

namespace MiniLisp

/-! ### The shape of both forms -/

namespace Node

/-- The list of a name and a form. -/
def Binds (pair : String × Node) (n : Node) : Prop :=
  ∃ name, n.toList? = some [name, pair.2] ∧ name.symbol? = some pair.1

/-- The form `(let ((name form) ...) body ...)`. -/
def IsLet (pairs : Bindings) (body : List Node) (n : Node) : Prop :=
  ∃ head bindings items, n.toList? = some (head :: bindings :: body) ∧
    head.symbol? = some SpecialForm.letForm.name ∧ bindings.toList? = some items ∧
    List.Forall₂ Binds pairs items

/-- The form `(lambda (name ...) body ...)`. -/
def IsLambda (names : List String) (body : List Node) (n : Node) : Prop :=
  ∃ head params items, n.toList? = some (head :: params :: body) ∧
    head.symbol? = some SpecialForm.lambda.name ∧ params.toList? = some items ∧
    List.Forall₂ (fun name item ↦ item.symbol? = some name) names items

/-- The form `((lambda (name ...) body ...) form ...)`. -/
def IsApplication (pairs : Bindings) (body : List Node) (n : Node) : Prop :=
  ∃ head, n.toList? = some (head :: pairs.map Prod.snd) ∧
    head.IsLambda (pairs.map Prod.fst) body

end Node

/-! ### Adopting both forms -/

namespace Node

variable {pairs : Bindings} {names : List String} {body items adopted : List Node}
  {given : List Label} {first stop : Label} {n : Node}

theorem symbols_placed (h : List.Forall₂ (fun name item ↦ item.symbol? = some name) names items)
    (hplaced : Placed first items adopted given stop) :
    List.Forall₂ (fun name item ↦ item.symbol? = some name) names adopted := by
  induction h generalizing first adopted given with
  | nil =>
    cases hplaced
    exact .nil
  | cons hname _ ih =>
    cases hplaced with
    | cons _ hplaced => exact .cons (symbol?_adopt_of hname _) (ih hplaced)

theorem Binds.placed (h : List.Forall₂ Binds pairs items) (hitems : ∀ item ∈ items, item.Adoptable)
    (hplaced : Placed first items adopted given stop) :
    ∃ (pairs' : Bindings) (given' : List Label), pairs'.map Prod.fst = pairs.map Prod.fst ∧
      Placed first (pairs.map Prod.snd) (pairs'.map Prod.snd) given' stop ∧
      List.Forall₂ Binds pairs' adopted := by
  induction h generalizing first adopted given with
  | nil =>
    cases hplaced with
    | nil h => exact ⟨[], [], rfl, .nil h, .nil⟩
  | @cons p item pairs items hitem _ ih =>
    obtain ⟨hadoptable, hrest⟩ := List.forall_mem_cons.mp hitems
    obtain ⟨name, hlist, hname⟩ := hitem
    cases hplaced with
    | @cons _ start _ _ _ _ _ hstart hplaced =>
      obtain ⟨pairs', given', hnames, hforms, hbinds⟩ := ih hrest hplaced
      obtain ⟨parts, _, hparts, hplaces⟩ := hadoptable.placed hlist start
      rw [adopt_snd] at hplaces
      cases hplaces with
      | @cons _ s₁ _ _ _ _ _ h₁ hplaces =>
        cases hplaces with
        | @cons _ s₂ _ _ _ _ _ h₂ hplaces =>
          cases hplaces with
          | nil h₃ =>
            refine ⟨(p.1, (p.2.adopt s₂).1) :: pairs', _, ?_, .cons ?_ (hforms.of_le h₃),
              .cons ⟨_, hparts, symbol?_adopt_of hname s₁⟩ hbinds⟩
            · rw [List.map_cons, List.map_cons, hnames]
            · exact Nat.le_trans hstart (Nat.le_trans (Nat.le_add_right_of_le h₁) h₂)

/-- A `let` that is adopted has the same names, and its forms are adopted from left to right. -/
theorem IsLet.placed (h : n.IsLet pairs body) (hn : n.Adoptable) (next : Label) :
    ∃ (pairs' : Bindings) (body' : List Node) (forms given : List Label) (middle : Label),
      pairs'.map Prod.fst = pairs.map Prod.fst ∧
      Placed next (pairs.map Prod.snd) (pairs'.map Prod.snd) forms middle ∧
      Placed middle body body' given (n.adopt next).2 ∧ (n.adopt next).1.IsLet pairs' body' := by
  obtain ⟨head, bindings, items, hlist, hhead, hitems, hpairs⟩ := h
  obtain ⟨adopted, _, hadopted, hplaced⟩ := hn.placed hlist next
  have hparts := hn.items hlist
  have hbindings : bindings.Adoptable := hparts bindings (by simp)
  cases hplaced with
  | @cons _ s₁ _ _ _ _ _ h₁ hplaced =>
    cases hplaced with
    | @cons _ s₂ _ _ _ body' given h₂ hbody =>
      obtain ⟨items', _, hitems', hplaces⟩ := hbindings.placed hitems s₂
      rw [adopt_snd] at hplaces
      obtain ⟨pairs', forms, hnames, hforms, hbinds⟩ :=
        Binds.placed hpairs (hbindings.items hitems) hplaces
      exact ⟨pairs', body', forms, given, _, hnames,
        hforms.of_le (Nat.le_trans h₁ (Nat.le_trans (Nat.le_add_right _ _) h₂)), hbody,
        _, _, items', hadopted, symbol?_adopt_of hhead s₁, hitems', hbinds⟩

theorem IsLambda.placed (h : n.IsLambda names body) (hn : n.Adoptable)
    (next : Label) :
    ∃ (body' : List Node) (given : List Label), Placed next body body' given (n.adopt next).2 ∧
      (n.adopt next).1.IsLambda names body' := by
  obtain ⟨head, params, items, hlist, hhead, hitems, hnames⟩ := h
  obtain ⟨adopted, _, hadopted, hplaced⟩ := hn.placed hlist next
  have hparams : params.Adoptable := hn.items hlist params (by simp)
  cases hplaced with
  | @cons _ s₁ _ _ _ _ _ h₁ hplaced =>
    cases hplaced with
    | @cons _ s₂ _ _ _ body' given h₂ hbody =>
      obtain ⟨items', _, hitems', hplaces⟩ := hparams.placed hitems s₂
      have hle : next ≤ s₂ + params.missing :=
        Nat.le_add_right_of_le (Nat.le_trans (Nat.le_add_right_of_le h₁) h₂)
      exact ⟨body', given, hbody.of_le hle, _, _, items', hadopted, symbol?_adopt_of hhead s₁,
        hitems', symbols_placed hnames hplaces⟩

/-- An application that is adopted has the same names; the body is adopted before the operands. -/
theorem IsApplication.placed (h : n.IsApplication pairs body) (hn : n.Adoptable) (next : Label) :
    ∃ (pairs' : Bindings) (body' : List Node) (forms given : List Label) (middle : Label),
      pairs'.map Prod.fst = pairs.map Prod.fst ∧
      Placed next body body' given middle ∧
      Placed middle (pairs.map Prod.snd) (pairs'.map Prod.snd) forms (n.adopt next).2 ∧
      (n.adopt next).1.IsApplication pairs' body' := by
  obtain ⟨head, hlist, hlambda⟩ := h
  obtain ⟨adopted, _, hadopted, hplaced⟩ := hn.placed hlist next
  have hhead : head.Adoptable := hn.items hlist head List.mem_cons_self
  cases hplaced with
  | @cons _ s₁ _ _ _ forms' forms h₁ hforms =>
    obtain ⟨body', given, hbody, hlambda'⟩ := hlambda.placed hhead s₁
    rw [adopt_snd] at hbody
    have hlength : (pairs.map Prod.fst).length = forms'.length := by
      rw [hforms.length_adopted, List.length_map, List.length_map]
    have hfst : ((pairs.map Prod.fst).zip forms').map Prod.fst = pairs.map Prod.fst :=
      List.map_fst_zip (Nat.le_of_eq hlength)
    have hsnd : ((pairs.map Prod.fst).zip forms').map Prod.snd = forms' :=
      List.map_snd_zip (Nat.le_of_eq hlength.symm)
    refine ⟨_, body', forms, given, _, hfst, hbody.of_le h₁, hsnd.symm ▸ hforms,
      (head.adopt s₁).1, ?_, hfst.symm ▸ hlambda'⟩
    rw [hadopted, hsnd]

end Node

/-! ### The same parts -/

theorem Bindings.relabel_eq_of_parts {f : Label → Label} {pairs pairs' : Bindings}
    (hnames : pairs.map Prod.fst = pairs'.map Prod.fst)
    (hvalues : (pairs.map Prod.snd).map (Node.relabel f) = pairs'.map Prod.snd) :
    pairs.relabel f = pairs' := by
  have hfst : (pairs.relabel f).map Prod.fst = pairs'.map Prod.fst := by
    rw [relabel, List.map_map]
    exact hnames
  have hsnd : (pairs.relabel f).map Prod.snd = pairs'.map Prod.snd := by
    rw [relabel, List.map_map, ← hvalues, List.map_map]
    rfl
  exact (List.zip_of_prod hfst hsnd).trans (List.zip_of_prod rfl rfl).symm

/-- The parts of a `let` and of the application with the same parts, both adopted from the label
`next` on, with renamings that make them the same. After one more label, for the procedure, the next
labels are the same too. -/
structure Node.Alignment (pairs : Bindings) (body : List Node) (form call : Node)
    (next : Label) where
  (f g : Renaming)
  (pairs₁ pairs₂ : Bindings)
  (body₁ body₂ : List Node)
  old : ∀ l < next, f l = l ∧ g l = l
  isLet : (form.adopt next).1.IsLet pairs₁ body₁
  isApplication : (call.adopt next).1.IsApplication pairs₂ body₂
  length_eq : body₁.length = body.length ∧ body₂.length = body.length
  pairs_eq : pairs₁.relabel f = pairs₂.relabel g
  body_eq : body₁.map (relabel f) = body₂.map (relabel g)
  limit_le : f.limit ≤ (form.adopt next).2 ∧ g.limit ≤ (call.adopt next).2 + 1
  next_eq : f (form.adopt next).2 = g ((call.adopt next).2 + 1)

theorem Node.exists_alignment {pairs : Bindings} {body : List Node} {form call : Node}
    (hform : form.IsLet pairs body) (hcall : call.IsApplication pairs body)
    (hform' : form.Adoptable) (hcall' : call.Adoptable) {next : Label}
    (hparts : ∀ part ∈ pairs.map Prod.snd ++ body, part.LabelsBelow next) :
    Nonempty (Alignment pairs body form call next) := by
  obtain ⟨pairs₁, body₁, forms₁, given₁, _, hnames₁, hpairs₁, hbody₁, hlet⟩ :=
    hform.placed hform' next
  obtain ⟨pairs₂, body₂, forms₂, given₂, _, hnames₂, hbody₂, hpairs₂, happlication⟩ :=
    hcall.placed hcall' next
  have hnames := hnames₁.trans hnames₂.symm
  have hle : next ≤ (call.adopt next).2 := call.le_adopt next
  -- One relocation takes the labels of the `let` to those of the application, the other one only
  -- makes room, so that what is new in both stands behind all that is old.
  obtain ⟨r, hfirst, hstop, hoffset, hpairs, hbody⟩ :=
    hpairs₁.exists_relocation hbody₁ hbody₂ hpairs₂ (Nat.le_succ _) hparts
  let q : Relocation := .room (call.adopt next).2 (form.adopt next).2
  have hpairs' : (pairs₂.map Prod.snd).map (relabel q.label) = pairs₂.map Prod.snd :=
    hpairs₂.map_room (fun part hpart ↦ hparts part (List.mem_append_left _ hpart)) hle
      (Nat.le_refl _) _
  have hbody' : body₂.map (relabel q.label) = body₂ :=
    hbody₂.map_room (fun part hpart ↦ hparts part (List.mem_append_right _ hpart)) hle
      hpairs₂.le _
  refine ⟨{
    f := r.toRenaming, g := q.toRenaming, pairs₁, pairs₂, body₁, body₂
    old := fun l hl ↦
      ⟨r.label_of_lt (hfirst ▸ hl), q.label_of_lt (Nat.lt_of_lt_of_le hl hle)⟩
    isLet := hlet
    isApplication := happlication
    length_eq := ⟨hbody₁.length_adopted, hbody₂.length_adopted⟩
    pairs_eq := ?_
    body_eq := hbody.trans hbody'.symm
    limit_le := ⟨Nat.le_of_eq hstop, Nat.le_succ _⟩
    next_eq := ?_ }⟩
  · exact (Bindings.relabel_eq_of_parts hnames hpairs).trans
      (Bindings.relabel_eq_of_parts rfl hpairs').symm
  · have hroom : q.label ((call.adopt next).2 + 1) = q.offset + ((call.adopt next).2 + 1) :=
      q.label_of_le (Nat.le_succ _)
    show r.label (form.adopt next).2 = q.label ((call.adopt next).2 + 1)
    rw [r.label_of_le (Nat.le_of_eq hstop), hroom, hoffset]
    exact Nat.add_comm _ _

end MiniLisp
