import MiniLisp.Proofs.Data.Copy
import MiniLisp.Proofs.Eval.Invariant
import MiniLisp.Proofs.Eval.Template

/-!
# Templates that are lists

A template may be a list: a row of cells, each with an element, in front of a tail
(`Node.row`). Its copy goes along the cells. Each element contributes what it is copied to, or the
elements of a list if it is a splice (`Cell.contribution`). After the last cell the tail is copied,
and then all contributions are put in front of it, the last one first (`assemble`).

The copy goes along pairs, though, and a pair anywhere in the list may look like a special form by
itself: what begins at some cell, with all that follows, may be the list of the symbol of a mark and
one operand. That is the one condition on the cells (`quasiquote_row`).
-/

namespace MiniLisp

/-! ### Rows of cells -/

/-- A pair of a list, without what follows it. -/
structure Cell where
  label : Option Label
  element : Node
  span : Span

namespace Node

/-- The list of some cells in front of a tail. -/
def row (cells : List Cell) (tail : Node) : Node :=
  cells.foldr (fun c d ↦ .pair c.label c.element d c.span) tail

end Node

/-! ### Contributions -/

section

variable (run : Runner) (ctx : Context)

/-- What the element of a cell contributes to a copy, with the span of the cell: a splice the
elements of its value, which has to be a proper list, and any other element its own copy. -/
def Cell.contribution (c : Cell) : Action EvalError (List Node × Span) :=
  match c.element.operandOf? QuoteMark.splice.name with
  | some operand => do
    let value ← run (.eval operand ctx)
    match value.toList? with
    | some items => return (items, c.span)
    | none => .fail (.specialForm (.spliceOf value) c.element.span)
  | none => do return ([← quasi run ctx c.element 1], c.span)

/-- Puts contributions in front of a tail, the last one first, and labels the pairs. -/
def assemble {ε : Type} (parts : List (List Node × Span)) (tail : Node) : Action ε Node :=
  parts.foldrM (fun part rest ↦ .adopt (.listWithTail part.1 rest part.2)) tail

/-- The contributions of cells from left to right and then the copy of a tail, put together. -/
def concatenate (cells : List Cell) (tail : Node) : Action EvalError Node := do
  let parts ← cells.mapM (·.contribution run ctx)
  let copy ← quasi run ctx tail 1
  assemble parts copy

/-- The copy of a list is made of the contribution of its first element and the copy of the rest. -/
theorem quasi_cell (c : Cell) (rest : Node)
    (h : ∀ mark, mark ≠ .quote → ¬ (Node.row [c] rest).IsTagged mark) :
    quasi run ctx (.row [c] rest) 1 = (do
      let part ← c.contribution run ctx
      let copy ← quasi run ctx rest 1
      .adopt (.listWithTail part.1 copy part.2)) := by
  show quasi run ctx (.pair c.label c.element rest c.span) 1 = _
  have hplain : templateForm? c.element rest = none := Node.templateForm?_eq_none_iff.mpr h
  rw [quasi_pair, hplain]
  dsimp only
  unfold quasiElements Cell.contribution
  rw [if_pos rfl]
  cases c.element.operandOf? QuoteMark.splice.name with
  | none =>
    simp only [bind_assoc, pure_bind]
    rfl
  | some operand =>
    dsimp only
    unfold spliced
    simp only [bind_assoc]
    congr
    funext value
    cases value.toList? with
    | none => rfl
    | some items => rfl

/-- **A copy goes along the cells of a list**, and then to the tail. -/
theorem quasi_row {cells : List Cell} {tail : Node}
    (h : ∀ c rest, c :: rest <:+ cells → ∀ mark, mark ≠ .quote →
      ¬ (Node.row (c :: rest) tail).IsTagged mark) :
    quasi run ctx (.row cells tail) 1 = concatenate run ctx cells tail := by
  unfold concatenate
  induction cells with
  | nil =>
    simp only [List.mapM_nil, pure_bind]
    exact (bind_pure _).symm
  | cons c cells ih =>
    have hrest := ih fun c' rest hsuffix ↦ h c' rest (hsuffix.trans (List.suffix_cons c cells))
    have hcell := quasi_cell run ctx c (.row cells tail) (h c cells (List.suffix_refl _))
    show quasi run ctx (.row [c] (.row cells tail)) 1 = _
    rw [hcell, hrest]
    simp only [List.mapM_cons, bind_assoc, pure_bind, assemble, List.foldrM_cons]

end

/-- Contributions can always be put together. That only uses up labels, and makes a copy of the list
of all of them in front of the tail. -/
theorem exists_assemble {ε : Type} (parts : List (List Node × Span)) (tail : Node) (s : Span)
    (m : Machine) :
    ∃ value label, (assemble parts tail m : Outcome ε Node) = .ok value { m with label := label } ∧
      value.Copy (.listWithTail (parts.flatMap Prod.fst) tail s) := by
  induction parts generalizing s with
  | nil => exact ⟨tail, m.label, rfl, (Node.Copy.withSpan tail s).symm⟩
  | cons part parts ih =>
    obtain ⟨rest, label, hrest, hcopy⟩ := ih s
    let whole := Node.listWithTail part.1 rest part.2
    refine ⟨(whole.adopt label).1, (whole.adopt label).2, ?_, ?_⟩
    · rw [assemble, List.foldrM_cons]
      show Action.bind (assemble parts tail) _ m = _
      rw [Action.bind, hrest]
      rfl
    · exact (Node.Copy.adopt whole label).trans (.listWithTail_append _ _ hcopy _ _)

theorem Action.mapM_of_error {ε α β : Type} {f : α → Action ε β} {before after : List α} {x : α}
    {values : List β} {m m₁ m₂ : Machine} {cause : ε} (hbefore : before.mapM f m = .ok values m₁)
    (hfails : f x m₁ = .error cause m₂) : (before ++ x :: after).mapM f m = .error cause m₂ := by
  rw [List.mapM_append, List.mapM_cons, bind_of_ok hbefore]
  exact bind_of_error (bind_of_error hfails _) _

/-- **The quasiquotation of a list concatenates the contributions of its elements.** Suppose that no
end of the list that begins at one of its cells is tagged with a mark that templates treat
specially. Then the elements contribute from left to right, each once, and after them the tail is
copied. The first of these that fails ends the evaluation as it does. If none fails, then the value
is the list of all contributions in front of the copy of the tail, and putting it together changes
nothing but which labels are free. -/
theorem quasiquote_row {form tail : Node} {cells : List Cell}
    (hform : form.operandOf? QuoteMark.quasiquote.name = some (.row cells tail))
    (hcells : ∀ c rest, c :: rest <:+ cells → ∀ mark, mark ≠ .quote →
      ¬ (Node.row (c :: rest) tail).IsTagged mark) (fuel : Nat) (ctx : Context) :
    runStep (fuel + 2) (.eval form ctx) = concatenate (runStep (fuel + 1)) ctx cells tail ∧
    (∀ before c after parts m m₁ cause m₂, cells = before ++ c :: after →
      before.mapM (·.contribution (runStep (fuel + 1)) ctx) m = .ok parts m₁ →
      c.contribution (runStep (fuel + 1)) ctx m₁ = .error cause m₂ →
      runStep (fuel + 2) (.eval form ctx) m = .error cause m₂) ∧
    ∀ parts m m₁, cells.mapM (·.contribution (runStep (fuel + 1)) ctx) m = .ok parts m₁ →
      (∀ cause m₂, quasi (runStep (fuel + 1)) ctx tail 1 m₁ = .error cause m₂ →
        runStep (fuel + 2) (.eval form ctx) m = .error cause m₂) ∧
      ∀ copy m₂, quasi (runStep (fuel + 1)) ctx tail 1 m₁ = .ok copy m₂ →
        ∃ value label,
          runStep (fuel + 2) (.eval form ctx) m = .ok value { m₂ with label := label } ∧
          value.Copy (.listWithTail (parts.flatMap Prod.fst) copy (Node.row cells tail).span) := by
  have hrun : runStep (fuel + 2) (.eval form ctx) =
      concatenate (runStep (fuel + 1)) ctx cells tail :=
    (runStep_quasiquote fuel hform ctx).trans (quasi_row _ ctx hcells)
  rw [hrun]
  refine ⟨rfl, ?_, fun parts m m₁ hparts ↦ ⟨fun cause m₂ htail ↦ ?_, fun copy m₂ htail ↦ ?_⟩⟩
  · rintro before c after parts m m₁ cause m₂ rfl hbefore hfails
    exact Action.bind_of_error (Action.mapM_of_error hbefore hfails) _
  · exact (Action.bind_of_ok hparts _).trans (Action.bind_of_error htail _)
  · obtain ⟨value, label, hvalue, hcopy⟩ := exists_assemble parts copy (Node.row cells tail).span m₂
    refine ⟨value, label, ?_, hcopy⟩
    exact (Action.bind_of_ok hparts _).trans ((Action.bind_of_ok htail _).trans hvalue)

/-- In `(quasiquote (a (unquote-splicing (quote (b c))) (unquote-splicing (quote ())) . d))` both
splices contribute, the second of them nothing. -/
theorem quasiquote_row_splices :
    let symbol (name : String) : Node := .symbol name .nowhere
    let list (items : List Node) : Node := .ofList items .nowhere
    let splice (items : List Node) : Node :=
      list [symbol "unquote-splicing", list [symbol "quote", list items]]
    let cells : List Cell := [⟨none, symbol "a", .nowhere⟩,
      ⟨none, splice [symbol "b", symbol "c"], .nowhere⟩, ⟨none, splice [], .nowhere⟩]
    let form := list [symbol "quasiquote", .row cells (symbol "d")]
    ∃ value m', runStep 5 (.eval form ⟨0, none⟩) .initial = .ok value m' ∧
      runStep 5 (.eval form ⟨0, none⟩) =
        concatenate (runStep 4) ⟨0, none⟩ cells (symbol "d") ∧
      value.text = "(a b c . d)" := by
  intro symbol list splice cells form
  have hcells : ∀ c rest, c :: rest <:+ cells → ∀ mark, mark ≠ .quote →
      ¬ (Node.row (c :: rest) (symbol "d")).IsTagged mark := by
    intro c rest hsuffix mark _
    simp only [cells, List.suffix_cons_iff, List.suffix_nil, reduceCtorEq, or_false] at hsuffix
    rcases hsuffix with ⟨rfl, rfl⟩ | ⟨rfl, rfl⟩ | ⟨rfl, rfl⟩ <;> cases mark <;> decide
  have htext : (runStep 5 (.eval form ⟨0, none⟩) .initial).value?.map Node.text =
      some "(a b c . d)" := by
    decide +kernel
  have hform : form.operandOf? QuoteMark.quasiquote.name = some (.row cells (symbol "d")) := rfl
  obtain ⟨hrun, -⟩ := quasiquote_row hform hcells 3 ⟨0, none⟩
  obtain ⟨value, m', hvalue, htext⟩ := Outcome.exists_of_map_value? htext
  exact ⟨value, m', hvalue, hrun, htext⟩

end MiniLisp
