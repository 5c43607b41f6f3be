import MiniLisp.Proofs.Eval.Assignment
import MiniLisp.Proofs.Eval.Let

/-!
# What a `let` hides

The body of a `let` is evaluated in a scope of its own, which binds the names of the `let` and
stands in the scope of the form. Any other name therefore means in the body what it means around it,
as far as the chain of that scope goes.

In dynamic mode the new scope is also the dynamic one. So a name that has no meaning on the chain,
and is only found in a dynamic scope other than that of the form (`Context.Borrows`), is not found
in the body any more (`let_hides_borrowed`). This is the only difference: every name that is not
bound by the `let` and not borrowed has the same value in the body and around it, or has none in
either (`let_reads_other`).
-/

namespace MiniLisp

/-- What an action ends in, apart from the machine. -/
def Outcome.result? {ε α : Type} : Outcome ε α → Option (Except ε α)
  | .ok value _ => some (.ok value)
  | .error cause _ => some (.error cause)
  | .outOfFuel => none

theorem Outcome.exists_of_result? {ε α : Type} {outcome : Outcome ε α} {value : α}
    (h : outcome.result? = some (.ok value)) : ∃ m, outcome = .ok value m := by
  cases outcome with
  | ok found m =>
    cases h
    exact ⟨m, rfl⟩
  | error => cases h
  | outOfFuel => cases h

/-- A name means nothing in the scope of a place, but something in another scope, which is the
dynamic one there. -/
def Context.Borrows (ctx : Context) (st : Store) (name : String) : Prop :=
  st.get? name ctx.scope = none ∧ ∃ active value, ctx.dynamic = some active ∧ active ≠ ctx.scope ∧
    st.get? name active = some value

/-- Nothing is borrowed where the dynamic scope, if there is one, is the scope of the place. -/
theorem Context.not_borrows {ctx : Context} (h : ctx.dynamic = none ∨ ctx.dynamic = some ctx.scope)
    (st : Store) (name : String) : ¬ ctx.Borrows st name := by
  rintro ⟨-, active, value, hactive, hne, -⟩
  obtain hnone | hsame := h
  · rw [hnone] at hactive
    cases hactive
  · exact hne (Option.some.inj (hactive.symm.trans hsame))

/-! ### Lookups -/

section

variable {name : String} {ctx : Context} {m : Machine}

/-- A name that is not borrowed is looked up in the scope of the place. -/
theorem lookup_of_not_borrows (h : ¬ ctx.Borrows m.store name) (span : Span) :
    lookup name span ctx m = match m.store.get? name ctx.scope with
      | some value => .ok value m
      | none => .error (.unbound name span) m := by
  unfold lookup
  cases hget : m.store.get? name ctx.scope with
  | some value => rfl
  | none =>
    cases hactive : ctx.dynamic with
    | none => rfl
    | some active =>
      dsimp only
      split
      · rfl
      · next hne =>
        cases hvalue : m.store.get? name active with
        | none => rfl
        | some value => exact absurd ⟨hget, active, value, hactive, hne, hvalue⟩ h

/-- A name that a new scope does not bind is looked up there as in the scope around it. -/
theorem lookup_entered {b : Bindings} (hname : Bindings.find? name b = none)
    (hscope : ctx.scope < m.store.next) (span : Span) (label : Label) :
    let entered : Machine := ⟨m.store.add ⟨none, some ctx.scope, b⟩, label, m.trace⟩
    lookup name span (ctx.inside m.store.next) entered =
      match m.store.get? name ctx.scope with
        | some value => .ok value entered
        | none => .error (.unbound name span) entered := by
  intro entered
  have hdynamic : (ctx.inside m.store.next).dynamic = none ∨
      (ctx.inside m.store.next).dynamic = some (ctx.inside m.store.next).scope := by
    cases h : ctx.dynamic with
    | none => exact .inl (by rw [Context.inside, h]; rfl)
    | some active => exact .inr (by rw [Context.inside, h]; rfl)
  have hget : entered.store.get? name (ctx.inside m.store.next).scope =
      m.store.get? name ctx.scope := by
    show (m.store.add ⟨none, some ctx.scope, b⟩).get? name m.store.next = _
    rw [Store.get?_entered hscope, hname]
    rfl
  rw [lookup_of_not_borrows (Context.not_borrows hdynamic _ _), hget]

end

/-! ### Adopting and evaluating a `let` -/

section

variable {pairs : Bindings} {symbol : Node} {name : String}

/-- Names with values that stand for themselves stay what they are when they are adopted. -/
theorem Node.binds_of_isAdoption {items adopted : List Node}
    (h : List.Forall₂ Node.Binds pairs items) (hpairs : ∀ p ∈ pairs, p.2.SelfEvaluating)
    (hadopted : List.Forall₂ IsAdoption items adopted) : List.Forall₂ Node.Binds pairs adopted := by
  induction h generalizing adopted with
  | nil =>
    cases hadopted
    exact .nil
  | cons hitem _ ih =>
    obtain ⟨hvalue, hvalues⟩ := List.forall_mem_cons.mp hpairs
    obtain ⟨first, rest, hfirst, hrest, rfl⟩ := List.forall₂_cons_left_iff.mp hadopted
    refine .cons ?_ (ih hvalues hrest)
    obtain ⟨target, hparts, htarget⟩ := hitem
    refine ⟨target, ?_, htarget⟩
    obtain rfl | ⟨next, rfl⟩ := hfirst
    · exact hparts
    · refine toList?_adopt_of_missing hparts ?_ next
      simp [missing_of_symbol? htarget, hvalue.missing_eq]

/-- A `let` of values that stand for themselves and of a symbol keeps its parts when it is adopted.
-/
theorem Node.IsLet.adopt {n : Node} (h : n.IsLet pairs [symbol])
    (hpairs : ∀ p ∈ pairs, p.2.SelfEvaluating) (hsymbol : symbol.symbol? = some name)
    (next : Label) : (n.adopt next).1.IsLet pairs [symbol] := by
  obtain ⟨head, bindings, items, hlist, hhead, hitems, hbinds⟩ := h
  obtain ⟨adopted, hadopted, hparts⟩ := toList?_adopt hlist next
  obtain ⟨head', rest, hhead', hrest, rfl⟩ := List.forall₂_cons_left_iff.mp hparts
  obtain ⟨bindings', body, hbindings', hbody, rfl⟩ := List.forall₂_cons_left_iff.mp hrest
  obtain rfl : body = [symbol] := eq_of_isAdoption hbody
    (List.forall_mem_singleton.mpr (missing_of_symbol? hsymbol))
  obtain rfl := hhead'.eq_of_missing (missing_of_symbol? hhead)
  obtain rfl | ⟨next', rfl⟩ := hbindings'
  · exact ⟨_, _, items, hadopted, hhead, hitems, hbinds⟩
  · obtain ⟨items', hitems', hsame⟩ := toList?_adopt hitems next'
    exact ⟨_, _, items', hadopted, hhead, hitems', binds_of_isAdoption hbinds hpairs hsame⟩

/-- The values of a `let` whose forms stand for themselves are these forms. -/
theorem Let.values_eq_pure {run : Runner} {ctx : Context}
    (h : ∀ p ∈ pairs, run (.eval p.2 ctx) = pure p.2) : Let.values run ctx pairs = pure pairs := by
  induction pairs with
  | nil => rfl
  | cons p pairs ih =>
    obtain ⟨hvalue, hvalues⟩ := List.forall_mem_cons.mp h
    rw [Let.values_cons, hvalue, ih hvalues]
    rfl

/-- Does a symbol in a new scope inside the place, which binds some names. -/
theorem Let.within_symbol (run : Runner) (ctx : Context) (span : Span) (m : Machine) :
    Let.within run ctx span [symbol] pairs m = run (.eval symbol (ctx.inside m.store.next))
      { m with store := m.store.add ⟨none, some ctx.scope, Bindings.ofList pairs⟩ } := rfl

/-- A `let` of values that stand for themselves looks its symbol up in the scope that it enters. -/
theorem evaluate_let {form : Node} (hform : form.IsLet pairs [symbol])
    (hpairs : ∀ p ∈ pairs, p.2.SelfEvaluating) (hsymbol : symbol.symbol? = some name)
    (ctx : Context) (m : Machine) (fuel : Nat) :
    evaluate (fuel + 3) form ctx m = lookup name symbol.span (ctx.inside m.store.next)
      ⟨m.store.add ⟨none, some ctx.scope, Bindings.ofList pairs⟩, (form.adopt m.label).2,
        m.trace⟩ := by
  let run : Runner := runStep (fuel + 2)
  have hlet : (form.adopt m.label).1.IsLet pairs [symbol] := hform.adopt hpairs hsymbol m.label
  have hvalues : Let.values run ctx pairs = pure pairs :=
    Let.values_eq_pure fun p hp ↦ runStep_selfEvaluating (hpairs p hp) ctx fuel
  have hnext := Let.next_let run hlet ctx
  rw [Let.block, hvalues, pure_bind] at hnext
  have hrun : evaluate (fuel + 3) form ctx m = Let.within run ctx _ [symbol] pairs
      { m with label := (form.adopt m.label).2 } := congrFun hnext _
  rw [hrun, Let.within_symbol]
  exact runStep_symbol hsymbol _ fuel _

/-- A name that the `let` does not bind is looked up in the scope of the form, and nowhere else. -/
theorem evaluate_let_of_not_mem {form : Node} (hform : form.IsLet pairs [symbol])
    (hpairs : ∀ p ∈ pairs, p.2.SelfEvaluating) (hsymbol : symbol.symbol? = some name)
    (hname : name ∉ pairs.map Prod.fst) {ctx : Context} {m : Machine}
    (hscope : ctx.scope < m.store.next) :
    ∃ entered : Machine, ∀ fuel, evaluate (fuel + 3) form ctx m =
      match m.store.get? name ctx.scope with
        | some value => .ok value entered
        | none => .error (.unbound name symbol.span) entered := by
  have hfind : Bindings.find? name (Bindings.ofList pairs) = none :=
    Bindings.find?_foldl_of_not_mem hname []
  refine ⟨⟨m.store.add ⟨none, some ctx.scope, Bindings.ofList pairs⟩, (form.adopt m.label).2,
    m.trace⟩, fun fuel ↦ ?_⟩
  rw [evaluate_let hform hpairs hsymbol]
  exact lookup_entered hfind hscope symbol.span (form.adopt m.label).2

end

/-! ### The value of a name inside and outside -/

/-- **A `let` hides only the names that it binds**, and those that are borrowed from a dynamic scope
other than that of the form. Any other name has the same value in the body and around it, or is
unbound in both. A borrowed one has a value around the `let` and is unbound in the body. -/
theorem let_reads_other {pairs : Bindings} {form symbol : Node} {name : String} {ctx : Context}
    {m : Machine} (hform : form.IsLet pairs [symbol]) (hpairs : ∀ p ∈ pairs, p.2.SelfEvaluating)
    (hsymbol : symbol.symbol? = some name) (hname : name ∉ pairs.map Prod.fst)
    (hscope : ctx.scope < m.store.next) :
    (ctx.dynamic = none ∨ ctx.dynamic = some ctx.scope → ¬ ctx.Borrows m.store name) ∧
    (¬ ctx.Borrows m.store name → ∃ result : Except EvalError Node,
      ((∃ value, result = .ok value) ∨ result = .error (.unbound name symbol.span)) ∧
      ∀ fuel, (evaluate (fuel + 3) form ctx m).result? = some result ∧
        (evaluate (fuel + 2) symbol ctx m).result? = some result) ∧
    (ctx.Borrows m.store name → ∃ value : Node, ∀ fuel,
      (evaluate (fuel + 3) form ctx m).result? = some (.error (.unbound name symbol.span)) ∧
        (evaluate (fuel + 2) symbol ctx m).result? = some (.ok value)) := by
  obtain ⟨entered, hinside⟩ := evaluate_let_of_not_mem hform hpairs hsymbol hname hscope
  refine ⟨fun h ↦ Context.not_borrows h _ _, fun h ↦ ?_, fun h ↦ ?_⟩
  · have houtside (fuel : Nat) := (evaluate_symbol (m := m) hsymbol ctx fuel).trans
      (lookup_of_not_borrows h symbol.span)
    cases hget : m.store.get? name ctx.scope with
    | some value =>
      refine ⟨.ok value, .inl ⟨value, rfl⟩, fun fuel ↦ ?_⟩
      rw [hinside, houtside, hget]
      exact ⟨rfl, rfl⟩
    | none =>
      refine ⟨.error (.unbound name symbol.span), .inr rfl, fun fuel ↦ ?_⟩
      rw [hinside, houtside, hget]
      exact ⟨rfl, rfl⟩
  · obtain ⟨hnone, active, value, hactive, hne, hvalue⟩ := h
    refine ⟨value, fun fuel ↦ ?_⟩
    rw [hinside, evaluate_symbol hsymbol, hnone, lookup_of_dynamic hnone hactive hne hvalue]
    exact ⟨rfl, rfl⟩

/-- `(let ((y #t)) x)`. -/
def Node.letOther : Node :=
  .ofList [.symbol "let" .nowhere,
    .ofList [.ofList [.symbol "y" .nowhere, .boolean true .nowhere] .nowhere] .nowhere,
    .symbol "x" .nowhere] .nowhere

theorem Node.isLet_letOther :
    letOther.IsLet [("y", .boolean true .nowhere)] [.symbol "x" .nowhere] :=
  ⟨_, _, _, rfl, rfl, rfl, .cons ⟨_, rfl, rfl⟩ .nil⟩

/-- In dynamic mode, the name that is bound in the outer scope has its value in the body too. -/
theorem let_reads_other_nested :
    let x : Node := .symbol "x" .nowhere
    let ctx : Context := ⟨1, some 1⟩
    Node.letOther.IsLet [("y", .boolean true .nowhere)] [x] ∧ "x" ∉ ["y"] ∧
      ctx.scope < Machine.nested.store.next ∧ ¬ ctx.Borrows Machine.nested.store "x" ∧
      (evaluate 2 x ctx Machine.nested).result? = some (.ok (.boolean false .nowhere)) ∧
      (evaluate 3 Node.letOther ctx Machine.nested).result? =
        some (.ok (.boolean false .nowhere)) := by
  intro x ctx
  have hname : "x" ∉ ["y"] := by decide
  have hscope : ctx.scope < Machine.nested.store.next := by decide
  obtain ⟨hmode, hsame, -⟩ := let_reads_other (m := Machine.nested)
    Node.isLet_letOther (List.forall_mem_singleton.mpr ⟨rfl, rfl⟩) rfl hname hscope
  have hown : ¬ ctx.Borrows Machine.nested.store "x" := hmode (.inr rfl)
  have hget : Machine.nested.store.get? "x" 1 = some (.boolean false .nowhere) := by
    rw [Store.get?, Store.resolve?]
    show (Store.resolve? Machine.nested.store "x" 0).map Prod.snd = _
    rw [Store.resolve?]
    rfl
  have hread : (evaluate 2 x ctx Machine.nested).result? =
      some (.ok (.boolean false .nowhere)) := by
    rw [evaluate_symbol rfl, lookup_of_get? hget]
    rfl
  obtain ⟨result, -, hresult⟩ := hsame hown
  obtain ⟨hform, hsymbol⟩ := hresult 0
  exact ⟨Node.isLet_letOther, hname, hscope, hown, hread, (hform.trans hsymbol.symm).trans hread⟩

/-- A name that is bound in the dynamic scope alone has a value, and is unbound in the body. -/
theorem let_hides_borrowed :
    let x : Node := .symbol "x" .nowhere
    let ctx : Context := ⟨0, some 1⟩
    Node.letOther.IsLet [("y", .boolean true .nowhere)] [x] ∧ "x" ∉ ["y"] ∧
      (evaluate 2 x ctx Machine.apart).result? = some (.ok (.boolean false .nowhere)) ∧
      ∀ fuel value, (evaluate fuel Node.letOther ctx Machine.apart).result? ≠
        some (.ok value) := by
  intro x ctx
  have hname : "x" ∉ ["y"] := by decide
  have hscope : ctx.scope < Machine.apart.store.next := by decide
  have hnone : Machine.apart.store.get? "x" 0 = none := by
    rw [Store.get?, Store.resolve?]
    rfl
  have hactive : Machine.apart.store.get? "x" 1 = some (.boolean false .nowhere) := by
    rw [Store.get?, Store.resolve?]
    rfl
  refine ⟨Node.isLet_letOther, hname, ?_, fun fuel value hvalue ↦ ?_⟩
  · rw [evaluate_symbol rfl, lookup_of_dynamic hnone rfl (by decide) hactive]
    rfl
  · obtain ⟨entered, hform⟩ := evaluate_let_of_not_mem (m := Machine.apart)
      Node.isLet_letOther (List.forall_mem_singleton.mpr ⟨rfl, rfl⟩) rfl hname hscope
    obtain ⟨m', hends⟩ := Outcome.exists_of_result? hvalue
    have hmore := (evaluate_of_le (Nat.le_add_right fuel 3) hends).symm.trans (hform fuel)
    rw [hnone] at hmore
    cases hmore

end MiniLisp
