import MiniLisp.Eval.Fuel
import MiniLisp.Proofs.Eval.LetForm
import MiniLisp.Proofs.Eval.Mode
import MiniLisp.Proofs.Eval.Relabel

/-!
# `let` as an application

A `let` does what the application of a `lambda` with the same names and the same body does
(`let_iff_application`). Both evaluate the same forms in the same order, then enter a scope that
stands in the one of the form, and do the body there (`Let.block`).

They only differ in which labels they take. The application makes a procedure, whose label is one
more, and the pairs of the two forms get their labels in another order. So the ends are compared up
to a renaming of the labels that are given from the evaluation on.
-/

namespace MiniLisp

/-- What follows an action only has to be the same for the values that it has. -/
theorem Action.bind_congr_of_ok {ε α β : Type} {x : Action ε α} {f g : α → Action ε β}
    (h : ∀ m value m', x m = .ok value m' → f value m' = g value m') :
    (x >>= f) = (x >>= g) := by
  funext m
  cases hx : x m with
  | ok value m' => rw [bind_of_ok hx, bind_of_ok hx, h m value m' hx]
  | error e m' => rw [bind_of_error hx, bind_of_error hx]
  | outOfFuel => rw [bind_of_outOfFuel hx, bind_of_outOfFuel hx]

namespace Let

/-! ### What both forms do -/

section

variable (run : Runner) (ctx : Context)

/-- The values of some forms, each with its name. -/
def values (pairs : Bindings) : Action EvalError Bindings :=
  pairs.mapM fun p ↦ (p.1, ·) <$> run (.eval p.2 ctx)

/-- Does a body in a new scope inside the place. -/
def within (span : Span) (body : List Node) (pairs : Bindings) : Action EvalError Node := do
  let scope ← .enter ctx.scope none pairs
  let last ← sequence run (ctx.inside scope) span body
  run last

/-- Does a body with the values of some forms. They may be computed in another way than the body. -/
def block (run' : Runner) (span : Span) (pairs : Bindings) (body : List Node) :
    Action EvalError Node :=
  values run ctx pairs >>= within run' ctx span body

theorem values_cons (p : String × Node) (pairs : Bindings) :
    values run ctx (p :: pairs) = do
      let value ← run (.eval p.2 ctx)
      let rest ← values run ctx pairs
      return (p.1, value) :: rest := by
  rw [values, List.mapM_cons, bind_map_left]
  rfl

theorem letValues_eq {pairs : Bindings} {items : List Node}
    (h : List.Forall₂ Node.Binds pairs items) :
    SpecialForm.letValues run ctx items = values run ctx pairs := by
  induction h with
  | nil => rfl
  | @cons pair item pairs items hitem _ ih =>
    obtain ⟨name, hlist, hname⟩ := hitem
    have hsymbol : expectSymbol (.target .letForm) name = .ok pair.1 := by
      rw [expectSymbol, hname]
    unfold SpecialForm.letValues
    rw [hlist]
    dsimp only
    rw [hsymbol, ih, values_cons]
    rfl

theorem arguments_eq {pairs : Bindings} {operands : Node}
    (h : operands.toList? = some (pairs.map Prod.snd)) :
    arguments run ctx operands = List.map Prod.snd <$> values run ctx pairs := by
  induction pairs generalizing operands with
  | nil =>
    obtain ⟨s, rfl⟩ := Node.eq_nil_of_toList? h
    rfl
  | cons p pairs ih =>
    obtain ⟨l, cdr, s, rfl, hcdr⟩ := Node.exists_pair_of_toList? h
    rw [arguments, ih hcdr, values_cons]
    simp only [map_bind, map_pure, bind_map_left, List.map_cons]

/-- Each value has the name of its form. -/
theorem names_of_values {pairs named : Bindings} {m m' : Machine}
    (h : values run ctx pairs m = .ok named m') :
    named.map Prod.fst = pairs.map Prod.fst := by
  induction pairs generalizing named m m' with
  | nil =>
    cases h
    rfl
  | cons p pairs ih =>
    rw [values_cons] at h
    cases hvalue : run (.eval p.2 ctx) m with
    | error e m₁ => cases (Action.bind_of_error hvalue _).symm.trans h
    | outOfFuel => cases (Action.bind_of_outOfFuel hvalue _).symm.trans h
    | ok value m₁ =>
      rw [Action.bind_of_ok hvalue] at h
      cases hrest : values run ctx pairs m₁ with
      | error e m₂ => cases (Action.bind_of_error hrest _).symm.trans h
      | outOfFuel => cases (Action.bind_of_outOfFuel hrest _).symm.trans h
      | ok rest m₂ =>
        rw [Action.bind_of_ok hrest] at h
        cases h
        rw [List.map_cons, List.map_cons, ih hrest]

theorem sequence_span {body : List Node} (h : body ≠ []) (span span' : Span) :
    sequence run ctx span body = sequence run ctx span' body := by
  induction body with
  | nil => exact absurd rfl h
  | cons form rest ih =>
    cases rest with
    | nil => rfl
    | cons second rest => exact bind_congr fun _ ↦ ih (List.cons_ne_nil second rest)

/-- The span is only that of a missing result. -/
theorem within_span {body : List Node} (h : body ≠ []) (span span' : Span) :
    within run ctx span body = within run ctx span' body := by
  funext pairs
  exact bind_congr fun scope ↦ congrArg (· >>= run) (sequence_span run _ h span span')

end

section

variable {f : Renaming} {run run' more more' : Runner} (ctx : Context) (span : Span)

theorem values_renames (h : f.Runs run) (pairs : Bindings) :
    f.Renames (Bindings.relabel f) (values run ctx pairs) (values run ctx (pairs.relabel f)) := by
  induction pairs with
  | nil => exact .pure rfl
  | cons p pairs ih =>
    rw [Bindings.relabel_cons, values_cons, values_cons]
    exact .bind (h (.eval p.2 ctx)) fun value ↦ .bind ih fun rest ↦ .pure rfl

theorem within_renames (h : f.Runs run) (body : List Node) (pairs : Bindings) :
    f.Renames (Node.relabel f) (within run ctx span body pairs)
      (within run ctx span (body.map (Node.relabel f)) (pairs.relabel f)) :=
  .bind (.enter ctx.scope none pairs) fun scope ↦
    .bind (Renaming.sequence_renames h (ctx.inside scope) span body) fun last ↦ h last

theorem values_below (h : Runner.Below run more) (pairs : Bindings) :
    Action.Below (values run ctx pairs) (values more ctx pairs) := by
  induction pairs with
  | nil => exact .refl _
  | cons p pairs ih =>
    rw [values_cons, values_cons]
    exact .bind (h _) fun value ↦ .bind ih fun rest ↦ .refl _

/-- A block ends wherever it ends with less fuel. -/
theorem block_below (h : Runner.Below run more) (h' : Runner.Below run' more') (pairs : Bindings)
    (body : List Node) :
    Action.Below (block run ctx run' span pairs body) (block more ctx more' span pairs body) :=
  .bind (values_below ctx h pairs) fun _ ↦ .bind (.refl _) fun scope ↦
    .bind (sequence_below h' (ctx.inside scope) span body) fun last ↦ h' last

end

/-! ### A `let` -/

section

variable {pairs : Bindings} {body : List Node} {n : Node}

/-- A `let` computes the values and does the body. -/
theorem next_let (run : Runner) (h : n.IsLet pairs body) (ctx : Context) :
    (Step.eval n ctx).next run >>= run = block run ctx run n.span pairs body := by
  obtain ⟨head, bindings, items, hlist, hhead, hitems, hpairs⟩ := h
  have hbindings : properList .letBindings bindings = .ok items := by rw [properList, hitems]
  rw [Step.next_special run hlist (SpecialForm.ofName?_symbol? hhead), block, ← letValues_eq run ctx hpairs]
  unfold SpecialForm.rule
  dsimp only
  rw [hbindings]
  show (SpecialForm.letValues run ctx items >>= fun named ↦ _) >>= run = _
  rw [bind_assoc]
  refine bind_congr fun named ↦ ?_
  rw [bind_assoc]
  rfl

/-! ### An application -/

theorem parametersIn_eq (whole : Node) {names : List String} {params : Node} {items : List Node}
    (hitems : params.toList? = some items)
    (hnames : List.Forall₂ (fun name item ↦ item.symbol? = some name) names items) :
    parametersIn whole params = .ok ⟨names, none⟩ := by
  induction hnames generalizing params with
  | nil =>
    obtain ⟨s, rfl⟩ := Node.eq_nil_of_toList? hitems
    rfl
  | cons hname _ ih =>
    obtain ⟨l, cdr, s, rfl, hcdr⟩ := Node.exists_pair_of_toList? hitems
    rw [parametersIn, expectSymbol, hname, ih hcdr]
    rfl

/-- A `lambda` with a body makes a procedure, at the cost of one label. -/
theorem next_lambda (run : Runner) {names : List String} (h : n.IsLambda names body)
    (hbody : body ≠ []) (ctx : Context) :
    (Step.eval n ctx).next run = do
      let label ← .fresh
      return .done (.closure label none ⟨names, none⟩ body ctx.scope n.span) := by
  obtain ⟨head, params, items, hlist, hhead, hitems, hnames⟩ := h
  obtain ⟨form, rest, rfl⟩ := List.exists_cons_of_ne_nil hbody
  rw [Step.next_special run hlist (SpecialForm.ofName?_symbol? hhead)]
  unfold SpecialForm.rule makeClosure
  dsimp only
  rw [parametersIn_eq params hitems hnames]
  rfl

/-- A procedure is applied to as many values as it has names by doing its body with them. -/
theorem enter_named (run : Runner) (ctx : Context) (span : Span) {c : Closure} {named : Bindings}
    (hparams : c.params = ⟨named.map Prod.fst, none⟩) (hname : c.name = none)
    (hscope : ctx.parent c.scope = ctx.scope) :
    c.enter run ctx span (named.map Prod.snd) >>= run = within run ctx span c.body named := by
  have hpairs : c.params.bindings (named.map Prod.snd) (.nil span) = named := by
    rw [hparams, Params.bindings, List.append_nil]
    exact (List.zip_of_prod rfl rfl).symm
  have hleft : c.params.leftOver (named.map Prod.snd) span = pure (.nil span) := by
    rw [hparams]
    rfl
  have haccepts : c.params.arity.accepts (named.map Prod.snd).length = true := by
    rw [hparams]
    exact beq_iff_eq.mpr (by rw [List.length_map, List.length_map])
  unfold Closure.enter
  rw [if_pos haccepts, hleft, pure_bind, hpairs, hname, hscope, bind_assoc]
  rfl

/-- One way to run steps does the first step, and leaves what it hands back to another way. -/
structure Extends (more run : Runner) : Prop where
  done value : more (.done value) = pure value
  eval form ctx : more (.eval form ctx) = (Step.eval form ctx).next run >>= run
  apply p args ctx span :
    more (.apply p args ctx span) = (Step.apply p args ctx span).next run >>= run

theorem runStep_extends (fuel : Nat) : Extends (runStep (fuel + 1)) (runStep fuel) :=
  ⟨fun _ ↦ rfl, fun _ _ ↦ rfl, fun _ _ _ _ ↦ rfl⟩

/-- An application of a `lambda` makes the procedure, and then does what a `let` does. -/
theorem run_application {run₀ run₁ run₂ run₃ : Runner} (h₁ : Extends run₁ run₀)
    (h₂ : Extends run₂ run₁) (h₃ : Extends run₃ run₂) (h : n.IsApplication pairs body)
    (hbody : body ≠ []) {ctx : Context} (hctx : ctx.parent ctx.scope = ctx.scope) :
    run₃ (.eval n ctx) = (do
      let _ ← .fresh
      let named ← values run₂ ctx pairs
      .note (.applying none named.length)
      within run₁ ctx n.span body named) := by
  obtain ⟨head, hlist, hlambda⟩ := h
  obtain ⟨l, operands, s, rfl, hoperands⟩ := Node.exists_pair_of_toList? hlist
  have hsymbol : head.symbol? = none := by
    obtain ⟨_, _, _, hhead, -⟩ := hlambda
    obtain ⟨_, _, _, rfl, -⟩ := Node.exists_pair_of_toList? hhead
    rfl
  have hhead : headValue run₂ ctx head = do
      let label ← .fresh
      return .closure label none ⟨pairs.map Prod.fst, none⟩ body ctx.scope head.span := by
    rw [headValue, hsymbol, h₂.eval, next_lambda run₁ hlambda hbody, bind_assoc]
    exact bind_congr fun label ↦ h₁.done _
  have hnext : (Step.eval (.pair l head operands s) ctx).next run₂ =
      callStep run₂ ctx s head operands := by
    show evalStep run₂ (.pair l head operands s) ctx = _
    unfold evalStep
    dsimp only
    rw [hsymbol]
    rfl
  rw [h₃.eval, hnext, callStep, hhead, bind_assoc, bind_assoc]
  refine bind_congr fun label ↦ ?_
  rw [pure_bind]
  dsimp only [Node.transformer?, Node.procedure?]
  rw [arguments_eq run₂ ctx hoperands, bind_assoc, bind_map_left]
  refine Action.bind_congr_of_ok fun m named m' hnamed ↦ ?_
  let c : Closure := ⟨label, none, ⟨pairs.map Prod.fst, none⟩, body, ctx.scope⟩
  have hnames : c.params = ⟨named.map Prod.fst, none⟩ :=
    congrArg (Params.mk · none) (names_of_values run₂ ctx hnamed).symm
  have happly : (Step.apply (.closure c) (named.map Prod.snd) ctx s).next run₁ >>= run₁ =
      (do
        .note (.applying none named.length)
        within run₁ ctx s body named) := by
    show (Action.note (.applying none (named.map Prod.snd).length) >>= fun _ ↦
      c.enter run₁ ctx s (named.map Prod.snd)) >>= run₁ = _
    rw [bind_assoc, List.length_map, enter_named run₁ ctx s hnames rfl hctx]
  rw [pure_bind, h₂.apply, happly]
  rfl

/-! ### The same end -/

variable {f : Renaming} (hbody : body ≠ []) (ctx : Context) {m : Machine}

include hbody

/-- A `let` is a block, with the labels in it renamed. -/
theorem run_let_relabel {run more : Runner} (hmore : Extends more run) (hruns : f.Runs run)
    (h : n.IsLet pairs body) (hm : f.limit ≤ m.label) (span : Span) :
    (more (.eval n ctx) m).relabel f =
      block run ctx run span (pairs.relabel f) (body.map (Node.relabel f)) (m.relabel f) := by
  have hblock : f.Renames (Node.relabel f) (block run ctx run span pairs body)
      (block run ctx run span (pairs.relabel f) (body.map (Node.relabel f))) :=
    .bind (values_renames ctx hruns pairs) fun named ↦ within_renames ctx span hruns body named
  have hrun : more (.eval n ctx) = block run ctx run span pairs body := by
    rw [hmore.eval, next_let run h, block, block, within_span run ctx hbody n.span span]
  rw [hrun]
  exact (hblock m hm).eq.symm

/-- An application is the block as well, once the procedure is made. -/
theorem run_application_relabel {run₀ run₁ run₂ run₃ : Runner} (h₁ : Extends run₁ run₀)
    (h₂ : Extends run₂ run₁) (h₃ : Extends run₃ run₂) (hruns₁ : f.Runs run₁) (hruns₂ : f.Runs run₂)
    (h : n.IsApplication pairs body) (hctx : ctx.parent ctx.scope = ctx.scope)
    (hm : f.limit ≤ m.label + 1) (span : Span) :
    (run₃ (.eval n ctx) m).relabel f =
      block run₂ ctx run₁ span (pairs.relabel f) (body.map (Node.relabel f))
        ({ m with label := m.label + 1 }.relabel f) := by
  have hblock : f.Renames (Node.relabel f) (do
        let named ← values run₂ ctx pairs
        .note (.applying none named.length)
        within run₁ ctx span body named)
      (block run₂ ctx run₁ span (pairs.relabel f) (body.map (Node.relabel f))) := by
    refine .bind (values_renames ctx hruns₂ pairs) fun named m hm ↦ ?_
    -- The event does not show in the other machine.
    exact within_renames ctx span hruns₁ body named
      { m with trace := m.trace.map (.applying none named.length :: ·) } hm
  have hrun := run_application h₁ h₂ h₃ h hbody hctx
  rw [within_span run₁ ctx hbody n.span span] at hrun
  rw [hrun]
  exact (hblock { m with label := m.label + 1 } hm).eq.symm

end

end Let

/-- **A `let` is the application of a `lambda`.** Take the forms `(let ((name form) ...) body ...)`
and `((lambda (name ...) body ...) form ...)` with the same names, which may be repeated, and the
same forms, and at least one form in the body. Whenever one of them comes to an end in some place, in
either mode, the other one does as well, with the same value or the same error and with the same
scopes, each with its name, its outer scope and its bindings. Labels that were given before are the
same too, and those given since correspond. -/
theorem let_iff_application {pairs : Bindings} {body : List Node} {form call : Node}
    (hform : form.IsLet pairs body) (hcall : call.IsApplication pairs body) (hbody : body ≠ [])
    (hform' : form.Adoptable) (hcall' : call.Adoptable) (mode : Mode) (scope : ScopeId)
    {m : Machine} (hstore : m.store.Holds (Node.LabelsBelow m.label))
    (hparts : ∀ part ∈ pairs.map Prod.snd ++ body, part.LabelsBelow m.label) :
    ∃ f g : Renaming, (∀ l < m.label, f l = l ∧ g l = l) ∧
      ∀ outcome : Outcome EvalError Node, outcome ≠ .outOfFuel →
        ((∃ fuel, (evaluate fuel form (mode.context scope) m).relabel f = outcome) ↔
          ∃ fuel, (evaluate fuel call (mode.context scope) m).relabel g = outcome) := by
  obtain ⟨A⟩ := Node.exists_alignment hform hcall hform' hcall' hparts
  have hbody₁ : A.body₁ ≠ [] := fun h ↦ hbody (List.eq_nil_of_length_eq_zero
    (A.length_eq.1.symm.trans (congrArg List.length h)))
  have hbody₂ : A.body₂ ≠ [] := fun h ↦ hbody (List.eq_nil_of_length_eq_zero
    (A.length_eq.2.symm.trans (congrArg List.length h)))
  refine ⟨A.f, A.g, A.old, fun outcome houtcome ↦ ?_⟩
  let ctx := mode.context scope
  have hctx : ctx.parent ctx.scope = ctx.scope := by cases mode <;> rfl
  let first : Machine := { m with label := (form.adopt m.label).2 }
  let second : Machine := { m with label := (call.adopt m.label).2 }
  -- The machine on which both blocks are done.
  let start := first.relabel A.f
  have hstart : { second with label := second.label + 1 }.relabel A.g = start := by
    have hstore₁ : m.store.relabel A.f = m.store :=
      Store.Holds.relabel_eq (hstore.imp fun n hn ↦ hn.relabel_eq fun l hl ↦ (A.old l hl).1)
    have hstore₂ : m.store.relabel A.g = m.store :=
      Store.Holds.relabel_eq (hstore.imp fun n hn ↦ hn.relabel_eq fun l hl ↦ (A.old l hl).2)
    show (⟨m.store.relabel A.g, A.g _, none⟩ : Machine) = ⟨m.store.relabel A.f, A.f _, none⟩
    rw [hstore₁, hstore₂, A.next_eq]
  let done (fuel fuel' : Nat) : Outcome EvalError Node :=
    Let.block (runStep fuel) ctx (runStep fuel') .nowhere (A.pairs₂.relabel A.g)
      (A.body₂.map (Node.relabel A.g)) start
  have hmono {fuel more fuel' more' : Nat} (h : fuel ≤ more) (h' : fuel' ≤ more')
      (hends : done fuel fuel' = outcome) : done more more' = outcome :=
    (Let.block_below ctx .nowhere (runStep_mono h) (runStep_mono h') _ _ start
      (ne_of_eq_of_ne hends houtcome)).trans hends
  have hfirst (fuel : Nat) : (evaluate (fuel + 1) form ctx m).relabel A.f = done fuel fuel := by
    have hrun := Let.run_let_relabel (m := first) hbody₁ ctx (Let.runStep_extends fuel)
      (Renaming.runStep_renames fuel) A.isLet A.limit_le.1 .nowhere
    rw [A.pairs_eq, A.body_eq] at hrun
    exact hrun
  have hsecond (fuel : Nat) :
      (evaluate (fuel + 3) call ctx m).relabel A.g = done (fuel + 2) (fuel + 1) := by
    have hrun := Let.run_application_relabel (m := second) hbody₂ ctx (Let.runStep_extends fuel)
      (Let.runStep_extends (fuel + 1)) (Let.runStep_extends (fuel + 2))
      (Renaming.runStep_renames _) (Renaming.runStep_renames _) A.isApplication hctx
      A.limit_le.2 .nowhere
    rw [hstart] at hrun
    exact hrun
  constructor
  · rintro ⟨fuel, hends⟩
    cases fuel with
    | zero => exact absurd hends.symm houtcome
    | succ fuel =>
      rw [hfirst] at hends
      exact ⟨fuel + 3, (hsecond fuel).trans (hmono (by omega) (by omega) hends)⟩
  · rintro ⟨fuel, hends⟩
    have hne : evaluate fuel call ctx m ≠ .outOfFuel := fun h ↦
      houtcome (hends.symm.trans (congrArg (Outcome.relabel A.g) h))
    have hmore : (evaluate (fuel + 3) call ctx m).relabel A.g = outcome :=
      (congrArg (Outcome.relabel A.g)
        (runStep_mono (Nat.le_add_right fuel 3) _ second hne)).trans hends
    rw [hsecond] at hmore
    exact ⟨fuel + 3, (hfirst (fuel + 2)).trans (hmono (Nat.le_refl _) (Nat.le_succ _) hmore)⟩

/-- The last one of two values for a name counts in the application too, and the new scope is one
without a name that stands in that of the form. -/
theorem let_iff_application_repeated :
    let number (k : Int) : Node := .number (.ofInt k) .nowhere
    let x : Node := .symbol "x" .nowhere
    let list (items : List Node) : Node := .ofList items .nowhere
    let form : Node :=
      list [.symbol "let" .nowhere, list [list [x, number 1], list [x, number 2]], x]
    let call : Node :=
      list [list [.symbol "lambda" .nowhere, list [x, x], x], number 1, number 2]
    let m : Machine := ⟨⟨#[⟨some "global", none, []⟩]⟩, 0, none⟩
    let entered : Store := ⟨#[⟨some "global", none, []⟩, ⟨none, some 0, [("x", number 2)]⟩]⟩
    (∃ label, evaluate 3 form (Mode.dynamic.context 0) m = .ok (number 2) ⟨entered, label, none⟩) ∧
      ∃ (g : Renaming) (fuel : Nat) (label : Label),
        (evaluate fuel call (Mode.dynamic.context 0) m).relabel g =
          .ok (number 2) ⟨entered, label, none⟩ := by
  intro number x list form call m entered
  have hform : form.IsLet [("x", number 1), ("x", number 2)] [x] :=
    ⟨_, _, _, rfl, rfl, rfl, .cons ⟨x, rfl, rfl⟩ (.cons ⟨x, rfl, rfl⟩ .nil)⟩
  have hcall : call.IsApplication [("x", number 1), ("x", number 2)] [x] :=
    ⟨_, rfl, _, _, _, rfl, rfl, rfl, .cons rfl (.cons rfl .nil)⟩
  have hparts : ∀ part ∈ [number 1, number 2, x], part.LabelsBelow m.label := by
    simp [number, x, Node.LabelsBelow, Node.number, Node.symbol, Node.parts, Node.label?]
  have hstore : m.store.Holds (Node.LabelsBelow m.label) := 
    Store.holds_empty.add fun _ h ↦ absurd h List.not_mem_nil
  have hends : evaluate 3 form (Mode.dynamic.context 0) m = .ok (number 2) ⟨entered, 9, none⟩ := by
    have hget : entered.get? "x" 1 = some (number 2) := by
      rw [Store.get?, Store.resolve?]
      rfl
    have hlookup : lookup "x" .nowhere ⟨1, some 1⟩ ⟨entered, 9, none⟩ =
        .ok (number 2) ⟨entered, 9, none⟩ := by
      rw [lookup, hget]
    show Action.bind (Action.bind (lookup "x" .nowhere ⟨1, some 1⟩) _) (runStep 1)
      ⟨entered, 9, none⟩ = _
    unfold Action.bind
    rw [hlookup]
    rfl
  obtain ⟨f, g, -, hiff⟩ := let_iff_application hform hcall (List.cons_ne_nil _ _)
    (by decide) (by decide) .dynamic 0 hstore hparts
  have hstore' : entered.relabel f = entered := by
    simp [entered, Store.relabel, Scope.relabel, Bindings.relabel, number, Node.number]
  have hrelabel : (evaluate 3 form (Mode.dynamic.context 0) m).relabel f =
      .ok (number 2) ⟨entered, f 9, none⟩ := by
    rw [hends, Outcome.relabel, Machine.relabel, hstore']
    exact congrArg (Outcome.ok · _) (Node.relabel_atom f _ _)
  have hends' : (.ok (number 2) ⟨entered, f 9, none⟩ : Outcome EvalError Node) ≠ .outOfFuel := by
    rintro ⟨⟩
  obtain ⟨fuel, hfuel⟩ := (hiff _ hends').mp ⟨3, hrelabel⟩
  exact ⟨⟨9, hends⟩, g, fuel, f 9, hfuel⟩

end MiniLisp
