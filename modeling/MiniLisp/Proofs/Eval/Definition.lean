import MiniLisp.Eval.Run
import MiniLisp.Proofs.Data.Adoption
import MiniLisp.Proofs.Data.Copy
import MiniLisp.Proofs.Eval.Correspondence

/-!
# Definitions of procedures

A procedure is defined by `(define (name . params) form ...)`, or by giving the name to the value of
a `lambda`, as in `(define name (lambda params form ...))`. Both ways make the same procedure and
bind the name in the place of the form, or fail and say the same (`define_shorthand`). They come to
the closure from different places: the first one peels the parameters off the name, and the second
one evaluates a form that does not know the name. So the closure has a name of its own in the first
case and none in the second.

What decides between success and failure is there before anything is evaluated. There has to be a
body, and the parameters have to be a chain of symbols, which may end in the empty list or in a
symbol, and may consist of that end alone (`Node.IsParameters`).
-/

namespace MiniLisp

/-! ### Parameters -/

namespace Node

/-- The node is a list of parameters: a chain of symbols, whose end may be a symbol as well. -/
inductive IsParameters : Node → Params → Prop
  | nil {s : Span} : IsParameters (.atom .nil s) ⟨[], none⟩
  | rest {name : String} {s : Span} : IsParameters (.atom (.symbol name) s) ⟨[], some name⟩
  | cons {l : Option Label} {a d : Node} {s : Span} {name : String} {p : Params}
      (ha : a.symbol? = some name) (hd : IsParameters d p) :
      IsParameters (.pair l a d s) ⟨name :: p.fixed, p.rest⟩

theorem IsParameters.of_copy {n n' : Node} {p : Params} (h : n.IsParameters p)
    (hcopy : n.Copy n') : n'.IsParameters p := by
  induction h generalizing n' with
  | nil => cases hcopy; exact .nil
  | rest => cases hcopy; exact .rest
  | cons ha _ ih =>
    cases hcopy with
    | pair ha' hd' => exact .cons (ha'.symbol?.symm.trans ha) (ih hd')

end Node

theorem parametersIn_cons (whole : Node) (l : Option Label) (a d : Node) (s : Span) :
    parametersIn whole (.pair l a d s) = match a.symbol? with
      | some name => (parametersIn whole d).map fun p ↦ ⟨name :: p.fixed, p.rest⟩
      | none => .error (.specialForm (.notSymbol .parameter a) a.span) := by
  rw [parametersIn, expectSymbol]
  cases a.symbol? with
  | none => rfl
  | some name => cases parametersIn whole d <;> rfl

/-- Exactly the lists of parameters are accepted. -/
theorem parametersIn_eq_ok_iff {whole n : Node} {p : Params} :
    parametersIn whole n = .ok p ↔ n.IsParameters p := by
  constructor
  · intro h
    induction n generalizing p with
    | atom a =>
      cases a with
      | nil => cases h; exact .nil
      | symbol name => cases h; exact .rest
      | _ => cases h
    | pair l a d s _ ih =>
      rw [parametersIn_cons] at h
      cases ha : a.symbol? with
      | none => rw [ha] at h; cases h
      | some name =>
        rw [ha] at h
        cases hd : parametersIn whole d with
        | error e => rw [hd] at h; cases h
        | ok q =>
          rw [hd] at h
          cases h
          exact .cons ha (ih hd)
    | closure => cases h
    | transformer => cases h
  · intro h
    induction h with
    | nil => rfl
    | rest => rfl
    | cons ha _ ih => rw [parametersIn_cons, ha, ih]; rfl

/-- A copy of a parameter list is accepted alike, or refused with the same words. -/
theorem parametersIn_copy {whole whole' n n' : Node} (hwhole : whole.Copy whole')
    (h : n.Copy n') :
    (parametersIn whole n).mapError EvalError.complaint =
      (parametersIn whole' n').mapError EvalError.complaint := by
  have hfault : EvalError.complaint (.specialForm (.parameters whole) whole.span) =
      EvalError.complaint (.specialForm (.parameters whole') whole'.span) :=
    congrArg (fun text ↦ Complaint.specialForm ("invalid parameter list: " ++ text)) hwhole.text
  induction h with
  | @atom a =>
    cases a with
    | nil => rfl
    | symbol => rfl
    | _ => exact congrArg Except.error hfault
  | @pair l l' a a' d d' s s' ha _ _ ih =>
    have hcar : EvalError.complaint (.specialForm (.notSymbol .parameter a) a.span) =
        EvalError.complaint (.specialForm (.notSymbol .parameter a') a'.span) :=
      congrArg
        (fun text ↦ Complaint.specialForm ("lambda parameter expects a symbol, got " ++ text)) ha.text
    rw [parametersIn_cons, parametersIn_cons, ha.symbol?]
    cases a'.symbol? with
    | none => exact congrArg Except.error hcar
    | some name =>
      generalize parametersIn whole d = x at ih ⊢
      generalize parametersIn whole' d' = x' at ih ⊢
      cases x with
      | error e =>
        cases x' with
        | error e' => exact ih
        | ok p' => cases ih
      | ok p =>
        cases x' with
        | error e' => cases ih
        | ok p' => cases ih; rfl
  | closure => exact congrArg Except.error hfault
  | transformer => exact congrArg Except.error hfault

/-! ### The two forms -/

namespace Node

/-- The form `(lambda params form ...)`, whatever is in the place of the parameters. -/
def IsLambdaForm (n params : Node) (body : List Node) : Prop :=
  ∃ head, n.toList? = some (head :: params :: body) ∧
    head.symbol? = some SpecialForm.lambda.name

/-- The form `(define (name . params) form ...)`. -/
def IsShorthand (n : Node) (name : String) (params : Node) (body : List Node) : Prop :=
  ∃ head l target s, n.toList? = some (head :: .pair l target params s :: body) ∧
    head.symbol? = some SpecialForm.define.name ∧ target.symbol? = some name

/-- The form `(define name (lambda params form ...))`. -/
def IsLonghand (n : Node) (name : String) (params : Node) (body : List Node) : Prop :=
  ∃ head target lambda, n.toList? = some [head, target, lambda] ∧
    head.symbol? = some SpecialForm.define.name ∧ target.symbol? = some name ∧
    lambda.IsLambdaForm params body

/-! ### Adopting both forms -/

variable {n adopted params : Node} {name : String} {body : List Node}

theorem IsAdoption.copy (h : n.IsAdoption adopted) : adopted.Copy n := by
  obtain rfl | ⟨next, rfl⟩ := h
  · exact .refl _
  · exact .adopt n next

theorem IsAdoption.symbol? (h : n.IsAdoption adopted) (hname : n.symbol? = some name) :
    adopted.symbol? = some name :=
  h.copy.symbol?.trans hname

theorem IsAdoption.toList? (h : n.IsAdoption adopted) {items : List Node}
    (hitems : n.toList? = some items) :
    ∃ given, adopted.toList? = some given ∧ List.Forall₂ IsAdoption items given := by
  obtain rfl | ⟨next, rfl⟩ := h
  · exact ⟨items, hitems, List.forall₂_same.mpr fun _ _ ↦ .inl rfl⟩
  · exact toList?_adopt hitems next

theorem IsAdoption.pair {l : Option Label} {a d : Node} {s : Span}
    (h : (Node.pair l a d s).IsAdoption adopted) :
    ∃ l' a' d', adopted = .pair l' a' d' s ∧ a.IsAdoption a' ∧ d.IsAdoption d' := by
  obtain rfl | ⟨next, rfl⟩ := h
  · exact ⟨l, a, d, rfl, .inl rfl, .inl rfl⟩
  · cases l with
    | none =>
      exact ⟨_, _, _, congrArg Prod.fst (adopt_new a d s next), .inr ⟨_, rfl⟩, .inr ⟨_, rfl⟩⟩
    | some l => exact ⟨some l, a, d, rfl, .inl rfl, .inl rfl⟩

theorem IsLambdaForm.of_isAdoption (h : n.IsLambdaForm params body)
    (hadopted : n.IsAdoption adopted) :
    ∃ params' given, adopted.IsLambdaForm params' given ∧ params.IsAdoption params' ∧
      List.Forall₂ IsAdoption body given := by
  obtain ⟨head, hlist, hhead⟩ := h
  obtain ⟨items, hitems, hparts⟩ := hadopted.toList? hlist
  obtain _ | ⟨hhead', _ | ⟨hparams, hbody⟩⟩ := hparts
  exact ⟨_, _, ⟨_, hitems, hhead'.symbol? hhead⟩, hparams, hbody⟩

theorem IsShorthand.of_isAdoption (h : n.IsShorthand name params body)
    (hadopted : n.IsAdoption adopted) :
    ∃ params' given, adopted.IsShorthand name params' given ∧ params.IsAdoption params' ∧
      List.Forall₂ IsAdoption body given := by
  obtain ⟨head, l, target, s, hlist, hhead, htarget⟩ := h
  obtain ⟨items, hitems, hparts⟩ := hadopted.toList? hlist
  obtain _ | ⟨hhead', _ | ⟨hsignature, hbody⟩⟩ := hparts
  obtain ⟨l', target', params', rfl, htarget', hparams⟩ := hsignature.pair
  exact ⟨params', _, ⟨_, l', target', s, hitems, hhead'.symbol? hhead, htarget'.symbol? htarget⟩,
    hparams, hbody⟩

theorem IsLonghand.of_isAdoption (h : n.IsLonghand name params body)
    (hadopted : n.IsAdoption adopted) :
    ∃ params' given, adopted.IsLonghand name params' given ∧ params.IsAdoption params' ∧
      List.Forall₂ IsAdoption body given := by
  obtain ⟨head, target, lambda, hlist, hhead, htarget, hlambda⟩ := h
  obtain ⟨items, hitems, hparts⟩ := hadopted.toList? hlist
  obtain _ | ⟨hhead', _ | ⟨htarget', _ | ⟨hlambda', _ | _⟩⟩⟩ := hparts
  obtain ⟨params', given, hform, hparams, hbody⟩ := hlambda.of_isAdoption hlambda'
  exact ⟨params', given,
    ⟨_, _, _, hitems, hhead'.symbol? hhead, htarget'.symbol? htarget, hform⟩, hparams, hbody⟩

end Node

/-! ### Steps of both forms -/

namespace Definition

/-- Binds a name in a place, which gives no result. -/
def bound (ctx : Context) (name : String) (span : Span) (value : Node) : Action EvalError Node := do
  .define ctx.scope name value
  return .undefined span

section

variable {n params : Node} {name : String} {body : List Node} (run : Runner) (ctx : Context)
  (hdone : ∀ value, run (.done value) = pure value)

include hdone

theorem next_isShorthand (h : n.IsShorthand name params body) :
    (Step.eval n ctx).next run >>= run =
      makeClosure (some name) params body n.span ctx >>= bound ctx name n.span := by
  obtain ⟨head, l, target, s, hlist, hhead, htarget⟩ := h
  have hname : expectSymbol (.target .define) target = .ok name := by rw [expectSymbol, htarget]
  rw [Step.next_special run hlist (SpecialForm.ofName?_symbol? hhead)]
  show (Action.ofExcept (expectSymbol (.target .define) target) >>= fun name ↦ _) >>= run = _
  rw [hname]
  show (makeClosure (some name) params body n.span ctx >>= fun value ↦ _) >>= run = _
  rw [bind_assoc]
  refine bind_congr fun value ↦ ?_
  rw [bind_assoc]
  exact bind_congr fun _ ↦ hdone _

theorem next_isLambdaForm (h : n.IsLambdaForm params body) :
    (Step.eval n ctx).next run >>= run = makeClosure none params body n.span ctx := by
  obtain ⟨head, hlist, hhead⟩ := h
  rw [Step.next_special run hlist (SpecialForm.ofName?_symbol? hhead)]
  show (makeClosure none params body n.span ctx >>= fun value ↦ _) >>= run = _
  rw [bind_assoc]
  exact (bind_congr fun _ ↦ hdone _).trans (bind_pure _)

end

/-- The inner form may be run in another way than the outer one. -/
theorem next_isLonghand {n params : Node} {name : String} {body : List Node} (ctx : Context)
    (h : n.IsLonghand name params body) :
    ∃ span, ∀ run run' : Runner, (∀ value, run (.done value) = pure value) →
      (∀ value, run' (.done value) = pure value) →
      (∀ form, run (.eval form ctx) = (Step.eval form ctx).next run' >>= run') →
      (Step.eval n ctx).next run >>= run =
        makeClosure none params body span ctx >>= bound ctx name n.span := by
  obtain ⟨head, target, lambda, hlist, hhead, htarget, hlambda⟩ := h
  refine ⟨lambda.span, fun run run' hdone hdone' heval ↦ ?_⟩
  rw [Step.next_special run hlist (SpecialForm.ofName?_symbol? hhead)]
  match target, htarget with
  | .atom (.symbol name) s, rfl =>
    show (run (.eval lambda ctx) >>= fun value ↦ _) >>= run = _
    rw [heval, next_isLambdaForm run' ctx hdone' hlambda, bind_assoc]
    refine bind_congr fun value ↦ ?_
    rw [bind_assoc]
    exact bind_congr fun _ ↦ hdone _

/-! ### Closures -/

variable {params params' : Node} {body body' : List Node}

theorem makeClosure_eq (hbody : body ≠ []) (name : Option String) (span : Span) (ctx : Context) :
    makeClosure name params body span ctx = (do
      let params ← .ofExcept (parametersIn params params)
      let label ← .fresh
      return .closure label name params body ctx.scope span) := by
  obtain ⟨form, rest, rfl⟩ := List.exists_cons_of_ne_nil hbody
  rfl

theorem makeClosure_ok {p : Params} (hbody : body ≠ []) (hparams : params.IsParameters p)
    (name : Option String) (span : Span) (ctx : Context) (m : Machine) :
    makeClosure name params body span ctx m =
      .ok (.closure m.label name p body ctx.scope span) { m with label := m.label + 1 } := by
  rw [makeClosure_eq hbody, parametersIn_eq_ok_iff.mpr hparams]
  rfl

/-- Copies of the same parts are refused with the same words, under any name. -/
theorem makeClosure_error (hcopy : params.Copy params') (hbody : body = [] ↔ body' = [])
    (hrefused : body = [] ∨ ∀ p, ¬ params.IsParameters p) (name name' : Option String)
    (span span' : Span) (ctx : Context) :
    ∃ e e' : EvalError, e.complaint = e'.complaint ∧
      (∀ m, makeClosure name params body span ctx m = .error e m) ∧
      ∀ m, makeClosure name' params' body' span' ctx m = .error e' m := by
  by_cases hempty : body = []
  · obtain rfl := hbody.mp hempty
    subst hempty
    exact ⟨.specialForm .noBody span, .specialForm .noBody span', rfl, fun _ ↦ rfl, fun _ ↦ rfl⟩
  · have hparams : ∀ p, ¬ params.IsParameters p := hrefused.resolve_left hempty
    have halike := parametersIn_copy hcopy hcopy
    cases hp : parametersIn params params with
    | ok p => exact absurd (parametersIn_eq_ok_iff.mp hp) (hparams p)
    | error e =>
      cases hp' : parametersIn params' params' with
      | ok p => rw [hp, hp'] at halike; cases halike
      | error e' =>
        rw [hp, hp'] at halike
        refine ⟨e, e', Except.error.inj halike, fun m ↦ ?_, fun m ↦ ?_⟩
        · rw [makeClosure_eq hempty, hp]
          rfl
        · rw [makeClosure_eq (mt hbody.mpr hempty), hp']
          rfl

/-! ### Evaluation of both forms -/

variable {form : Node} {name : String}

theorem evaluate_isShorthand (h : form.IsShorthand name params body) (ctx : Context)
    (m : Machine) :
    ∃ params' given next, params.IsAdoption params' ∧ List.Forall₂ Node.IsAdoption body given ∧
      ∀ fuel, evaluate (fuel + 2) form ctx m =
        (makeClosure (some name) params' given form.span ctx >>= bound ctx name form.span)
          { m with label := next } := by
  obtain ⟨params', given, hform, hparams, hbody⟩ := h.of_isAdoption (.inr ⟨m.label, rfl⟩)
  refine ⟨params', given, (form.adopt m.label).2, hparams, hbody, fun fuel ↦ ?_⟩
  have hrun := next_isShorthand (runStep (fuel + 1)) ctx (fun _ ↦ rfl) hform
  rw [Node.span_adopt] at hrun
  exact congrFun hrun _

theorem evaluate_isLonghand (h : form.IsLonghand name params body) (ctx : Context)
    (m : Machine) :
    ∃ params' given next span, params.IsAdoption params' ∧
      List.Forall₂ Node.IsAdoption body given ∧
      ∀ fuel, evaluate (fuel + 3) form ctx m =
        (makeClosure none params' given span ctx >>= bound ctx name form.span)
          { m with label := next } := by
  obtain ⟨params', given, hform, hparams, hbody⟩ := h.of_isAdoption (.inr ⟨m.label, rfl⟩)
  obtain ⟨span, hspan⟩ := next_isLonghand ctx hform
  refine ⟨params', given, (form.adopt m.label).2, span, hparams, hbody, fun fuel ↦ ?_⟩
  have hrun := hspan (runStep (fuel + 2)) (runStep (fuel + 1)) (fun _ ↦ rfl) (fun _ ↦ rfl)
    fun _ ↦ rfl
  rw [Node.span_adopt] at hrun
  exact congrFun hrun _

end Definition

open Definition in
/-- **A procedure may be defined by its signature or by a `lambda`.** Take the forms
`(define (name . params) form ...)` and `(define name (lambda params form ...))` with the same name,
the same parameters and the same body, whatever these are. If there is a body and the parameters are
such, evaluating either form with enough fuel binds the name in the scope of the place, and changes
nothing else in the store, to a closure with these parameters, this body up to the labels that it
needed, and this scope. The first closure has the name for its own and the second one has none. In
all other cases both forms fail, they say the same, and they leave the store as it was. -/
theorem define_shorthand {short long params : Node} {name : String} {body : List Node}
    (hshort : short.IsShorthand name params body) (hlong : long.IsLonghand name params body)
    (ctx : Context) (m : Machine) :
    (∀ p, body ≠ [] → params.IsParameters p → ∃ given given' label label' next next' span,
      List.Forall₂ Node.IsAdoption body given ∧ List.Forall₂ Node.IsAdoption body given' ∧
      ∀ fuel,
        evaluate (fuel + 3) short ctx m = .ok (.undefined short.span)
          ⟨m.store.define ctx.scope name
            (.closure label (some name) p given ctx.scope short.span), next, m.trace⟩ ∧
        evaluate (fuel + 3) long ctx m = .ok (.undefined long.span)
          ⟨m.store.define ctx.scope name
            (.closure label' none p given' ctx.scope span), next', m.trace⟩) ∧
    ((body = [] ∨ ∀ p, ¬ params.IsParameters p) → ∃ e e' : EvalError, ∃ next next',
      e.complaint = e'.complaint ∧
      ∀ fuel,
        evaluate (fuel + 3) short ctx m = .error e ⟨m.store, next, m.trace⟩ ∧
        evaluate (fuel + 3) long ctx m = .error e' ⟨m.store, next', m.trace⟩) := by
  obtain ⟨params₁, given, next, hparams, hgiven, hrun⟩ := evaluate_isShorthand hshort ctx m
  obtain ⟨params₂, given', next', span, hparams', hgiven', hrun'⟩ := evaluate_isLonghand hlong ctx m
  have hlength {given : List Node} (h : List.Forall₂ Node.IsAdoption body given) :
      body = [] ↔ given = [] := by
    rw [← List.length_eq_zero_iff, h.length_eq, List.length_eq_zero_iff]
  have hempty := hlength hgiven
  have hempty' := hlength hgiven'
  constructor
  · intro p hbody hp
    refine ⟨given, given', next, next', next + 1, next' + 1, span, hgiven, hgiven',
      fun fuel ↦ ⟨?_, ?_⟩⟩
    · rw [hrun (fuel + 1)]
      exact Action.bind_of_ok (makeClosure_ok (mt hempty.mpr hbody)
        (hp.of_copy hparams.copy.symm) (some name) short.span ctx _) _
    · rw [hrun' fuel]
      exact Action.bind_of_ok (makeClosure_ok (mt hempty'.mpr hbody)
        (hp.of_copy hparams'.copy.symm) none span ctx _) _
  · intro hrefused
    have hrefused₁ : given = [] ∨ ∀ p, ¬ params₁.IsParameters p :=
      hrefused.imp hempty.mp fun h p hp ↦ h p (hp.of_copy hparams.copy)
    obtain ⟨e, e', hsame, he, he'⟩ := makeClosure_error
      (hparams.copy.trans hparams'.copy.symm) (hempty.symm.trans hempty') hrefused₁ (some name) none
      short.span span ctx
    refine ⟨e, e', next, next', hsame, fun fuel ↦ ⟨?_, ?_⟩⟩
    · rw [hrun (fuel + 1)]
      exact Action.bind_of_error (he _) _
    · rw [hrun' fuel]
      exact Action.bind_of_error (he' _) _

/-- Both ways define a procedure with the parameters `(x . r)`, and neither does with `(#t)`. -/
theorem define_shorthand_dotted :
    let list (items : List Node) : Node := .ofList items .nowhere
    let symbol (name : String) : Node := .symbol name .nowhere
    let short (params : Node) : Node :=
      list [symbol "define", .pair none (symbol "f") params .nowhere, symbol "x"]
    let long (params : Node) : Node :=
      list [symbol "define", symbol "f", list [symbol "lambda", params, symbol "x"]]
    let dotted : Node := .pair none (symbol "x") (symbol "r") .nowhere
    let malformed : Node := list [.boolean true .nowhere]
    let ctx : Context := ⟨0, none⟩
    let m : Machine := ⟨⟨#[⟨none, none, []⟩]⟩, 0, none⟩
    (∃ label label' next next' span,
      evaluate 3 (short dotted) ctx m = .ok (.undefined .nowhere)
        ⟨m.store.define 0 "f"
          (.closure label (some "f") ⟨["x"], some "r"⟩ [symbol "x"] 0 .nowhere), next, none⟩ ∧
      evaluate 3 (long dotted) ctx m = .ok (.undefined .nowhere)
        ⟨m.store.define 0 "f"
          (.closure label' none ⟨["x"], some "r"⟩ [symbol "x"] 0 span), next', none⟩) ∧
    ∃ e e' : EvalError, ∃ next next', e.complaint = e'.complaint ∧
      evaluate 3 (short malformed) ctx m = .error e ⟨m.store, next, none⟩ ∧
      evaluate 3 (long malformed) ctx m = .error e' ⟨m.store, next', none⟩ := by
  intro list symbol short long dotted malformed ctx m
  have hshort (params : Node) : (short params).IsShorthand "f" params [symbol "x"] :=
    ⟨symbol "define", none, symbol "f", .nowhere, rfl, rfl, rfl⟩
  have hlong (params : Node) : (long params).IsLonghand "f" params [symbol "x"] :=
    ⟨symbol "define", symbol "f", list [symbol "lambda", params, symbol "x"], rfl, rfl, rfl,
      symbol "lambda", rfl, rfl⟩
  have hmalformed (p : Params) : ¬ malformed.IsParameters p := by
    intro h
    change (Node.pair none (.boolean true _) (.nil _) _).IsParameters p at h
    cases h with
    | cons ha => cases ha
  constructor
  · obtain ⟨given, given', label, label', next, next', span, hgiven, hgiven', hrun⟩ :=
      (define_shorthand (hshort dotted) (hlong dotted) ctx m).1 ⟨["x"], some "r"⟩
        (List.cons_ne_nil _ _) (.cons rfl .rest)
    have hx : ∀ item ∈ [symbol "x"], item.missing = 0 := List.forall_mem_singleton.mpr rfl
    obtain rfl := Node.eq_of_isAdoption hgiven hx
    obtain rfl := Node.eq_of_isAdoption hgiven' hx
    exact ⟨label, label', next, next', span, hrun 0⟩
  · obtain ⟨e, e', next, next', hsame, hrun⟩ :=
      (define_shorthand (hshort malformed) (hlong malformed) ctx m).2 (.inr hmalformed)
    exact ⟨e, e', next, next', hsame, hrun 0⟩

end MiniLisp
