import MiniLisp.Proofs.Eval.Discipline
import MiniLisp.Proofs.Scope.Contents

/-!
# Evaluation under a discipline

An evaluation that begins with what a discipline allows stays with it: whatever is run on the way is
a step that the discipline allows, every value is one of its values, and an error has one of its
spans (`Discipline.evaluate_agree`).

The first of these is a statement about the runs inside a run, which leave no trace in the result.
It is therefore put as a statement about two ways to run steps: rules that are given ways which only
differ on steps that are not allowed come to the same end, so they never ask for any other step. The
two are followed side by side (`Discipline.Agree`), and what a single one does is the case where
both are the same.

Rules only ask for forms to be evaluated. A call is always handed back, and it is made in the place
of the step that hands it back (`Discipline.next_agree`).
-/

namespace MiniLisp

namespace Step

/-- Where a step is done. -/
def place? : Step → Option Context
  | done _ => none
  | eval _ ctx => some ctx
  | apply _ _ ctx _ => some ctx
  | loop _ _ ctx _ => some ctx

/-- The step is the evaluation of a form, or its value. -/
def IsForm : Step → Prop
  | done _ => True
  | eval _ _ => True
  | apply .. => False
  | loop .. => False

/-- Where a call is made. -/
def callPlace? : Step → Option Context
  | apply _ _ ctx _ => some ctx
  | _ => none

theorem IsForm.callPlace? {step : Step} (h : step.IsForm) : step.callPlace? = none := by
  cases step with
  | apply => exact h.elim
  | _ => rfl

/-- If the step is a call, then it is made in a place. -/
def CalledIn (place : Context) : Step → Prop
  | apply _ _ ctx _ => ctx = place
  | _ => True

theorem CalledIn.eq {step : Step} {place ctx : Context} (h : step.CalledIn place)
    (hctx : step.callPlace? = some ctx) : ctx = place := by
  cases step with
  | apply => cases hctx; exact h
  | _ => cases hctx

theorem IsForm.calledIn {step : Step} (h : step.IsForm) (place : Context) : step.CalledIn place := by
  cases step with
  | apply => exact h.elim
  | _ => trivial

end Step

namespace Discipline

variable (D : Discipline) {ε α β : Type}

/-- Only values are bound in the end. A value that is given has a property, and an error is in its
place. -/
def Ends (post : α → Prop) : Outcome EvalError α → Prop
  | .ok value m => m.store.Holds D.value ∧ post value
  | .error cause m => m.store.Holds D.value ∧ D.span cause.span
  | .outOfFuel => True

/-- Where only values are bound, two actions end alike, and as the discipline allows. -/
def Agree (post : α → Prop) (x y : Action EvalError α) : Prop :=
  ∀ m, m.store.Holds D.value → x m = y m ∧ D.Ends post (x m)

/-- A step that the discipline allows. -/
def Good : Step → Prop
  | .done value => D.value value
  | .eval form ctx => D.code form ∧ D.place ctx
  | .apply procedure args ctx span =>
    D.Applies procedure ∧ (∀ n ∈ args, D.value n) ∧ D.place ctx ∧ D.span span
  | .loop condition body ctx span =>
    D.code condition ∧ (∀ form ∈ body, D.code form) ∧ D.place ctx ∧ D.span span

/-- An allowed step that a rule in a place may hand back. -/
def Hands (place : Context) (step : Step) : Prop := D.Good step ∧ step.CalledIn place

/-- Two ways to run steps agree on all forms that the discipline allows. -/
def Runs (run run' : Runner) : Prop :=
  ∀ step, step.IsForm → D.Good step → D.Agree D.value (run step) (run' step)

variable {D}

namespace Agree

theorem pure {post : α → Prop} {value : α} (h : post value) :
    D.Agree post (Pure.pure value) (Pure.pure value) :=
  fun _ hm ↦ ⟨rfl, hm, h⟩

theorem fail {post : α → Prop} {cause : EvalError} (h : D.span cause.span) :
    D.Agree post (Action.fail cause) (Action.fail cause) :=
  fun _ hm ↦ ⟨rfl, hm, h⟩

theorem imp {post post' : α → Prop} {x y : Action EvalError α} (h : D.Agree post x y)
    (hpost : ∀ value, post value → post' value) : D.Agree post' x y := by
  intro m hm
  obtain ⟨heq, hends⟩ := h m hm
  refine ⟨heq, ?_⟩
  cases e : x m with
  | ok value after =>
    rw [e] at hends
    exact ⟨hends.1, hpost value hends.2⟩
  | error cause after =>
    rw [e] at hends
    exact hends
  | outOfFuel => trivial

theorem bind {post : α → Prop} {post' : β → Prop} {x y : Action EvalError α}
    {f g : α → Action EvalError β} (h : D.Agree post x y)
    (hf : ∀ value, post value → D.Agree post' (f value) (g value)) :
    D.Agree post' (x >>= f) (y >>= g) := by
  intro m hm
  obtain ⟨heq, hends⟩ := h m hm
  show Action.bind x f m = Action.bind y g m ∧ D.Ends post' (Action.bind x f m)
  unfold Action.bind
  rw [← heq]
  cases e : x m with
  | ok value after =>
    rw [e] at hends
    exact hf value hends.2 after hends.1
  | error cause after =>
    rw [e] at hends
    exact ⟨rfl, hends⟩
  | outOfFuel => exact ⟨rfl, trivial⟩

theorem map {post : α → Prop} {post' : β → Prop} {x y : Action EvalError α} {f : α → β}
    (h : D.Agree post x y) (hf : ∀ value, post value → post' (f value)) :
    D.Agree post' (f <$> x) (f <$> y) := by
  rw [← bind_pure_comp, ← bind_pure_comp]
  exact h.bind fun value hv ↦ .pure (hf value hv)

theorem ofExcept {post : α → Prop} {e : Except EvalError α} (h : D.Allows post e) :
    D.Agree post (Action.ofExcept e) (Action.ofExcept e) := by
  cases e with
  | ok value => exact .pure h
  | error cause => exact .fail h

/-! ### The actions on the machine -/

theorem store : D.Agree (fun _ ↦ True) Action.store Action.store :=
  fun _ hm ↦ ⟨rfl, hm, trivial⟩

theorem enter (outer : ScopeId) (name : Option String) {pairs : List (String × Node)}
    (h : ∀ p ∈ pairs, D.value p.2) :
    D.Agree (fun _ ↦ True) (Action.enter outer name pairs) (Action.enter outer name pairs) :=
  fun _ hm ↦ ⟨rfl, hm.add (Bindings.forall_mem_ofList h), trivial⟩

theorem define (id : ScopeId) (name : String) {value : Node} (h : D.value value) :
    D.Agree (fun _ ↦ True) (Action.define id name value) (Action.define id name value) :=
  fun _ hm ↦ ⟨rfl, hm.define id name h, trivial⟩

theorem assign (id : ScopeId) (name : String) {value : Node} {span : Span} (h : D.value value)
    (hs : D.span span) : D.Agree (fun _ ↦ True) (Action.assign id name value span)
      (Action.assign id name value span) := by
  intro m hm
  refine ⟨rfl, ?_⟩
  unfold Action.assign
  split
  · exact ⟨hm.define _ name h, trivial⟩
  · exact ⟨hm, hs⟩

theorem fresh : D.Agree (fun _ ↦ True) Action.fresh Action.fresh :=
  fun _ hm ↦ ⟨rfl, hm, trivial⟩

theorem adopt {n : Node} (h : D.value n) : D.Agree D.value (Action.adopt n) (Action.adopt n) :=
  fun m hm ↦ ⟨rfl, hm, D.value_adopt h m.label⟩

theorem note (event : Event) : D.Agree (fun _ ↦ True) (Action.note event) (Action.note event) :=
  fun _ hm ↦ ⟨rfl, hm, trivial⟩

theorem lookup (name : String) {span : Span} (hs : D.span span) (ctx : Context) :
    D.Agree D.value (lookup name span ctx) (lookup name span ctx) := by
  intro m hm
  refine ⟨rfl, ?_⟩
  unfold MiniLisp.lookup
  repeat' split
  all_goals first
    | next hfound => exact ⟨hm, hm.of_get? hfound⟩
    | exact ⟨hm, hs⟩

end Agree

/-! ### Rule by rule

A rule is given code in an allowed place. What it hands back is an allowed step. -/

section

variable {run run' : Runner} (h : D.Runs run run') {ctx : Context} (hc : D.place ctx) {span : Span}
  (hs : D.span span)

theorem forall_mem_zip {names : List String} {args : List Node} (h : ∀ n ∈ args, D.value n) :
    ∀ p ∈ names.zip args, D.value p.2 :=
  fun _ hp ↦ h _ (List.of_mem_zip hp).2

theorem bindings_value (p : Params) {args : List Node} (h : ∀ n ∈ args, D.value n)
    {leftOver : Node} (hl : D.value leftOver) :
    ∀ q ∈ p.bindings args leftOver, D.value q.2 := by
  unfold Params.bindings
  refine List.forall_mem_append.mpr ⟨forall_mem_zip h, ?_⟩
  split
  · exact nofun
  · exact List.forall_mem_singleton.mpr hl

include hs

theorem makeClosure_agree (name : Option String) {params : Node} (hp : D.code params)
    {body : List Node} (hb : ∀ form ∈ body, D.code form) (ctx : Context) :
    D.Agree D.value (makeClosure name params body span ctx)
      (makeClosure name params body span ctx) := by
  unfold makeClosure
  split
  · exact .fail hs
  · refine .bind (.ofExcept (parametersIn_allows hp hp)) fun _ _ ↦ ?_
    exact .bind .fresh fun _ _ ↦ .pure (D.value_closure hb hs)

theorem leftOver_agree (p : Params) {args : List Node} (ha : ∀ n ∈ args, D.value n) :
    D.Agree D.value (p.leftOver args span) (p.leftOver args span) := by
  unfold Params.leftOver
  split
  · exact .pure (D.value_atom nofun hs)
  · exact .adopt (D.value_list (fun n hn ↦ ha n (List.mem_of_mem_drop hn)) hs)

include h hc

omit hs in
theorem effects_agree {body : List Node} (hb : ∀ form ∈ body, D.code form) :
    D.Agree (fun _ ↦ True) (effects run ctx body) (effects run' ctx body) := by
  induction body with
  | nil => exact .pure trivial
  | cons form rest ih =>
    obtain ⟨hform, hrest⟩ := List.forall_mem_cons.mp hb
    exact .bind (h _ trivial ⟨hform, hc⟩) fun _ _ ↦ ih hrest

theorem sequence_agree {body : List Node} (hb : ∀ form ∈ body, D.code form) :
    D.Agree (fun step ↦ step.IsForm ∧ D.Good step) (sequence run ctx span body)
      (sequence run' ctx span body) := by
  induction body with
  | nil => exact .pure ⟨trivial, D.value_atom nofun hs⟩
  | cons form rest ih =>
    obtain ⟨hform, hrest⟩ := List.forall_mem_cons.mp hb
    cases rest with
    | nil => exact .pure ⟨trivial, hform, hc⟩
    | cons => exact .bind (h _ trivial ⟨hform, hc⟩) fun _ _ ↦ ih hrest

/-- A body may be what a rule in any place hands back, as it ends with a form. -/
theorem body_agree {body : List Node} (hb : ∀ form ∈ body, D.code form) (place : Context) :
    D.Agree (D.Hands place) (sequence run ctx span body) (sequence run' ctx span body) :=
  (sequence_agree h hc hs hb).imp fun _ hstep ↦ ⟨hstep.2, hstep.1.calledIn place⟩

omit hs in
theorem arguments_agree {operands : Node} (ho : D.code operands) :
    D.Agree (fun args ↦ ∀ n ∈ args, D.value n) (arguments run ctx operands)
      (arguments run' ctx operands) := by
  induction operands with
  | atom a s => cases a with
    | nil => exact .pure nofun
    | _ => exact .fail (D.code_span ho)
  | pair l a d s _ ih =>
    obtain ⟨ha, hd⟩ := D.code_parts ho
    refine .bind (h _ trivial ⟨ha, hc⟩) fun value hv ↦ ?_
    exact .bind (ih hd) fun values hvs ↦ .pure (List.forall_mem_cons.mpr ⟨hv, hvs⟩)
  | closure => exact .fail (D.code_span ho)
  | transformer => exact .fail (D.code_span ho)

theorem spliced_agree {operand : Node} (ho : D.code operand) :
    D.Agree (fun items ↦ ∀ n ∈ items, D.value n) (spliced run ctx operand span)
      (spliced run' ctx operand span) := by
  refine .bind (h _ trivial ⟨ho, hc⟩) fun value hv ↦ ?_
  split
  · next items hitems => exact .pure (value_items hv hitems)
  · exact .fail hs

omit hs in
theorem quasi_agree {template : Node} (ht : D.code template) :
    (∀ depth, D.Agree D.value (quasi run ctx template depth) (quasi run' ctx template depth)) ∧
      ∀ l a d s, template = .pair l a d s →
        ∀ depth, D.Agree D.value (quasi run ctx a depth) (quasi run' ctx a depth) := by
  induction template with
  | atom => exact ⟨fun _ ↦ .pure (D.value_of_code ht), nofun⟩
  | closure => exact ⟨fun _ ↦ .pure (D.value_of_code ht), nofun⟩
  | transformer => exact ⟨fun _ ↦ .pure (D.value_of_code ht), nofun⟩
  | pair l car cdr span iha ihd =>
    obtain ⟨hcar, hcdr⟩ := D.code_parts ht
    have hs : D.span span := D.code_span ht
    replace iha := iha hcar
    replace ihd := ihd hcdr
    refine ⟨fun depth ↦ ?_, fun _ _ _ _ e ↦ by cases e; exact iha.1⟩
    have inner (mark : QuoteMark) {l a d s} (e : cdr = .pair l a d s) (depth : Nat) :
        D.Agree D.value (quasi run ctx a depth >>= rewrap mark span)
          (quasi run' ctx a depth >>= rewrap mark span) := by
      refine .bind (ihd.2 _ _ _ _ e _) fun value hv ↦ .adopt (D.value_list ?_ hs)
      have hsymbol : D.value (.symbol mark.name span) := D.value_atom nofun hs
      exact List.forall_mem_cons.mpr ⟨hsymbol, List.forall_mem_singleton.mpr hv⟩
    have operand {l a d s} (e : cdr = .pair l a d s) : D.code a := by
      subst e
      exact (D.code_parts hcdr).1
    have splice {operand : Node}
        (e : (if depth = 1 then car.operandOf? QuoteMark.splice.name else none) = some operand) :
        D.Agree D.value
          (do
            let items ← spliced run ctx operand car.span
            let tail ← quasi run ctx cdr depth
            .adopt (.listWithTail items tail span))
          (do
            let items ← spliced run' ctx operand car.span
            let tail ← quasi run' ctx cdr depth
            .adopt (.listWithTail items tail span)) := by
      split at e
      · have hoperand : D.code operand := code_operandOf? hcar e
        refine .bind (spliced_agree h hc (D.code_span hcar) hoperand) fun items hitems ↦ ?_
        exact .bind (ihd.1 _) fun tail htail ↦
          .adopt (D.value_splice (D.code_splice hcar e) hitems htail hs)
      · cases e
    have elements : D.Agree D.value
        (do
          let first ← quasi run ctx car depth
          let rest ← quasi run ctx cdr depth
          .adopt (.pair none first rest span))
        (do
          let first ← quasi run' ctx car depth
          let rest ← quasi run' ctx cdr depth
          .adopt (.pair none first rest span)) :=
      .bind (iha.1 _) fun first hfirst ↦ .bind (ihd.1 _) fun rest hrest ↦
        .adopt (D.value_pair hfirst hrest hs)
    unfold quasi
    dsimp only
    split
    · split
      · split
        · exact h _ trivial ⟨operand rfl, hc⟩
        · exact inner _ rfl _
      · split
        · exact .fail hs
        · exact inner _ rfl _
      · exact inner _ rfl _
      · split
        · next e => exact splice e
        · exact elements
    · split
      · next e => exact splice e
      · exact elements

omit hs in
theorem letValues_agree {bindings : List Node} (hb : ∀ binding ∈ bindings, D.code binding) :
    D.Agree (fun pairs ↦ ∀ p ∈ pairs, D.value p.2) (SpecialForm.letValues run ctx bindings)
      (SpecialForm.letValues run' ctx bindings) := by
  induction bindings with
  | nil => exact .pure nofun
  | cons binding rest ih =>
    obtain ⟨hbinding, hrest⟩ := List.forall_mem_cons.mp hb
    unfold SpecialForm.letValues
    split
    · next name form hitems =>
      obtain ⟨hname, hform⟩ := List.forall_mem_cons.mp (code_items hbinding hitems)
      replace hform := List.forall_mem_singleton.mp hform
      refine .bind (.ofExcept (expectSymbol_allows hname _)) fun name _ ↦ ?_
      refine .bind (h _ trivial ⟨hform, hc⟩) fun value hv ↦ ?_
      exact .bind (ih hrest) fun values hvs ↦ .pure (List.forall_mem_cons.mpr ⟨hv, hvs⟩)
    · exact .fail (D.code_span hbinding)

theorem rule_agree (form : SpecialForm) (hform : form = .macroForm → D.reflection)
    {operands : List Node} (ho : ∀ n ∈ operands, D.code n) :
    D.Agree (D.Hands ctx) (form.rule run ctx span operands) (form.rule run' ctx span operands) := by
  have nothing : D.Hands ctx (SpecialForm.noResult span) := ⟨D.value_atom nofun hs, trivial⟩
  -- All three kinds of definitions bind a name in the place of the form.
  have bound (name : String) {value : Node} (hv : D.value value) : D.Agree (D.Hands ctx)
      (do Action.define ctx.scope name value; return SpecialForm.noResult span)
      (do Action.define ctx.scope name value; return SpecialForm.noResult span) :=
    .bind (.define _ _ hv) fun _ _ ↦ .pure nothing
  unfold SpecialForm.rule
  split
  case h_1 datum => exact .pure ⟨D.value_of_code (ho datum List.mem_cons_self), trivial⟩
  case h_2 template =>
    exact .map ((quasi_agree h hc (ho template List.mem_cons_self)).1 _) fun _ hv ↦ ⟨hv, trivial⟩
  case h_3 => exact .fail hs
  case h_4 name s form =>
    have hform : D.code form := ho form (List.mem_cons_of_mem _ List.mem_cons_self)
    exact .bind (h _ trivial ⟨hform, hc⟩) fun value hv ↦ bound _ hv
  case h_5 l target params s body =>
    obtain ⟨hsignature, hbody⟩ := List.forall_mem_cons.mp ho
    obtain ⟨htarget, hparams⟩ := D.code_parts hsignature
    refine .bind (.ofExcept (expectSymbol_allows htarget _)) fun name _ ↦ ?_
    exact .bind (makeClosure_agree hs _ hparams hbody _) fun value hv ↦ bound _ hv
  case h_6 params body =>
    obtain ⟨hparams, hbody⟩ := List.forall_mem_cons.mp ho
    exact .map (makeClosure_agree hs _ hparams hbody _) fun _ hv ↦ ⟨hv, trivial⟩
  case h_7 bindings body =>
    obtain ⟨hbindings, hbody⟩ := List.forall_mem_cons.mp ho
    refine .bind (.ofExcept (properList_allows hbindings _)) fun bindings hb ↦ ?_
    refine .bind (letValues_agree h hc hb) fun pairs hpairs ↦ ?_
    exact .bind (.enter _ _ hpairs) fun scope _ ↦
      body_agree h (D.place_inside hc scope) hs hbody _
  case h_8 condition consequent =>
    obtain ⟨hcondition, hconsequent⟩ := List.forall_mem_cons.mp ho
    refine .bind (h _ trivial ⟨hcondition, hc⟩) fun value _ ↦ .pure ?_
    cases value.isTruthy with
    | true => exact ⟨⟨hconsequent _ List.mem_cons_self, hc⟩, trivial⟩
    | false => exact nothing
  case h_9 condition consequent alternate =>
    obtain ⟨hcondition, hrest⟩ := List.forall_mem_cons.mp ho
    obtain ⟨hconsequent, halternate⟩ := List.forall_mem_cons.mp hrest
    refine .bind (h _ trivial ⟨hcondition, hc⟩) fun value _ ↦ .pure ⟨⟨?_, hc⟩, trivial⟩
    cases value.isTruthy with
    | true => exact hconsequent
    | false => exact halternate _ List.mem_cons_self
  case h_10 target form =>
    obtain ⟨htarget, hform⟩ := List.forall_mem_cons.mp ho
    refine .bind (.ofExcept (expectSymbol_allows htarget _)) fun name _ ↦ ?_
    refine .bind (h _ trivial ⟨hform _ List.mem_cons_self, hc⟩) fun value hv ↦ ?_
    exact .bind (.assign _ _ hv (D.code_span htarget)) fun _ _ ↦ .pure nothing
  case h_11 condition body =>
    obtain ⟨hcondition, hbody⟩ := List.forall_mem_cons.mp ho
    exact .pure ⟨⟨hcondition, hbody, hc, hs⟩, trivial⟩
  case h_12 signature form rest =>
    obtain ⟨hsignature, hbody⟩ := List.forall_mem_cons.mp ho
    split
    · next name param hitems =>
      obtain ⟨hname, hparam⟩ := List.forall_mem_cons.mp (code_items hsignature hitems)
      refine .bind (.ofExcept (expectSymbol_allows hname _)) fun name _ ↦ ?_
      refine .bind (.ofExcept (expectSymbol_allows (hparam _ List.mem_cons_self) _)) fun _ _ ↦ ?_
      exact .bind .fresh fun _ _ ↦ bound _ (D.value_transformer (hform rfl) hbody hs)
    · exact .fail hs
  case h_13 body => exact body_agree h hc hs ho _
  case h_14 => exact .fail hs

theorem specialForm_step_agree (form : SpecialForm) (hform : form = .macroForm → D.reflection)
    {operands : Node} (ho : D.code operands) :
    D.Agree (D.Hands ctx) (form.step run ctx span operands) (form.step run' ctx span operands) :=
  .bind (.ofExcept (properList_allows ho _)) fun _ hitems ↦ rule_agree h hc hs form hform hitems

theorem host_step_agree (op : HostOperation) (hop : op = .eval → D.reflection) {args : List Node}
    (ha : ∀ n ∈ args, D.value n) :
    D.Agree (D.Hands ctx) (op.step run ctx span args) (op.step run' ctx span args) := by
  unfold HostOperation.step
  split
  · exact .bind .store fun _ _ ↦ .pure ⟨D.value_atom nofun hs, trivial⟩
  · refine .bind .store fun store _ ↦ .map (.adopt (D.value_list ?_ hs)) fun _ hv ↦ ⟨hv, trivial⟩
    refine List.forall_mem_cons.mpr ⟨D.value_atom nofun hs, List.forall_mem_cons.mpr ⟨?_, ?_⟩⟩
    · cases ctx.dynamic with
      | none => exact D.value_atom nofun hs
      | some active => exact D.value_atom nofun hs
    · refine List.forall_mem_cons.mpr ⟨D.value_atom nofun hs, ?_⟩
      exact List.forall_mem_singleton.mpr (D.value_atom nofun hs)
  · next target args =>
    obtain ⟨htarget, hargs⟩ := List.forall_mem_cons.mp ha
    split
    · next procedure hprocedure =>
      exact .pure ⟨⟨applies_of_procedure? htarget hprocedure, hargs, hc, hs⟩, rfl⟩
    · exact .fail hs
  · exact .fail hs
  · next form rest =>
    have hform : D.code form := D.code_of_value (hop rfl) (ha form List.mem_cons_self)
    exact .map (h _ trivial ⟨hform, hc⟩) fun _ hv ↦ ⟨hv, trivial⟩
  · exact .fail hs
  · refine .bind .store fun store _ ↦ .map (.adopt (D.value_list ?_ hs)) fun _ hv ↦ ⟨hv, trivial⟩
    intro n hn
    obtain ⟨name, -, rfl⟩ := List.mem_map.mp hn
    exact D.value_atom nofun hs

theorem native_step_agree {p : Native} (hp : D.Applies (.native p)) {args : List Node}
    (ha : ∀ n ∈ args, D.value n) :
    D.Agree (D.Hands ctx) (p.step run ctx span args) (p.step run' ctx span args) := by
  unfold Native.step
  split
  · refine .bind (.ofExcept (run_allows hs ha)) fun reply hreply ↦ ?_
    cases reply with
    | value n => exact .map (.adopt hreply) fun _ hv ↦ ⟨hv, trivial⟩
    | call procedure args => exact .pure ⟨⟨hreply.1, hreply.2, hc, hs⟩, rfl⟩
  · next op hop => exact host_step_agree h hc hs op (fun e ↦ hp (e ▸ hop)) ha

theorem enter_agree {c : Closure} (hb : ∀ form ∈ c.body, D.code form) {args : List Node}
    (ha : ∀ n ∈ args, D.value n) :
    D.Agree (D.Hands ctx) (c.enter run ctx span args) (c.enter run' ctx span args) := by
  unfold Closure.enter
  split
  · refine .bind (leftOver_agree hs _ ha) fun leftOver hl ↦ ?_
    exact .bind (.enter _ _ (bindings_value _ ha hl)) fun scope _ ↦
      body_agree h (D.place_inside hc scope) hs hb _
  · exact .fail hs

theorem procedure_step_agree {p : Procedure} (hp : D.Applies p) {args : List Node}
    (ha : ∀ n ∈ args, D.value n) :
    D.Agree (D.Hands ctx) (p.step run ctx span args) (p.step run' ctx span args) := by
  cases p with
  | native p => exact native_step_agree h hc hs hp ha
  | closure c => exact enter_agree h hc hs hp ha

theorem expand_agree {t : Transformer} (hb : ∀ form ∈ t.body, D.code form) {operands : Node}
    (ho : D.code operands) :
    D.Agree D.value (t.expand run ctx span operands) (t.expand run' ctx span operands) := by
  refine .bind (.enter _ _ (List.forall_mem_singleton.mpr (D.value_of_code ho))) fun scope _ ↦ ?_
  exact .bind (sequence_agree h (D.place_inside hc scope) hs hb) fun last hlast ↦
    h last hlast.1 hlast.2

omit hs in
theorem headValue_agree {head : Node} (hh : D.code head) :
    D.Agree D.value (headValue run ctx head) (headValue run' ctx head) := by
  unfold headValue
  split
  · exact .lookup _ (D.code_span hh) _
  · exact h _ trivial ⟨hh, hc⟩

theorem callStep_agree {head operands : Node} (hh : D.code head) (ho : D.code operands) :
    D.Agree (D.Hands ctx) (callStep run ctx span head operands)
      (callStep run' ctx span head operands) := by
  refine .bind (headValue_agree h hc hh) fun value hv ↦ ?_
  split
  · next t ht =>
    obtain ⟨hreflection, hbody⟩ := forms_of_transformer? hv ht
    refine .bind (expand_agree h hc hs hbody ho) fun expansion he ↦ ?_
    exact .bind (.note _) fun _ _ ↦ .pure ⟨⟨D.code_of_value hreflection he, hc⟩, trivial⟩
  · next procedure hnone hprocedure =>
    exact .bind (arguments_agree h hc ho) fun args ha ↦
      .pure ⟨⟨applies_of_procedure? hv hprocedure, ha, hc, hs⟩, rfl⟩
  · exact .fail (D.code_span hh)

omit hs in
theorem evalStep_agree {form : Node} (hform : D.code form) :
    D.Agree (D.Hands ctx) (evalStep run form ctx) (evalStep run' form ctx) := by
  unfold evalStep
  split
  · exact .map (.lookup _ (D.code_span hform) _) fun _ hv ↦ ⟨hv, trivial⟩
  · obtain ⟨hhead, hoperands⟩ := D.code_parts hform
    split
    · next special hspecial =>
      refine specialForm_step_agree h hc (D.code_span hform) special ?_ hoperands
      rintro rfl
      exact D.code_macro hform hspecial
    · exact callStep_agree h hc (D.code_span hform) hhead hoperands
  · exact .pure ⟨D.value_of_code hform, trivial⟩

theorem loopStep_agree {condition : Node} (hcondition : D.code condition) {body : List Node}
    (hb : ∀ form ∈ body, D.code form) :
    D.Agree (D.Hands ctx) (loopStep run condition body ctx span)
      (loopStep run' condition body ctx span) := by
  refine .bind (h _ trivial ⟨hcondition, hc⟩) fun value _ ↦ ?_
  split
  · exact .bind (effects_agree h hc hb) fun _ _ ↦ .pure ⟨⟨hcondition, hb, hc, hs⟩, trivial⟩
  · exact .pure ⟨D.value_atom nofun hs, trivial⟩

end

/-- **What a step does only depends on how the forms end that the discipline allows.** The step that
it hands back is allowed too, and if that is a call, then it is made in the same place. -/
theorem next_agree {run run' : Runner} (h : D.Runs run run') {step : Step} (hs : D.Good step) :
    D.Agree (fun next ↦ D.Good next ∧ ∀ ctx, next.callPlace? = some ctx → step.place? = some ctx)
      (step.next run) (step.next run') := by
  have inPlace {place : Context} {x y : Action EvalError Step} (hxy : D.Agree (D.Hands place) x y) :
      D.Agree (fun next ↦ D.Good next ∧ ∀ ctx, next.callPlace? = some ctx → some place = some ctx)
        x y :=
    hxy.imp fun next hnext ↦ ⟨hnext.1, fun ctx hctx ↦ congrArg some (hnext.2.eq hctx).symm⟩
  cases step with
  | done value => exact .pure ⟨hs, nofun⟩
  | eval form ctx => exact inPlace (evalStep_agree h hs.2 hs.1)
  | apply procedure args ctx span =>
    obtain ⟨hprocedure, hargs, hplace, hspan⟩ := hs
    refine inPlace (.bind (.note _) fun _ _ ↦ ?_)
    exact procedure_step_agree h hplace hspan hprocedure hargs
  | loop condition body ctx span =>
    obtain ⟨hcondition, hbody, hplace, hspan⟩ := hs
    exact inPlace (loopStep_agree h hplace hspan hcondition hbody)

/-! ### Runs -/

/-- Runs of allowed steps end as the discipline allows. -/
theorem runStep_agree (fuel : Nat) {step : Step} (hs : D.Good step) :
    D.Agree D.value (runStep fuel step) (runStep fuel step) := by
  induction fuel generalizing step with
  | zero => exact fun _ _ ↦ ⟨rfl, trivial⟩
  | succ fuel ih =>
    have hruns : D.Runs (runStep fuel) (runStep fuel) := fun _ _ hstep ↦ ih hstep
    cases step with
    | done value => exact .pure hs
    | eval | apply | loop =>
      exact .bind (next_agree hruns hs) fun next hnext ↦ ih hnext.1

/-- **Evaluation stays within every discipline.** -/
theorem evaluate_agree (fuel : Nat) {form : Node} (hform : D.code form) {ctx : Context}
    (hc : D.place ctx) :
    D.Agree D.value (evaluate fuel form ctx) (evaluate fuel form ctx) := by
  intro m hm
  -- The pairs of the form are labelled first, which leaves it code.
  have hadopted : D.Good (.eval (form.adopt m.label).1 ctx) := ⟨D.code_adopt hform m.label, hc⟩
  exact runStep_agree fuel hadopted { m with label := (form.adopt m.label).2 } hm

end Discipline

end MiniLisp
