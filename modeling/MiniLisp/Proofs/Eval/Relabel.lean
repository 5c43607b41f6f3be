import MiniLisp.Proofs.Eval.Renaming
import MiniLisp.Proofs.Eval.Template

/-!
# Evaluation with other labels

Evaluation does not depend on which labels there are: if the labels in a form and in the machine are
renamed, it comes to the same end with the same amount of fuel, with the labels renamed in the same
way (`evaluate_relabel`). In particular the events that a machine keeps do not matter
(`runStep_quiet`), as only the labels are looked at and these may keep their numbers.

This is shown rule by rule for ways to run steps that do not depend on labels themselves
(`Renaming.Runs`).
-/

namespace MiniLisp

/-! ### Parts of forms -/

section

variable (f : Renaming) (n : Node)

theorem templateForm?_relabel (car cdr : Node) :
    templateForm? (car.relabel f) (cdr.relabel f) =
      (templateForm? car cdr).map fun found ↦ (found.1, found.2.relabel f) := by
  cases car with
  | atom a =>
    rw [Node.relabel_atom]
    cases a with
    | symbol name =>
      cases cdr with
      | pair l operand rest =>
        rw [Node.relabel_pair]
        cases rest with
        | atom b =>
          rw [Node.relabel_atom]
          cases b with
          | nil =>
            show (templateMark? name).map _ = ((templateMark? name).map _).map _
            rw [Option.map_map]
            rfl
          | _ => rfl
        | _ => simp [templateForm?]
      | _ => simp [templateForm?]
    | _ => rfl
  | _ => simp [templateForm?]

theorem operandOf?_relabel (name : String) :
    (n.relabel f).operandOf? name = (n.operandOf? name).map (Node.relabel f) := by
  cases n with
  | pair l car cdr =>
    rw [Node.relabel_pair]
    cases car with
    | atom a =>
      rw [Node.relabel_atom]
      cases a with
      | symbol s =>
        cases cdr with
        | pair l operand rest =>
          rw [Node.relabel_pair]
          cases rest with
          | atom b =>
            rw [Node.relabel_atom]
            cases b with
            | nil =>
              unfold Node.operandOf?
              dsimp only
              split <;> rfl
            | _ => rfl
          | _ => simp [Node.operandOf?]
        | _ => simp [Node.operandOf?]
      | _ => rfl
    | _ => simp [Node.operandOf?]
  | _ => simp [Node.operandOf?]

theorem properList_relabel (part : ListPart) : properList part (n.relabel f) =
    f.result (List.map (Node.relabel f)) (properList part n) := by
  unfold properList
  rw [Node.toList?_relabel, Node.span_relabel]
  cases n.toList? <;> rfl

theorem expectSymbol_relabel (part : NamePart) :
    expectSymbol part (n.relabel f) = f.result id (expectSymbol part n) := by
  unfold expectSymbol
  rw [Node.symbol?_relabel, Node.span_relabel]
  cases n.symbol? <;> rfl

theorem parametersIn_relabel (whole : Node) :
    parametersIn (whole.relabel f) (n.relabel f) = f.result id (parametersIn whole n) := by
  have hfault : (.error (.specialForm (.parameters (whole.relabel f)) (whole.relabel f).span) :
      Except EvalError Params) =
        f.result id (.error (.specialForm (.parameters whole) whole.span)) := by
    rw [Node.span_relabel]
    rfl
  induction n with
  | atom a =>
    rw [Node.relabel_atom]
    cases a with
    | nil => rfl
    | symbol => rfl
    | _ => exact hfault
  | pair l a d s _ ih =>
    rw [Node.relabel_pair, parametersIn, parametersIn, expectSymbol_relabel, ih]
    cases expectSymbol .parameter a with
    | error e => rfl
    | ok name => cases parametersIn whole d <;> rfl
  | closure =>
    rw [Node.relabel_closure]
    exact hfault
  | transformer =>
    rw [Node.relabel_transformer]
    exact hfault

end

namespace Renaming

/-- Runs of steps whose labels are renamed come to the same end, renamed. -/
def Runs (f : Renaming) (run : Runner) : Prop :=
  ∀ step, f.Renames (Node.relabel f) (run step) (run (step.relabel f))

variable {f : Renaming}

/-! ### Rule by rule -/

section

variable {run : Runner} (h : f.Runs run) (ctx : Context) (span : Span)

theorem improper_relabel (n : Node) : EvalError.arguments (.improper (n.relabel f))
    (n.relabel f).span = (EvalError.arguments (.improper n) n.span).relabel f := by
  rw [Node.span_relabel]
  rfl

theorem bindings_relabel (p : Params) (args : List Node) (leftOver : Node) :
    p.bindings (args.map (Node.relabel f)) (leftOver.relabel f) =
      Bindings.relabel f (p.bindings args leftOver) := by
  unfold Params.bindings Bindings.relabel
  rw [List.map_append, List.zip_map_right]
  cases p.rest <;> rfl

theorem noResult_relabel :
    SpecialForm.noResult span = (SpecialForm.noResult span).relabel f :=
  congrArg Step.done (Node.relabel_undefined f span).symm

theorem makeClosure_renames (name : Option String) (params : Node) (body : List Node) :
    f.Renames (Node.relabel f) (makeClosure name params body span ctx)
      (makeClosure name (params.relabel f) (body.map (Node.relabel f)) span ctx) := by
  unfold makeClosure
  cases body with
  | nil => exact .fail rfl
  | cons form rest =>
    refine .bind (.ofExcept (parametersIn_relabel f params params)) fun params ↦ ?_
    refine .bind .fresh fun label ↦ ?_
    exact .pure (Node.relabel_closure f label name params (form :: rest) ctx.scope span).symm

theorem leftOver_renames (p : Params) (args : List Node) :
    f.Renames (Node.relabel f) (p.leftOver args span)
      (p.leftOver (args.map (Node.relabel f)) span) := by
  unfold Params.leftOver
  split
  · exact .pure (Node.relabel_nil f span).symm
  · rw [← List.map_drop]
    exact .adopt (Node.ofList_relabel f _ span).symm

include h

theorem effects_renames (body : List Node) :
    f.Renames id (effects run ctx body) (effects run ctx (body.map (Node.relabel f))) := by
  induction body with
  | nil => exact .pure rfl
  | cons form rest ih => exact .bind (h (.eval form ctx)) fun _ ↦ ih

theorem sequence_renames (body : List Node) :
    f.Renames (Step.relabel f) (sequence run ctx span body)
      (sequence run ctx span (body.map (Node.relabel f))) := by
  induction body with
  | nil => exact .pure (noResult_relabel span)
  | cons form rest ih =>
    cases rest with
    | nil => exact .pure rfl
    | cons => exact .bind (h (.eval form ctx)) fun _ ↦ ih

theorem arguments_renames (operands : Node) :
    f.Renames (List.map (Node.relabel f)) (arguments run ctx operands)
      (arguments run ctx (operands.relabel f)) := by
  have himproper := improper_relabel (f := f) operands
  induction operands with
  | atom a =>
    rw [Node.relabel_atom] at himproper ⊢
    cases a with
    | nil => exact .pure rfl
    | _ => exact .fail himproper
  | pair l a d s _ ih =>
    rw [Node.relabel_pair]
    refine .bind (h (.eval a ctx)) fun value ↦ ?_
    exact .bind (ih (improper_relabel d)) fun values ↦ .pure rfl
  | closure =>
    rw [Node.relabel_closure] at himproper ⊢
    exact .fail himproper
  | transformer =>
    rw [Node.relabel_transformer] at himproper ⊢
    exact .fail himproper

theorem spliced_renames (operand : Node) :
    f.Renames (List.map (Node.relabel f)) (spliced run ctx operand span)
      (spliced run ctx (operand.relabel f) span) := by
  refine .bind (h (.eval operand ctx)) fun value ↦ ?_
  rw [Node.toList?_relabel]
  cases value.toList? with
  | some items => exact .pure rfl
  | none => exact .fail rfl

theorem quasiElements_renames (car cdr : Node) (depth : Nat)
    (hcar : f.Renames (Node.relabel f) (quasi run ctx car depth)
      (quasi run ctx (car.relabel f) depth))
    (hcdr : f.Renames (Node.relabel f) (quasi run ctx cdr depth)
      (quasi run ctx (cdr.relabel f) depth)) :
    f.Renames (Node.relabel f) (quasiElements run ctx car cdr span depth)
      (quasiElements run ctx (car.relabel f) (cdr.relabel f) span depth) := by
  have hoperand :
      (if depth = 1 then (car.relabel f).operandOf? QuoteMark.splice.name else none) =
        (if depth = 1 then car.operandOf? QuoteMark.splice.name else none).map
          (Node.relabel f) := by
    rw [operandOf?_relabel]
    split <;> rfl
  unfold quasiElements
  rw [hoperand]
  cases if depth = 1 then car.operandOf? QuoteMark.splice.name else none with
  | some operand =>
    rw [Node.span_relabel]
    refine .bind (spliced_renames h ctx car.span operand) fun items ↦ ?_
    refine .bind hcdr fun tail ↦ ?_
    exact .adopt (Node.listWithTail_relabel f tail items span).symm
  | none =>
    refine .bind hcar fun first ↦ .bind hcdr fun rest ↦ ?_
    exact .adopt (Node.relabel_pair f none first rest span).symm

theorem quasi_renames (template : Node) (depth : Nat) :
    f.Renames (Node.relabel f) (quasi run ctx template depth)
      (quasi run ctx (template.relabel f) depth) := by
  induction template using Node.template_induct generalizing depth with
  | leaf n hleaf =>
    have hleaf' : (n.relabel f).car? = none := by
      cases n with
      | pair => cases hleaf
      | _ => simp [Node.car?]
    rw [quasi_leaf run ctx hleaf, quasi_leaf run ctx hleaf']
    exact .pure rfl
  | marked l car cdr s mark operand hmarked ih =>
    have hmarked' := templateForm?_relabel f car cdr
    rw [hmarked] at hmarked'
    have hrewrap (depth : Nat) (mark : QuoteMark) :
        f.Renames (Node.relabel f) (quasi run ctx operand depth >>= rewrap mark s)
          (quasi run ctx (operand.relabel f) depth >>= rewrap mark s) := by
      refine .bind (ih depth) fun inner ↦ ?_
      refine .adopt ?_
      rw [Node.ofList_relabel, List.map_cons, Node.relabel_symbol]
      rfl
    rw [Node.relabel_pair, quasi_pair, quasi_pair, hmarked, hmarked']
    cases mark with
    | unquote =>
      dsimp only [Option.map_some]
      split
      · exact h (.eval operand ctx)
      · exact hrewrap _ _
    | splice =>
      dsimp only [Option.map_some]
      split
      · exact .fail rfl
      · exact hrewrap _ _
    | quasiquote => exact hrewrap _ _
    | quote => exact absurd rfl (templateForm?_eq_some_iff.mp hmarked).2
  | plain l car cdr s hplain ihcar ihcdr =>
    have hplain' := templateForm?_relabel f car cdr
    rw [hplain] at hplain'
    rw [Node.relabel_pair, quasi_pair, quasi_pair, hplain, hplain']
    exact quasiElements_renames h ctx s car cdr depth (ihcar depth) (ihcdr depth)

theorem letValues_renames (bindings : List Node) :
    f.Renames (Bindings.relabel f) (SpecialForm.letValues run ctx bindings)
      (SpecialForm.letValues run ctx (bindings.map (Node.relabel f))) := by
  induction bindings with
  | nil => exact .pure rfl
  | cons binding rest ih =>
    have hfault : f.Renames (Bindings.relabel f)
        (.fail (.specialForm (.binding binding) binding.span))
        (.fail (.specialForm (.binding (binding.relabel f)) (binding.relabel f).span)) := by
      rw [Node.span_relabel]
      exact .fail rfl
    rw [List.map_cons]
    unfold SpecialForm.letValues
    rw [Node.toList?_relabel]
    rcases binding.toList? with _ | _ | ⟨name, _ | ⟨form, _ | ⟨third, more⟩⟩⟩
    · exact hfault
    · exact hfault
    · exact hfault
    · refine .bind (.ofExcept (expectSymbol_relabel f name _)) fun name ↦ ?_
      exact .bind (h (.eval form ctx)) fun value ↦ .bind ih fun values ↦ .pure rfl
    · exact hfault

/-! ### Special forms -/

omit h in
/-- All kinds of definitions bind a name in the place of the form. -/
theorem bound_renames (name : String) (value : Node) :
    f.Renames (Step.relabel f) (do
        Action.define ctx.scope name value
        return SpecialForm.noResult span)
      (do
        Action.define ctx.scope name (value.relabel f)
        return SpecialForm.noResult span) :=
  .bind (.define ctx.scope name value) fun _ ↦ .pure (noResult_relabel span)

omit h in
theorem macro_renames (signature form : Node) (rest : List Node) :
    f.Renames (Step.relabel f)
      (SpecialForm.rule run ctx span .macroForm (signature :: form :: rest))
      (SpecialForm.rule run ctx span .macroForm
        ((signature :: form :: rest).map (Node.relabel f))) := by
  have hmalformed : f.Renames (Step.relabel f) (SpecialForm.malformed .macroForm span)
      (SpecialForm.malformed .macroForm span) := .fail rfl
  rw [List.map_cons, List.map_cons]
  unfold SpecialForm.rule
  dsimp only
  rw [Node.toList?_relabel]
  match signature.toList? with
  | none => exact hmalformed
  | some [] => exact hmalformed
  | some [_] => exact hmalformed
  | some (_ :: _ :: _ :: _) => exact hmalformed
  | some [name, param] =>
    refine .bind (.ofExcept (expectSymbol_relabel f name _)) fun name ↦ ?_
    refine .bind (.ofExcept (expectSymbol_relabel f param _)) fun param ↦ ?_
    refine .bind .fresh fun label ↦ ?_
    have hbound := @bound_renames f ctx span name
      (.transformer label name param (form :: rest) ctx.scope span)
    rw [Node.relabel_transformer] at hbound
    exact hbound

theorem define_renames (operands : List Node) :
    f.Renames (Step.relabel f) (SpecialForm.rule run ctx span .define operands)
      (SpecialForm.rule run ctx span .define (operands.map (Node.relabel f))) := by
  have hmalformed : f.Renames (Step.relabel f) (SpecialForm.malformed .define span)
      (SpecialForm.malformed .define span) := .fail rfl
  match operands with
  | [] => exact .fail rfl
  | .atom a s :: rest =>
    rw [List.map_cons, Node.relabel_atom]
    cases a with
    | symbol name =>
      match rest with
      | [] => exact hmalformed
      | [form] => exact .bind (h (.eval form ctx)) fun value ↦ bound_renames ctx span name value
      | _ :: _ :: _ => exact hmalformed
    | _ => exact hmalformed
  | .pair l target params s :: body =>
    rw [List.map_cons, Node.relabel_pair]
    refine .bind (.ofExcept (expectSymbol_relabel f target _)) fun name ↦ ?_
    exact .bind (makeClosure_renames ctx span (some name) params body) fun value ↦
      bound_renames ctx span name value
  | .closure .. :: rest =>
    rw [List.map_cons, Node.relabel_closure]
    exact hmalformed
  | .transformer .. :: rest =>
    rw [List.map_cons, Node.relabel_transformer]
    exact hmalformed

theorem rule_renames (form : SpecialForm) (operands : List Node) :
    f.Renames (Step.relabel f) (form.rule run ctx span operands)
      (form.rule run ctx span (operands.map (Node.relabel f))) := by
  have hmalformed : f.Renames (Step.relabel f) (SpecialForm.malformed form span)
      (SpecialForm.malformed form span) := .fail rfl
  cases form with
  | quote =>
    match operands with
    | [] => exact hmalformed
    | [datum] => exact .pure rfl
    | _ :: _ :: _ => exact hmalformed
  | quasiquote =>
    match operands with
    | [] => exact hmalformed
    | [template] => exact .map (quasi_renames h ctx template 1) fun _ ↦ rfl
    | _ :: _ :: _ => exact hmalformed
  | define => exact define_renames h ctx span operands
  | lambda =>
    match operands with
    | [] => exact hmalformed
    | params :: body => exact .map (makeClosure_renames ctx span none params body) fun _ ↦ rfl
  | letForm =>
    match operands with
    | [] => exact hmalformed
    | bindings :: body =>
      refine .bind (.ofExcept (properList_relabel f bindings _)) fun items ↦ ?_
      refine .bind (letValues_renames h ctx items) fun pairs ↦ ?_
      exact .bind (.enter ctx.scope none pairs) fun scope ↦
        sequence_renames h (ctx.inside scope) span body
  | ifForm =>
    match operands with
    | [] => exact hmalformed
    | [_] => exact hmalformed
    | [condition, consequent] =>
      refine .bind (h (.eval condition ctx)) fun value ↦ ?_
      rw [Node.isTruthy_relabel]
      split
      · exact .pure rfl
      · exact .pure (noResult_relabel span)
    | [condition, consequent, alternate] =>
      refine .bind (h (.eval condition ctx)) fun value ↦ ?_
      rw [Node.isTruthy_relabel]
      split
      · exact .pure rfl
      · exact .pure rfl
    | _ :: _ :: _ :: _ :: _ => exact hmalformed
  | set =>
    match operands with
    | [] => exact hmalformed
    | [_] => exact hmalformed
    | [target, form] =>
      refine .bind (.ofExcept (expectSymbol_relabel f target _)) fun name ↦ ?_
      refine .bind (h (.eval form ctx)) fun value ↦ ?_
      rw [Node.span_relabel]
      exact .bind (.assign ctx.scope name value target.span) fun _ ↦
        .pure (noResult_relabel span)
    | _ :: _ :: _ :: _ => exact hmalformed
  | whileForm =>
    match operands with
    | [] => exact hmalformed
    | condition :: body => exact .pure rfl
  | macroForm =>
    match operands with
    | [] => exact hmalformed
    | [_] => exact hmalformed
    | signature :: form :: rest => exact macro_renames ctx span signature form rest
  | begin => exact sequence_renames h ctx span operands

theorem specialForm_step_renames (form : SpecialForm) (operands : Node) :
    f.Renames (Step.relabel f) (form.step run ctx span operands)
      (form.step run ctx span (operands.relabel f)) :=
  .bind (.ofExcept (properList_relabel f operands _)) fun items ↦
    rule_renames h ctx span form items

/-! ### Calls -/

theorem enter_renames (c : Closure) (args : List Node) :
    f.Renames (Step.relabel f) (c.enter run ctx span args)
      ((c.relabel f).enter run ctx span (args.map (Node.relabel f))) := by
  unfold Closure.enter
  rw [List.length_map]
  show f.Renames _ _ (if c.params.arity.accepts args.length = true then _ else _)
  split
  · refine .bind (leftOver_renames span c.params args) fun leftOver ↦ ?_
    have henter := @Renames.enter f (ctx.parent c.scope) c.name (c.params.bindings args leftOver)
    rw [← bindings_relabel] at henter
    exact .bind henter fun scope ↦ sequence_renames h (ctx.inside scope) span c.body
  · exact .fail rfl

theorem host_step_renames (op : HostOperation) (args : List Node) :
    f.Renames (Step.relabel f) (op.step run ctx span args)
      (op.step run ctx span (args.map (Node.relabel f))) := by
  cases op with
  | scopeName =>
    refine .bind .store fun store ↦ ?_
    rw [Store.name_relabel]
    exact .pure (congrArg Step.done (Node.relabel_atom f _ span).symm)
  | callSite =>
    refine .bind .store fun store ↦ ?_
    rw [Store.name_relabel]
    refine .map (.adopt ?_) fun _ ↦ rfl
    rw [Node.ofList_relabel]
    cases ctx.dynamic with
    | none => simp [Node.string, Node.number]
    | some active => simp [Node.string, Node.number]
  | tail =>
    cases args with
    | nil => exact .fail rfl
    | cons target rest =>
      rw [List.map_cons]
      unfold HostOperation.step
      dsimp only
      rw [Node.procedure?_relabel]
      cases target.procedure? with
      | none => exact .fail rfl
      | some procedure => exact .pure rfl
  | eval =>
    cases args with
    | nil => exact .fail rfl
    | cons form rest => exact .map (h (.eval form ctx)) fun _ ↦ rfl
  | names =>
    refine .bind .store fun store ↦ ?_
    have hnames : (store.relabel f).ownNames ctx.scope = store.ownNames ctx.scope := by
      rw [Store.ownNames, Store.ownNames, Store.identifiers_relabel]
    rw [hnames]
    refine .map (.adopt ?_) fun _ ↦ rfl
    rw [Node.ofList_relabel, List.map_map]
    exact congrArg (Node.ofList · span)
      (List.map_congr_left fun name _ ↦ (Node.relabel_symbol f name span).symm)

theorem native_step_renames (p : Native) (args : List Node) :
    f.Renames (Step.relabel f) (p.step run ctx span args)
      (p.step run ctx span (args.map (Node.relabel f))) := by
  unfold Native.step
  cases p.operation with
  | builtin op =>
    refine .bind (.ofExcept (op.run_relabel f span args)) fun reply ↦ ?_
    cases reply with
    | value n => exact .map (.adopt rfl) fun _ ↦ rfl
    | call procedure args => exact .pure rfl
  | host op => exact host_step_renames h ctx span op args

theorem procedure_step_renames (p : Procedure) (args : List Node) :
    f.Renames (Step.relabel f) (p.step run ctx span args)
      ((p.relabel f).step run ctx span (args.map (Node.relabel f))) := by
  cases p with
  | native p => exact native_step_renames h ctx span p args
  | closure c => exact enter_renames h ctx span c args

theorem expand_renames (t : Transformer) (operands : Node) :
    f.Renames (Node.relabel f) (t.expand run ctx span operands)
      ((t.relabel f).expand run ctx span (operands.relabel f)) :=
  .bind (.enter (ctx.parent t.scope) none [(t.param, operands)]) fun scope ↦
    .bind (sequence_renames h (ctx.inside scope) span t.body) fun last ↦ h last

theorem headValue_renames (head : Node) :
    f.Renames (Node.relabel f) (headValue run ctx head) (headValue run ctx (head.relabel f)) := by
  unfold headValue
  rw [Node.symbol?_relabel, Node.span_relabel]
  split
  · exact .lookup _ _ ctx
  · exact h (.eval head ctx)

theorem callStep_renames (head operands : Node) :
    f.Renames (Step.relabel f) (callStep run ctx span head operands)
      (callStep run ctx span (head.relabel f) (operands.relabel f)) := by
  refine .bind (headValue_renames h ctx head) fun value ↦ ?_
  rw [Node.transformer?_relabel, Node.procedure?_relabel, Node.symbol?_relabel, Node.span_relabel]
  cases value.transformer? with
  | some t =>
    refine .bind (expand_renames h ctx span t operands) fun expansion ↦ ?_
    exact .bind (.note _ _) fun _ ↦ .pure rfl
  | none =>
    cases value.procedure? with
    | some procedure =>
      exact .bind (arguments_renames h ctx operands) fun args ↦
        .pure rfl
    | none => exact .fail rfl

/-! ### Steps -/

theorem evalStep_renames (form : Node) :
    f.Renames (Step.relabel f) (evalStep run form ctx) (evalStep run (form.relabel f) ctx) := by
  cases form with
  | atom a s =>
    rw [Node.relabel_atom]
    cases a with
    | symbol name => exact .map (.lookup name s ctx) fun _ ↦ rfl
    | _ => exact .pure (congrArg Step.done (Node.relabel_atom f _ s).symm)
  | pair l head operands s =>
    rw [Node.relabel_pair]
    unfold evalStep
    dsimp only
    rw [Node.symbol?_relabel]
    split
    · exact specialForm_step_renames h ctx s _ operands
    · exact callStep_renames h ctx s head operands
  | closure l name params body scope s =>
    rw [Node.relabel_closure]
    exact .pure (congrArg Step.done (Node.relabel_closure f l name params body scope s).symm)
  | transformer l name param body scope s =>
    rw [Node.relabel_transformer]
    exact .pure (congrArg Step.done (Node.relabel_transformer f l name param body scope s).symm)

theorem loopStep_renames (condition : Node) (body : List Node) :
    f.Renames (Step.relabel f) (loopStep run condition body ctx span)
      (loopStep run (condition.relabel f) (body.map (Node.relabel f)) ctx span) := by
  refine .bind (h (.eval condition ctx)) fun value ↦ ?_
  rw [Node.isTruthy_relabel]
  split
  · exact .bind (effects_renames h ctx body) fun _ ↦ .pure rfl
  · exact .pure (noResult_relabel span)

end

/-- **Steps do not depend on labels.** -/
theorem next_renames {run : Runner} (h : f.Runs run) (step : Step) :
    f.Renames (Step.relabel f) (step.next run) ((step.relabel f).next run) := by
  cases step with
  | done value => exact .pure rfl
  | eval form ctx => exact evalStep_renames h ctx form
  | apply procedure args ctx span =>
    exact .bind (.note _ _) fun _ ↦ procedure_step_renames h ctx span procedure args
  | loop condition body ctx span => exact loopStep_renames h ctx span condition body

/-! ### Runs -/

theorem runStep_renames (fuel : Nat) : f.Runs (runStep fuel) := by
  induction fuel with
  | zero => exact fun _ _ _ ↦ .outOfFuel
  | succ fuel ih =>
    intro step
    cases step with
    | done value => exact .pure rfl
    | eval form ctx => exact .bind (next_renames ih (.eval form ctx)) fun step ↦ ih step
    | apply procedure args ctx span =>
      exact .bind (next_renames ih (.apply procedure args ctx span)) fun step ↦ ih step
    | loop condition body ctx span =>
      exact .bind (next_renames ih (.loop condition body ctx span)) fun step ↦ ih step

end Renaming

section

variable (f : Renaming) (fuel : Nat) (ctx : Context) {m : Machine} (hm : f.limit ≤ m.label)

include hm

/-- A run does not depend on labels. -/
theorem runStep_relabel (step : Step) :
    runStep fuel (step.relabel f) (m.relabel f) = (runStep fuel step m).relabel f :=
  (Renaming.runStep_renames fuel step m hm).eq

/-- **Evaluation does not depend on labels.** -/
theorem evaluate_relabel (form : Node) :
    evaluate fuel (form.relabel f) ctx (m.relabel f) = (evaluate fuel form ctx m).relabel f :=
  (Renaming.Renames.bind (.adopt rfl) (fun adopted ↦
    Renaming.runStep_renames fuel (.eval adopted ctx)) m hm).eq

end

/-! ### Events -/

/-- The same machine without its events. -/
def Machine.quiet (m : Machine) : Machine := { m with trace := none }

/-- The same end without the events. -/
def Outcome.quiet {ε α : Type} : Outcome ε α → Outcome ε α
  | ok value m => .ok value m.quiet
  | error e m => .error e m.quiet
  | outOfFuel => .outOfFuel

section

variable (m : Machine)

theorem Machine.relabel_refl : m.relabel Renaming.refl = m.quiet := by
  rw [relabel, Store.relabel_refl]
  rfl

theorem EvalError.relabel_refl (e : EvalError) : e.relabel Renaming.refl = e := by
  cases e with
  | unbound => rfl
  | notCallable => rw [relabel, Node.relabel_refl]
  | specialForm fault =>
    rw [relabel]
    cases fault <;> simp [FormFault.relabel]
  | arguments fault =>
    rw [relabel]
    cases fault <;> simp [ArgumentFault.relabel]
  | number => rfl

theorem Outcome.relabel_refl (x : Outcome EvalError Node) : x.relabel Renaming.refl = x.quiet := by
  cases x with
  | ok value m => rw [relabel, Node.relabel_refl, Machine.relabel_refl, quiet]
  | error e m => rw [relabel, EvalError.relabel_refl, Machine.relabel_refl, quiet]
  | outOfFuel => rfl

theorem Node.map_relabel_refl (items : List Node) : items.map (relabel Renaming.refl) = items :=
  (List.map_congr_left fun n _ ↦ n.relabel_refl).trans (List.map_id items)

theorem Procedure.relabel_refl (p : Procedure) : p.relabel Renaming.refl = p := by
  cases p with
  | native => rfl
  | closure c =>
    exact congrArg (fun body ↦ Procedure.closure { c with body := body })
      (Node.map_relabel_refl c.body)

theorem Step.relabel_refl (step : Step) : step.relabel Renaming.refl = step := by
  cases step with
  | done => rw [relabel, Node.relabel_refl]
  | eval => rw [relabel, Node.relabel_refl]
  | apply => rw [relabel, Procedure.relabel_refl, Node.map_relabel_refl]
  | loop => rw [relabel, Node.relabel_refl, Node.map_relabel_refl]

/-- **Which events are kept does not matter to a run.** -/
theorem runStep_quiet (fuel : Nat) (step : Step) :
    runStep fuel step m.quiet = (runStep fuel step m).quiet := by
  have hrun := runStep_relabel Renaming.refl fuel m.label.zero_le step
  rwa [Step.relabel_refl, Machine.relabel_refl, Outcome.relabel_refl] at hrun

end

end MiniLisp
