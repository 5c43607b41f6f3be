import MiniLisp.Proofs.Eval.Replies
import MiniLisp.Proofs.Eval.Template

/-!
# Evaluation on corresponding machines

Evaluation goes the same way on corresponding machines: corresponding forms in corresponding places
come to the same end with the same amount of fuel (`Correspondence.evaluate_alike`). Whatever a rule
decides by, such as the shape of a form, the type of a value or whether a name is bound, is the same
on both sides; and whatever a rule makes, it makes of corresponding parts.

This is shown rule by rule for ways to run steps that are alike themselves (`Correspondence.Runs`).
-/

namespace MiniLisp

namespace Correspondence

variable (C : Correspondence)

/-- The steps are the same. -/
inductive Steps : Step → Step → Prop
  | done {value value' : Node} (hv : C.Nodes value value') : Steps (.done value) (.done value')
  | eval {form form' : Node} {ctx ctx' : Context} (hf : C.Nodes form form')
      (hc : C.Places ctx ctx') : Steps (.eval form ctx) (.eval form' ctx')
  | apply {p p' : Procedure} {args args' : List Node} {ctx ctx' : Context} {s s' : Span}
      (hp : C.Procedures p p') (hargs : List.Forall₂ C.Nodes args args') (hc : C.Places ctx ctx')
      (hs : C.Spans s s') : Steps (.apply p args ctx s) (.apply p' args' ctx' s')
  | loop {condition condition' : Node} {body body' : List Node} {ctx ctx' : Context} {s s' : Span}
      (hcondition : C.Nodes condition condition') (hbody : List.Forall₂ C.Nodes body body')
      (hc : C.Places ctx ctx') (hs : C.Spans s s') :
      Steps (.loop condition body ctx s) (.loop condition' body' ctx' s')

/-- Two ways to run steps come to the same end on the same steps. -/
def Runs (run run' : Runner) : Prop :=
  ∀ step step', C.Steps step step' → C.Alike C.Nodes (run step) (run' step')

variable {C}

/-! ### Parts of forms -/

/-- Corresponding pairs begin with the same mark, whose operand is the first part of the rest. -/
theorem templateForm?_rel {car car' cdr cdr' : Node} (hcar : C.Nodes car car')
    (hcdr : C.Nodes cdr cdr') :
    Option.Rel
      (fun found found' ↦ found.1 = found'.1 ∧ C.Nodes found.2 found'.2 ∧
        cdr.car? = some found.2 ∧ cdr'.car? = some found'.2)
      (templateForm? car cdr) (templateForm? car' cdr') := by
  cases hcar with
  | @atom a =>
    cases a with
    | symbol name =>
      cases hcdr with
      | pair _ hoperand hend =>
        cases hend with
        | @atom b =>
          cases b with
          | nil =>
            show Option.Rel _ ((templateMark? name).map _) ((templateMark? name).map _)
            cases templateMark? name with
            | none => exact .none
            | some mark => exact .some ⟨rfl, hoperand, rfl, rfl⟩
          | _ => exact .none
        | _ => exact .none
      | _ => exact .none
    | _ => exact .none
  | _ => exact .none

theorem operandOf?_rel {n n' : Node} (h : C.Nodes n n') (name : String) :
    Option.Rel C.Nodes (n.operandOf? name) (n'.operandOf? name) := by
  cases h with
  | pair _ hcar hcdr =>
    cases hcar with
    | @atom a =>
      cases a with
      | symbol s =>
        cases hcdr with
        | pair _ hoperand hend =>
          cases hend with
          | @atom b =>
            cases b with
            | nil =>
              unfold Node.operandOf?
              dsimp only
              split
              · exact .some hoperand
              · exact .none
            | _ => exact .none
          | _ => exact .none
        | _ => exact .none
      | _ => exact .none
    | _ => exact .none
  | _ => exact .none

theorem properList_excepts {n n' : Node} (h : C.Nodes n n') (part : ListPart) :
    C.Excepts (List.Forall₂ C.Nodes) (properList part n) (properList part n') := by
  have hitems := h.toList?
  unfold properList
  generalize n.toList? = items at hitems ⊢
  generalize n'.toList? = items' at hitems ⊢
  cases hitems with
  | some hitems => exact .ok hitems
  | none => exact .error (.specialForm rfl h.span)

theorem expectSymbol_excepts {n n' : Node} (h : C.Nodes n n') (part : NamePart) :
    C.Excepts Eq (expectSymbol part n) (expectSymbol part n') := by
  unfold expectSymbol
  rw [h.symbol?]
  split
  · exact .ok rfl
  · exact .error (.specialForm_text (fun _ ↦ rfl) h h.span)

theorem parametersIn_excepts {whole whole' n n' : Node} (hwhole : C.Nodes whole whole')
    (h : C.Nodes n n') : C.Excepts Eq (parametersIn whole n) (parametersIn whole' n') := by
  have hfault : C.Excepts (Eq (α := Params)) (.error (.specialForm (.parameters whole) whole.span))
      (.error (.specialForm (.parameters whole') whole'.span)) :=
    .error (.specialForm_text (fun _ ↦ rfl) hwhole hwhole.span)
  induction n generalizing n' with
  | atom a s =>
    cases h
    cases a with
    | nil => exact .ok rfl
    | symbol => exact .ok rfl
    | _ => exact hfault
  | pair l a d s _ ihd =>
    cases h with
    | pair _ ha hd =>
      refine (expectSymbol_excepts ha _).bind ?_
      rintro name _ rfl
      refine (ihd hd).bind ?_
      rintro params _ rfl
      exact .ok rfl
  | closure =>
    cases h
    exact hfault
  | transformer =>
    cases h
    exact hfault

theorem improper_errors {n n' : Node} (h : C.Nodes n n') :
    C.Errors (.arguments (.improper n) n.span) (.arguments (.improper n') n'.span) := by
  refine .arguments ?_ h.span
  unfold ArgumentFault.message
  dsimp only
  rw [h.text]

/-! ### Rule by rule -/

section

variable {run run' : Runner} (h : C.Runs run run') {ctx ctx' : Context} (hc : C.Places ctx ctx')
  {span span' : Span} (hs : C.Spans span span')

theorem zip_bound (names : List String) {args args' : List Node}
    (ha : List.Forall₂ C.Nodes args args') :
    List.Forall₂ C.Bound (names.zip args) (names.zip args') := by
  induction ha generalizing names with
  | nil =>
    rw [List.zip_nil_right]
    exact .nil
  | cons hn _ ih =>
    cases names with
    | nil => exact .nil
    | cons name names => exact .cons ⟨rfl, hn⟩ (ih names)

theorem bindings_bound (p : Params) {args args' : List Node}
    (ha : List.Forall₂ C.Nodes args args') {leftOver leftOver' : Node}
    (hl : C.Nodes leftOver leftOver') :
    List.Forall₂ C.Bound (p.bindings args leftOver) (p.bindings args' leftOver') := by
  unfold Params.bindings
  refine List.rel_append (zip_bound _ ha) ?_
  split
  · exact .nil
  · exact .cons ⟨rfl, hl⟩ .nil

include hs

theorem noResult_steps : C.Steps (SpecialForm.noResult span) (SpecialForm.noResult span') :=
  .done (.undefined hs)

theorem makeClosure_alike (hc : C.Places ctx ctx') (name : Option String) {params params' : Node}
    (hp : C.Nodes params params') {body body' : List Node} (hb : List.Forall₂ C.Nodes body body') :
    C.Alike C.Nodes (makeClosure name params body span ctx)
      (makeClosure name params' body' span' ctx') := by
  unfold makeClosure
  cases hb with
  | nil => exact .fail (.specialForm rfl hs)
  | cons hform hrest =>
    refine .bind (.ofExcept (parametersIn_excepts hp hp)) ?_
    rintro params _ rfl
    exact .bind .fresh fun _ _ hl ↦ .pure (.closure hl (.cons hform hrest) hc.scope hs)

theorem leftOver_alike (p : Params) {args args' : List Node}
    (ha : List.Forall₂ C.Nodes args args') :
    C.Alike C.Nodes (p.leftOver args span) (p.leftOver args' span') := by
  unfold Params.leftOver
  split
  · exact .pure (.nil hs)
  · exact .adopt (.ofList (List.forall₂_drop _ ha) hs)

include h hc

omit hs in
theorem effects_alike {body body' : List Node} (hb : List.Forall₂ C.Nodes body body') :
    C.Alike (fun _ _ ↦ True) (effects run ctx body) (effects run' ctx' body') := by
  induction hb with
  | nil => exact .pure trivial
  | cons hform _ ih => exact .bind (h _ _ (.eval hform hc)) fun _ _ _ ↦ ih

theorem sequence_alike {body body' : List Node} (hb : List.Forall₂ C.Nodes body body') :
    C.Alike C.Steps (sequence run ctx span body) (sequence run' ctx' span' body') := by
  induction hb with
  | nil => exact .pure (.done (.undefined hs))
  | cons hform hrest ih =>
    cases hrest with
    | nil => exact .pure (.eval hform hc)
    | cons => exact .bind (h _ _ (.eval hform hc)) fun _ _ _ ↦ ih

omit hs in
theorem arguments_alike {operands operands' : Node} (ho : C.Nodes operands operands') :
    C.Alike (List.Forall₂ C.Nodes) (arguments run ctx operands)
      (arguments run' ctx' operands') := by
  have himproper := improper_errors ho
  induction operands generalizing operands' with
  | atom a s =>
    cases ho
    cases a with
    | nil => exact .pure .nil
    | _ => exact .fail himproper
  | pair l a d s _ ih =>
    cases ho with
    | pair _ ha hd =>
      refine .bind (h _ _ (.eval ha hc)) fun value value' hv ↦ ?_
      exact .bind (ih hd (improper_errors hd)) fun values values' hvs ↦ .pure (.cons hv hvs)
  | closure =>
    cases ho
    exact .fail himproper
  | transformer =>
    cases ho
    exact .fail himproper

theorem spliced_alike {operand operand' : Node} (ho : C.Nodes operand operand') :
    C.Alike (List.Forall₂ C.Nodes) (spliced run ctx operand span)
      (spliced run' ctx' operand' span') := by
  refine .bind (h _ _ (.eval ho hc)) fun value value' hv ↦ ?_
  have hitems := hv.toList?
  generalize value.toList? = items at hitems ⊢
  generalize value'.toList? = items' at hitems ⊢
  cases hitems with
  | some hitems => exact .pure hitems
  | none => exact .fail (.specialForm_text (fun _ ↦ rfl) hv hs)

omit hs in
theorem quasiElements_alike {car car' cdr cdr' : Node} (hcar : C.Nodes car car')
    {span span' : Span} (hs : C.Spans span span') {depth : Nat}
    (hfirst : C.Alike C.Nodes (quasi run ctx car depth) (quasi run' ctx' car' depth))
    (hrest : C.Alike C.Nodes (quasi run ctx cdr depth) (quasi run' ctx' cdr' depth)) :
    C.Alike C.Nodes (quasiElements run ctx car cdr span depth)
      (quasiElements run' ctx' car' cdr' span' depth) := by
  have hoperand : Option.Rel C.Nodes
      (if depth = 1 then car.operandOf? QuoteMark.splice.name else none)
      (if depth = 1 then car'.operandOf? QuoteMark.splice.name else none) := by
    split
    · exact operandOf?_rel hcar _
    · exact .none
  unfold quasiElements
  generalize (if depth = 1 then car.operandOf? _ else none) = x at hoperand ⊢
  generalize (if depth = 1 then car'.operandOf? _ else none) = x' at hoperand ⊢
  cases hoperand with
  | some hoperand =>
    refine .bind (spliced_alike h hc hcar.span hoperand) fun items items' hitems ↦ ?_
    exact .bind hrest fun tail tail' htail ↦ .adopt (.listWithTail hitems htail hs)
  | none =>
    refine .bind hfirst fun first first' hn ↦ ?_
    exact .bind hrest fun rest rest' hd ↦ .adopt (.pair .none hn hd hs)

omit hs in
/-- A template is copied alike, and so is its first part if it is a pair, since that is where the
operand of a mark stands. -/
theorem quasi_alike {template template' : Node} (ht : C.Nodes template template') :
    (∀ depth, C.Alike C.Nodes (quasi run ctx template depth)
      (quasi run' ctx' template' depth)) ∧
      ∀ {a a'}, template.car? = some a → template'.car? = some a' →
        ∀ depth, C.Alike C.Nodes (quasi run ctx a depth) (quasi run' ctx' a' depth) := by
  induction template generalizing template' with
  | atom =>
    have hself := ht
    cases ht
    exact ⟨fun _ ↦ .pure hself, nofun⟩
  | closure =>
    have hself := ht
    cases ht
    exact ⟨fun _ ↦ .pure hself, nofun⟩
  | transformer =>
    have hself := ht
    cases ht
    exact ⟨fun _ ↦ .pure hself, nofun⟩
  | pair l car cdr span ihcar ihcdr =>
    cases ht with
    | @pair _ l' _ car' _ cdr' _ span' _ hcar hcdr hs =>
      replace ihcar := ihcar hcar
      obtain ⟨ihrest, ihoperand⟩ := ihcdr hcdr
      refine ⟨fun depth ↦ ?_, ?_⟩
      · have helements : C.Alike C.Nodes (quasiElements run ctx car cdr span depth)
            (quasiElements run' ctx' car' cdr' span' depth) :=
          quasiElements_alike h hc hcar hs (ihcar.1 depth) (ihrest depth)
        have hform := templateForm?_rel hcar hcdr
        rw [quasi_pair, quasi_pair]
        generalize templateForm? car cdr = found at hform ⊢
        generalize templateForm? car' cdr' = found' at hform ⊢
        cases hform with
        | none => exact helements
        | @some found found' hform =>
          obtain ⟨mark, operand⟩ := found
          obtain ⟨_, operand'⟩ := found'
          obtain ⟨rfl, hoperand, hplace, hplace'⟩ := hform
          have hrewrap (depth : Nat) :
              C.Alike C.Nodes (quasi run ctx operand depth >>= rewrap mark span)
                (quasi run' ctx' operand' depth >>= rewrap mark span') :=
            .bind (ihoperand hplace hplace' depth) fun inner inner' hn ↦
              .adopt (.ofList (.cons (.symbol _ hs) (.cons hn .nil)) hs)
          cases mark with
          | unquote =>
            dsimp only
            split
            · exact h _ _ (.eval hoperand hc)
            · exact hrewrap _
          | splice =>
            dsimp only
            split
            · exact .fail (.specialForm rfl hs)
            · exact hrewrap _
          | quasiquote => exact hrewrap _
          | quote => exact helements
      · rintro a a' ⟨⟩ ⟨⟩
        exact ihcar.1

omit hs in
theorem letValues_alike {bindings bindings' : List Node}
    (hb : List.Forall₂ C.Nodes bindings bindings') :
    C.Alike (List.Forall₂ C.Bound) (SpecialForm.letValues run ctx bindings)
      (SpecialForm.letValues run' ctx' bindings') := by
  induction hb with
  | nil => exact .pure .nil
  | @cons binding binding' rest rest' hbinding _ ih =>
    have hfault : C.Alike (List.Forall₂ C.Bound)
        (.fail (.specialForm (.binding binding) binding.span))
        (.fail (.specialForm (.binding binding') binding'.span)) :=
      .fail (.specialForm_text (fun _ ↦ rfl) hbinding hbinding.span)
    have hitems := hbinding.toList?
    unfold SpecialForm.letValues
    generalize binding.toList? = items at hitems ⊢
    generalize binding'.toList? = items' at hitems ⊢
    cases hitems with
    | none => exact hfault
    | some hitems =>
      cases hitems with
      | nil => exact hfault
      | cons hname hrest =>
        cases hrest with
        | nil => exact hfault
        | cons hform hrest =>
          cases hrest with
          | cons => exact hfault
          | nil =>
            refine .bind (.ofExcept (expectSymbol_excepts hname _)) ?_
            rintro name _ rfl
            refine .bind (h _ _ (.eval hform hc)) fun value value' hv ↦ ?_
            exact .bind ih fun values values' hvs ↦ .pure (.cons ⟨rfl, hv⟩ hvs)

/-! ### Special forms -/

omit h hc in
theorem malformed_alike (form : SpecialForm) :
    C.Alike C.Steps (SpecialForm.malformed form span) (SpecialForm.malformed form span') :=
  .fail (.specialForm rfl hs)

omit h in
/-- All kinds of definitions bind a name in the place of the form. -/
theorem bound_alike (name : String) {value value' : Node} (hv : C.Nodes value value') :
    C.Alike C.Steps
      (do Action.define ctx.scope name value; return SpecialForm.noResult span)
      (do Action.define ctx'.scope name value'; return SpecialForm.noResult span') :=
  .bind (.define hc.scope name hv) fun _ _ _ ↦ .pure (noResult_steps hs)

theorem define_alike {operands operands' : List Node}
    (ho : List.Forall₂ C.Nodes operands operands') :
    C.Alike C.Steps (SpecialForm.rule run ctx span .define operands)
      (SpecialForm.rule run' ctx' span' .define operands') := by
  have hmalformed := malformed_alike hs .define
  cases ho with
  | nil => exact .fail (.specialForm rfl hs)
  | cons htarget hbody =>
    cases htarget with
    | @atom a =>
      cases a with
      | symbol name =>
        cases hbody with
        | nil => exact hmalformed
        | cons hform hrest =>
          cases hrest with
          | nil => exact .bind (h _ _ (.eval hform hc)) fun _ _ hv ↦ bound_alike hc hs name hv
          | cons => exact hmalformed
      | _ => exact hmalformed
    | pair _ hname hparams =>
      refine .bind (.ofExcept (expectSymbol_excepts hname _)) ?_
      rintro name _ rfl
      exact .bind (makeClosure_alike hs hc _ hparams hbody) fun _ _ hv ↦ bound_alike hc hs name hv
    | closure => exact hmalformed
    | transformer => exact hmalformed

theorem let_alike {bindings bindings' : Node} (hb : C.Nodes bindings bindings')
    {body body' : List Node} (hbody : List.Forall₂ C.Nodes body body') :
    C.Alike C.Steps (SpecialForm.rule run ctx span .letForm (bindings :: body))
      (SpecialForm.rule run' ctx' span' .letForm (bindings' :: body')) := by
  refine .bind (.ofExcept (properList_excepts hb _)) fun items items' hitems ↦ ?_
  refine .bind (letValues_alike h hc hitems) fun pairs pairs' hpairs ↦ ?_
  exact .bind (.enter hc.scope none hpairs) fun scope scope' hscope ↦
    sequence_alike h (hc.inside hscope) hs hbody

theorem if_alike {operands operands' : List Node}
    (ho : List.Forall₂ C.Nodes operands operands') :
    C.Alike C.Steps (SpecialForm.rule run ctx span .ifForm operands)
      (SpecialForm.rule run' ctx' span' .ifForm operands') := by
  have hmalformed := malformed_alike hs .ifForm
  cases ho with
  | nil => exact hmalformed
  | cons hcondition ho =>
    cases ho with
    | nil => exact hmalformed
    | cons hconsequent ho =>
      cases ho with
      | nil =>
        refine .bind (h _ _ (.eval hcondition hc)) fun value value' hv ↦ .pure ?_
        rw [hv.isTruthy]
        split
        · exact .eval hconsequent hc
        · exact noResult_steps hs
      | cons halternate ho =>
        cases ho with
        | cons => exact hmalformed
        | nil =>
          refine .bind (h _ _ (.eval hcondition hc)) fun value value' hv ↦ .pure (.eval ?_ hc)
          rw [hv.isTruthy]
          split
          · exact hconsequent
          · exact halternate

theorem set_alike {target target' form form' : Node} (htarget : C.Nodes target target')
    (hform : C.Nodes form form') :
    C.Alike C.Steps (SpecialForm.rule run ctx span .set [target, form])
      (SpecialForm.rule run' ctx' span' .set [target', form']) := by
  refine .bind (.ofExcept (expectSymbol_excepts htarget _)) ?_
  rintro name _ rfl
  refine .bind (h _ _ (.eval hform hc)) fun value value' hv ↦ ?_
  exact .bind (.assign hc.scope name hv htarget.span) fun _ _ _ ↦ .pure (noResult_steps hs)

omit h in
theorem macro_alike {signature signature' : Node} (hsignature : C.Nodes signature signature')
    {form form' : Node} (hform : C.Nodes form form') {rest rest' : List Node}
    (hrest : List.Forall₂ C.Nodes rest rest') :
    C.Alike C.Steps (SpecialForm.rule run ctx span .macroForm (signature :: form :: rest))
      (SpecialForm.rule run' ctx' span' .macroForm (signature' :: form' :: rest')) := by
  have hmalformed := malformed_alike hs .macroForm
  have hitems := hsignature.toList?
  unfold SpecialForm.rule
  dsimp only
  generalize signature.toList? = items at hitems ⊢
  generalize signature'.toList? = items' at hitems ⊢
  cases hitems with
  | none => exact hmalformed
  | some hitems =>
    cases hitems with
    | nil => exact hmalformed
    | cons hname hitems =>
      cases hitems with
      | nil => exact hmalformed
      | cons hparam hitems =>
        cases hitems with
        | cons => exact hmalformed
        | nil =>
          refine .bind (.ofExcept (expectSymbol_excepts hname _)) ?_
          rintro name _ rfl
          refine .bind (.ofExcept (expectSymbol_excepts hparam _)) ?_
          rintro param _ rfl
          exact .bind .fresh fun label label' hl ↦
            bound_alike hc hs name (.transformer hl (.cons hform hrest) hc.scope hs)

theorem rule_alike (form : SpecialForm) {operands operands' : List Node}
    (ho : List.Forall₂ C.Nodes operands operands') :
    C.Alike C.Steps (form.rule run ctx span operands) (form.rule run' ctx' span' operands') := by
  have hmalformed := malformed_alike hs form
  cases form with
  | quote =>
    cases ho with
    | nil => exact hmalformed
    | cons hdatum ho =>
      cases ho with
      | nil => exact .pure (.done hdatum)
      | cons => exact hmalformed
  | quasiquote =>
    cases ho with
    | nil => exact hmalformed
    | cons htemplate ho =>
      cases ho with
      | nil => exact .map ((quasi_alike h hc htemplate).1 1) fun _ _ hv ↦ .done hv
      | cons => exact hmalformed
  | define => exact define_alike h hc hs ho
  | lambda =>
    cases ho with
    | nil => exact hmalformed
    | cons hparams hbody =>
      exact .map (makeClosure_alike hs hc none hparams hbody) fun _ _ hv ↦ .done hv
  | letForm =>
    cases ho with
    | nil => exact hmalformed
    | cons hbindings hbody => exact let_alike h hc hs hbindings hbody
  | ifForm => exact if_alike h hc hs ho
  | set =>
    cases ho with
    | nil => exact hmalformed
    | cons htarget ho =>
      cases ho with
      | nil => exact hmalformed
      | cons hform ho =>
        cases ho with
        | nil => exact set_alike h hc hs htarget hform
        | cons => exact hmalformed
  | whileForm =>
    cases ho with
    | nil => exact hmalformed
    | cons hcondition hbody => exact .pure (.loop hcondition hbody hc hs)
  | macroForm =>
    cases ho with
    | nil => exact hmalformed
    | cons hsignature ho =>
      cases ho with
      | nil => exact hmalformed
      | cons hform hrest => exact macro_alike hc hs hsignature hform hrest
  | begin => exact sequence_alike h hc hs ho

theorem specialForm_step_alike (form : SpecialForm) {operands operands' : Node}
    (ho : C.Nodes operands operands') :
    C.Alike C.Steps (form.step run ctx span operands) (form.step run' ctx' span' operands') :=
  .bind (.ofExcept (properList_excepts ho _)) fun _ _ hitems ↦ rule_alike h hc hs form hitems

/-! ### Calls -/

theorem enter_alike {c c' : Closure} (hclosure : C.Closures c c') {args args' : List Node}
    (ha : List.Forall₂ C.Nodes args args') :
    C.Alike C.Steps (c.enter run ctx span args) (c'.enter run' ctx' span' args') := by
  unfold Closure.enter
  rw [← hclosure.params, ← hclosure.name, ← ha.length_eq]
  split
  · refine .bind (leftOver_alike hs _ ha) fun leftOver leftOver' hl ↦ ?_
    refine .bind (.enter (hc.parent hclosure.scope) _ (bindings_bound _ ha hl)) ?_
    intro scope scope' hscope
    exact sequence_alike h (hc.inside hscope) hs hclosure.body
  · exact .fail (.arguments rfl hs)

omit h in
theorem native_step_alike {p : Native} (hp : p.IsBuiltin) {args args' : List Node}
    (ha : List.Forall₂ C.Nodes args args') :
    C.Alike C.Steps (p.step run ctx span args) (p.step run' ctx' span' args') := by
  obtain ⟨op, hop⟩ := hp
  unfold Native.step
  rw [hop]
  refine .bind (.ofExcept (run_excepts hs ha)) fun reply reply' hreply ↦ ?_
  cases hreply with
  | value hn => exact .map (.adopt hn) fun _ _ hv ↦ .done hv
  | call hp hargs => exact .pure (.apply hp hargs hc hs)

theorem procedure_step_alike {p p' : Procedure} (hp : C.Procedures p p') {args args' : List Node}
    (ha : List.Forall₂ C.Nodes args args') :
    C.Alike C.Steps (p.step run ctx span args) (p'.step run' ctx' span' args') := by
  cases hp with
  | native hp => exact native_step_alike hc hs hp ha
  | closure hclosure => exact enter_alike h hc hs hclosure ha

theorem expand_alike {t t' : Transformer} (ht : C.Transformers t t') {operands operands' : Node}
    (ho : C.Nodes operands operands') :
    C.Alike C.Nodes (t.expand run ctx span operands) (t'.expand run' ctx' span' operands') := by
  refine .bind (.enter (hc.parent ht.scope) none (.cons ⟨ht.param, ho⟩ .nil)) ?_
  intro scope scope' hscope
  exact .bind (sequence_alike h (hc.inside hscope) hs ht.body) fun last last' hlast ↦ h _ _ hlast

omit hs in
theorem headValue_alike {head head' : Node} (hh : C.Nodes head head') :
    C.Alike C.Nodes (headValue run ctx head) (headValue run' ctx' head') := by
  unfold headValue
  rw [hh.symbol?]
  split
  · exact .lookup _ hh.span hc
  · exact h _ _ (.eval hh hc)

theorem callStep_alike {head head' operands operands' : Node} (hh : C.Nodes head head')
    (ho : C.Nodes operands operands') :
    C.Alike C.Steps (callStep run ctx span head operands)
      (callStep run' ctx' span' head' operands') := by
  refine .bind (headValue_alike h hc hh) fun value value' hv ↦ ?_
  have htransformer := hv.transformer?
  have hprocedure := hv.procedure?
  generalize value.transformer? = t at htransformer ⊢
  generalize value'.transformer? = t' at htransformer ⊢
  generalize value.procedure? = p at hprocedure ⊢
  generalize value'.procedure? = p' at hprocedure ⊢
  cases htransformer with
  | some ht =>
    refine .bind (expand_alike h hc hs ht ho) fun expansion expansion' he ↦ ?_
    exact .bind (.note _ _) fun _ _ _ ↦ .pure (.eval he hc)
  | none =>
    cases hprocedure with
    | some hp =>
      refine .bind (arguments_alike h hc ho) fun args args' ha ↦ ?_
      exact .pure (.apply hp ha hc hs)
    | none =>
      refine .fail ⟨?_, hh.span⟩
      rw [EvalError.complaint, EvalError.complaint, hh.symbol?, hv.text]

/-! ### Steps -/

omit hs in
theorem evalStep_alike {form form' : Node} (hform : C.Nodes form form') :
    C.Alike C.Steps (evalStep run form ctx) (evalStep run' form' ctx') := by
  have hself := hform
  cases hform with
  | @atom a _ _ _ hs =>
    cases a with
    | symbol name => exact .map (.lookup name hs hc) fun _ _ hv ↦ .done hv
    | _ => exact .pure (.done hself)
  | pair _ hhead hoperands hs =>
    unfold evalStep
    dsimp only
    rw [hhead.symbol?]
    split
    · exact specialForm_step_alike h hc hs _ hoperands
    · exact callStep_alike h hc hs hhead hoperands
  | closure => exact .pure (.done hself)
  | transformer => exact .pure (.done hself)

theorem loopStep_alike {condition condition' : Node} (hcondition : C.Nodes condition condition')
    {body body' : List Node} (hb : List.Forall₂ C.Nodes body body') :
    C.Alike C.Steps (loopStep run condition body ctx span)
      (loopStep run' condition' body' ctx' span') := by
  refine .bind (h _ _ (.eval hcondition hc)) fun value value' hv ↦ ?_
  rw [hv.isTruthy]
  split
  · exact .bind (effects_alike h hc hb) fun _ _ _ ↦ .pure (.loop hcondition hb hc hs)
  · exact .pure (.done (.undefined hs))

end

/-- **Corresponding steps do the same.** -/
theorem next_alike {run run' : Runner} (h : C.Runs run run') {step step' : Step}
    (hs : C.Steps step step') : C.Alike C.Steps (step.next run) (step'.next run') := by
  cases hs with
  | done hv => exact .pure (.done hv)
  | eval hform hc => exact evalStep_alike h hc hform
  | apply hp hargs hc hs =>
    exact .bind (.note _ _) fun _ _ _ ↦ procedure_step_alike h hc hs hp hargs
  | loop hcondition hbody hc hs => exact loopStep_alike h hc hs hcondition hbody

/-! ### Runs -/

/-- Runs of corresponding steps come to the same end with the same amount of fuel. -/
theorem runStep_alike (fuel : Nat) : C.Runs (runStep fuel) (runStep fuel) := by
  induction fuel with
  | zero => exact fun _ _ _ _ _ _ ↦ .outOfFuel
  | succ fuel ih =>
    intro step step' hs
    cases hs with
    | done hv => exact .pure hv
    | eval hform hc => exact .bind (next_alike ih (.eval hform hc)) fun _ _ hnext ↦ ih _ _ hnext
    | apply hp hargs hc hs =>
      exact .bind (next_alike ih (.apply hp hargs hc hs)) fun _ _ hnext ↦ ih _ _ hnext
    | loop hcondition hbody hc hs =>
      exact .bind (next_alike ih (.loop hcondition hbody hc hs)) fun _ _ hnext ↦ ih _ _ hnext

/-- **Evaluation comes to the same end on corresponding machines.** -/
theorem evaluate_alike (fuel : Nat) {form form' : Node} (hform : C.Nodes form form')
    {ctx ctx' : Context} (hc : C.Places ctx ctx') :
    C.Alike C.Nodes (evaluate fuel form ctx) (evaluate fuel form' ctx') :=
  .bind (.adopt hform) fun _ _ hadopted ↦ runStep_alike fuel _ _ (.eval hadopted hc)

end Correspondence

end MiniLisp
