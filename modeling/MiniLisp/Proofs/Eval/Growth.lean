import MiniLisp.Proofs.Eval.Grounded
import MiniLisp.Proofs.Eval.Invariant
import MiniLisp.Proofs.Eval.Occurrence

/-!
# Evaluation on grounded machines

Evaluation only adds scopes, each inside one that exists, and only binds data whose scopes exist.
So a machine that is grounded at the beginning is grounded whenever a form is evaluated on the way,
and at the end (`Occurs.grounded`, `Grounding.evaluate_agree`).

A limit on scopes stands for the machine as it was when some data came up. Machines further on have
at least as many scopes, and data may be grounded in any of them, so what is known of a value is
known for some limit in between. That is what the continuation of an action is given
(`Grounding.Agree.bind`).

As for disciplines, two ways to run steps are followed side by side. They agree on grounded steps on
grounded machines, so the runs inside a run are seen as well.
-/

namespace MiniLisp

namespace Grounding

variable (numbers : Prop) {ε α β : Type}

/-- The machine is grounded in the end, and has all scopes below a limit. A value has a property for
some limit in between. -/
def Ends (limit : ScopeId) (post : ScopeId → α → Prop) : Outcome ε α → Prop
  | .ok value m => m.Grounded numbers ∧
    ∃ limit', limit ≤ limit' ∧ limit' ≤ m.store.next ∧ post limit' value
  | .error _ m => m.Grounded numbers ∧ limit ≤ m.store.next
  | .outOfFuel => True

/-- On grounded machines that have all scopes below a limit, two actions end alike, and leave such
machines behind. -/
def Agree (limit : ScopeId) (post : ScopeId → α → Prop) (x y : Action ε α) : Prop :=
  ∀ m, m.Grounded numbers → limit ≤ m.store.next → x m = y m ∧ Ends numbers limit post (x m)

/-- Two ways to run steps agree on grounded steps. -/
def Runs (run run' : Runner) : Prop :=
  ∀ limit step, step.Grounded numbers limit →
    Agree numbers limit (Node.Grounded numbers) (run step) (run' step)

variable {numbers}

theorem Ends.le {limit limit' : ScopeId} {post : ScopeId → α → Prop} {outcome : Outcome ε α}
    (h : Ends numbers limit' post outcome) (hle : limit ≤ limit') :
    Ends numbers limit post outcome := by
  cases outcome with
  | ok value m =>
    obtain ⟨hm, limit'', hle', hnext, hpost⟩ := h
    exact ⟨hm, limit'', Nat.le_trans hle hle', hnext, hpost⟩
  | error cause m => exact ⟨h.1, Nat.le_trans hle h.2⟩
  | outOfFuel => trivial

namespace Agree

variable {limit : ScopeId}

/-- The machine that is left behind is grounded, whether the action ends in a value or in an
error. -/
theorem of_machine? {post : ScopeId → α → Prop} {x y : Action ε α}
    (h : Agree numbers limit post x y) {m m' : Machine} (hm : m.Grounded numbers)
    (hle : limit ≤ m.store.next) (hends : (x m).machine? = some m') :
    m'.Grounded numbers ∧ limit ≤ m'.store.next := by
  obtain ⟨-, hx⟩ := h m hm hle
  cases e : x m with
  | ok value after =>
    rw [e] at hx hends
    obtain ⟨hafter, limit', hle', hnext, -⟩ := hx
    exact Option.some.inj hends ▸ ⟨hafter, Nat.le_trans hle' hnext⟩
  | error cause after =>
    rw [e] at hx hends
    exact Option.some.inj hends ▸ hx
  | outOfFuel =>
    rw [e] at hends
    cases hends

theorem of_ok {post : ScopeId → α → Prop} {x y : Action ε α} (h : Agree numbers limit post x y)
    {m m' : Machine} (hm : m.Grounded numbers) (hle : limit ≤ m.store.next) {value : α}
    (hx : x m = .ok value m') :
    m'.Grounded numbers ∧
      ∃ limit', limit ≤ limit' ∧ limit' ≤ m'.store.next ∧ post limit' value := by
  have hends := (h m hm hle).2
  rwa [hx] at hends

theorem pure {post : ScopeId → α → Prop} {value : α} (h : post limit value) :
    Agree numbers limit post (Pure.pure value : Action ε α) (Pure.pure value) :=
  fun _ hm hle ↦ ⟨rfl, hm, limit, Nat.le_refl _, hle, h⟩

theorem fail {post : ScopeId → α → Prop} (cause : ε) :
    Agree numbers limit post (Action.fail cause) (Action.fail cause) :=
  fun _ hm hle ↦ ⟨rfl, hm, hle⟩

theorem bind {post : ScopeId → α → Prop} {post' : ScopeId → β → Prop} {x y : Action ε α}
    {f g : α → Action ε β} (h : Agree numbers limit post x y)
    (hf : ∀ limit' value, limit ≤ limit' → post limit' value →
      Agree numbers limit' post' (f value) (g value)) :
    Agree numbers limit post' (x >>= f) (y >>= g) := by
  intro m hm hle
  obtain ⟨heq, hends⟩ := h m hm hle
  show Action.bind x f m = Action.bind y g m ∧ Ends numbers limit post' (Action.bind x f m)
  unfold Action.bind
  rw [← heq]
  cases e : x m with
  | ok value after =>
    rw [e] at hends
    obtain ⟨hafter, limit', hle', hnext, hpost⟩ := hends
    obtain ⟨hsame, hrest⟩ := hf limit' value hle' hpost after hafter hnext
    exact ⟨hsame, hrest.le hle'⟩
  | error cause after =>
    rw [e] at hends
    exact ⟨rfl, hends⟩
  | outOfFuel => exact ⟨rfl, trivial⟩

theorem map {post : ScopeId → α → Prop} {post' : ScopeId → β → Prop} {x y : Action ε α} {f : α → β}
    (h : Agree numbers limit post x y)
    (hf : ∀ limit' value, post limit' value → post' limit' (f value)) :
    Agree numbers limit post' (f <$> x) (f <$> y) := by
  rw [← bind_pure_comp, ← bind_pure_comp]
  exact h.bind fun limit' value _ hv ↦ .pure (hf limit' value hv)

theorem ofExcept {post : ScopeId → α → Prop} {e : Except ε α} (h : Gives (post limit) e) :
    Agree numbers limit post (Action.ofExcept e) (Action.ofExcept e) := by
  cases e with
  | ok value => exact .pure (h value rfl)
  | error cause => exact .fail cause

/-- Of some values nothing has to be known. -/
theorem ofExcept_any (e : Except ε α) :
    Agree numbers limit (fun _ _ ↦ True) (Action.ofExcept e) (Action.ofExcept e) :=
  ofExcept fun _ _ ↦ trivial

/-! ### The actions on the machine -/

theorem store : Agree numbers limit (fun _ _ ↦ True) (Action.store : Action ε Store) Action.store :=
  fun _ hm hle ↦ ⟨rfl, hm, limit, Nat.le_refl _, hle, trivial⟩

theorem enter {outer : ScopeId} (houter : outer < limit) (name : Option String)
    {pairs : List (String × Node)} (hpairs : ∀ p ∈ pairs, p.2.Grounded numbers limit) :
    Agree numbers limit (fun limit' scope ↦ scope < limit')
      (Action.enter outer name pairs : Action ε ScopeId) (Action.enter outer name pairs) := by
  intro m hm hle
  have hbindings := Bindings.forall_mem_ofList (P := Node.Grounded numbers limit) hpairs
  refine ⟨rfl, hm.add ?_ fun p hp ↦ (hbindings p hp).mono hle, m.store.next + 1,
    Nat.le_succ_of_le hle, ?_, Nat.lt_succ_self _⟩
  · rintro _ ⟨⟩
    exact Nat.lt_of_lt_of_le houter hle
  · exact Nat.le_of_eq (Store.next_add _ _).symm

theorem define (id : ScopeId) (name : String) {value : Node} (h : value.Grounded numbers limit) :
    Agree numbers limit (fun _ _ ↦ True) (Action.define id name value : Action ε Unit)
      (Action.define id name value) := by
  intro m hm hle
  refine ⟨rfl, hm.define id name (h.mono hle), limit, Nat.le_refl _, ?_, trivial⟩
  rw [Store.define, Store.next_rebind]
  exact hle

theorem assign (id : ScopeId) (name : String) {value : Node} (h : value.Grounded numbers limit)
    (span : Span) :
    Agree numbers limit (fun _ _ ↦ True) (Action.assign id name value span)
      (Action.assign id name value span) := by
  intro m hm hle
  refine ⟨rfl, ?_⟩
  unfold Action.assign
  split
  · exact (define (ε := EvalError) _ name h m hm hle).2
  · exact ⟨hm, hle⟩

theorem fresh :
    Agree numbers limit (fun _ _ ↦ True) (Action.fresh : Action ε Label) Action.fresh :=
  fun _ hm hle ↦ ⟨rfl, ⟨hm.linked, hm.holds⟩, limit, Nat.le_refl _, hle, trivial⟩

theorem adopt {n : Node} (h : n.Grounded numbers limit) :
    Agree numbers limit (Node.Grounded numbers) (Action.adopt n : Action ε Node)
      (Action.adopt n) :=
  fun m hm hle ↦ ⟨rfl, ⟨hm.linked, hm.holds⟩, limit, Nat.le_refl _, hle, h.adopt m.label⟩

theorem note (event : Event) :
    Agree numbers limit (fun _ _ ↦ True) (Action.note event : Action ε Unit)
      (Action.note event) :=
  fun _ hm hle ↦ ⟨rfl, ⟨hm.linked, hm.holds⟩, limit, Nat.le_refl _, hle, trivial⟩

theorem lookup (name : String) (span : Span) (ctx : Context) :
    Agree numbers limit (Node.Grounded numbers) (lookup name span ctx) (lookup name span ctx) := by
  intro m hm hle
  refine ⟨rfl, ?_⟩
  unfold MiniLisp.lookup
  repeat' split
  all_goals first
    | next hfound => exact ⟨hm, m.store.next, hle, Nat.le_refl _, hm.holds.of_get? hfound⟩
    | exact ⟨hm, hle⟩

end Agree

/-! ### Rule by rule

A rule is given grounded data in a place of the machine. The step that it hands back is grounded.
-/

section

variable {run run' : Runner} {limit : ScopeId} {ctx : Context} {span : Span}

theorem bindings_grounded (p : Params) {args : List Node}
    (ha : Node.AllGrounded numbers limit args) {leftOver : Node}
    (hl : leftOver.Grounded numbers limit) :
    ∀ q ∈ p.bindings args leftOver, q.2.Grounded numbers limit := by
  unfold Params.bindings
  refine List.forall_mem_append.mpr ⟨fun q hq ↦ ha _ (List.of_mem_zip hq).2, ?_⟩
  split
  · exact nofun
  · exact List.forall_mem_singleton.mpr hl

theorem noResult_grounded (span : Span) :
    (SpecialForm.noResult span).Grounded numbers limit :=
  Node.Grounded.leaf (a := .undefined) nofun span

theorem makeClosure_agree (name : Option String) (params : Node) {body : List Node}
    (hb : Node.AllGrounded numbers limit body) (hc : ctx.Within limit) :
    Agree numbers limit (Node.Grounded numbers) (makeClosure name params body span ctx)
      (makeClosure name params body span ctx) := by
  unfold makeClosure
  split
  · exact .fail _
  · refine .bind (.ofExcept_any _) fun limit₁ _ hle₁ _ ↦ .bind .fresh fun limit₂ _ hle₂ _ ↦ .pure ?_
    have hle : limit ≤ limit₂ := Nat.le_trans hle₁ hle₂
    exact .closure (hb.mono hle) (hc.mono hle).scope

theorem leftOver_agree (p : Params) {args : List Node} (ha : Node.AllGrounded numbers limit args) :
    Agree numbers limit (Node.Grounded numbers) (p.leftOver args span) (p.leftOver args span) := by
  unfold Params.leftOver
  split
  · exact .pure (.nil span)
  · exact .adopt (.ofList (fun n hn ↦ ha n (List.mem_of_mem_drop hn)) span)

variable (h : Runs numbers run run') (hc : ctx.Within limit)

include h hc

theorem effects_agree {body : List Node} (hb : Node.AllGrounded numbers limit body) :
    Agree numbers limit (fun _ _ ↦ True) (effects run ctx body) (effects run' ctx body) := by
  induction body generalizing limit with
  | nil => exact .pure trivial
  | cons form rest ih =>
    obtain ⟨hform, hrest⟩ := List.forall_mem_cons.mp hb
    exact .bind (h _ _ ⟨hform, hc⟩) fun _ _ hle _ ↦ ih (hc.mono hle) (.mono hrest hle)

theorem sequence_agree {body : List Node} (hb : Node.AllGrounded numbers limit body) :
    Agree numbers limit (Step.Grounded numbers) (sequence run ctx span body)
      (sequence run' ctx span body) := by
  induction body generalizing limit with
  | nil => exact .pure (noResult_grounded span)
  | cons form rest ih =>
    obtain ⟨hform, hrest⟩ := List.forall_mem_cons.mp hb
    cases rest with
    | nil => exact .pure ⟨hform, hc⟩
    | cons => exact .bind (h _ _ ⟨hform, hc⟩) fun _ _ hle _ ↦ ih (hc.mono hle) (.mono hrest hle)

theorem arguments_agree {operands : Node} (ho : operands.Grounded numbers limit) :
    Agree numbers limit (Node.AllGrounded numbers) (arguments run ctx operands)
      (arguments run' ctx operands) := by
  induction operands generalizing limit with
  | atom a s =>
    cases a with
    | nil => exact .pure nofun
    | _ => exact .fail _
  | pair l a d s _ ih =>
    obtain ⟨ha, hd⟩ := ho.parts
    refine .bind (h _ _ ⟨ha, hc⟩) fun limit₁ value hle₁ hv ↦ ?_
    refine .bind (ih (hc.mono hle₁) (hd.mono hle₁)) fun limit₂ values hle₂ hvs ↦ .pure ?_
    exact List.forall_mem_cons.mpr ⟨hv.mono hle₂, hvs⟩
  | closure => exact .fail _
  | transformer => exact .fail _

/-! ### Templates -/

theorem spliced_agree {operand : Node} (ho : operand.Grounded numbers limit) :
    Agree numbers limit (Node.AllGrounded numbers) (spliced run ctx operand span)
      (spliced run' ctx operand span) := by
  refine .bind (h _ _ ⟨ho, hc⟩) fun limit' value _ hv ↦ ?_
  split
  · next items hitems => exact .pure (hv.items hitems)
  · exact .fail _

omit h hc in
theorem rewrap_agree (mark : QuoteMark) {operand : Node} {depth : Nat}
    (ho : Agree numbers limit (Node.Grounded numbers) (quasi run ctx operand depth)
      (quasi run' ctx operand depth)) :
    Agree numbers limit (Node.Grounded numbers)
      (quasi run ctx operand depth >>= rewrap mark span)
      (quasi run' ctx operand depth >>= rewrap mark span) := by
  refine .bind ho fun limit' inner _ hinner ↦ .adopt (.ofList ?_ span)
  exact List.forall_mem_cons.mpr ⟨.symbol _ span, List.forall_mem_singleton.mpr hinner⟩

theorem quasi_agree {template : Node} (ht : template.Grounded numbers limit) (depth : Nat) :
    Agree numbers limit (Node.Grounded numbers) (quasi run ctx template depth)
      (quasi run' ctx template depth) := by
  induction template using Node.template_induct generalizing limit depth with
  | leaf n hn =>
    rw [quasi_leaf run ctx hn, quasi_leaf run' ctx hn]
    exact .pure ht
  | marked l car cdr s mark operand hform ih =>
    obtain ⟨hmarked, hquote⟩ := templateForm?_eq_some_iff.mp hform
    have hoperand : operand.Grounded numbers limit := ht.parts.2.of_isMarked hmarked
    rw [quasi_pair, quasi_pair, hform]
    cases mark with
    | quote => exact absurd rfl hquote
    | unquote =>
      dsimp only
      split
      · exact h _ _ ⟨hoperand, hc⟩
      · exact rewrap_agree .unquote (ih hc hoperand _)
    | splice =>
      dsimp only
      split
      · exact .fail _
      · exact rewrap_agree .splice (ih hc hoperand _)
    | quasiquote => exact rewrap_agree .quasiquote (ih hc hoperand _)
  | plain l car cdr s hform ihcar ihcdr =>
    obtain ⟨hcar, hcdr⟩ := ht.parts
    rw [quasi_pair, quasi_pair, hform]
    dsimp only
    unfold quasiElements
    split
    · next operand hsplice =>
      have hoperand : operand.Grounded numbers limit := by
        split at hsplice
        · exact hcar.of_operandOf? hsplice
        · cases hsplice
      refine .bind (spliced_agree h hc hoperand) fun limit₁ items hle₁ hitems ↦ ?_
      refine .bind (ihcdr (hc.mono hle₁) (hcdr.mono hle₁) _) fun limit₂ tail hle₂ htail ↦ ?_
      exact .adopt (.listWithTail (hitems.mono hle₂) htail s)
    · refine .bind (ihcar hc hcar _) fun limit₁ first hle₁ hfirst ↦ ?_
      refine .bind (ihcdr (hc.mono hle₁) (hcdr.mono hle₁) _) fun limit₂ rest hle₂ hrest ↦ ?_
      exact .adopt (.pair (hfirst.mono hle₂) hrest)

/-! ### Special forms -/

theorem letValues_agree {bindings : List Node} (hb : Node.AllGrounded numbers limit bindings) :
    Agree numbers limit (fun limit' pairs ↦ ∀ p ∈ pairs, p.2.Grounded numbers limit')
      (SpecialForm.letValues run ctx bindings) (SpecialForm.letValues run' ctx bindings) := by
  induction bindings generalizing limit with
  | nil => exact .pure nofun
  | cons binding rest ih =>
    obtain ⟨hbinding, hrest⟩ := List.forall_mem_cons.mp hb
    unfold SpecialForm.letValues
    split
    · next name form hitems =>
      have hform : form.Grounded numbers limit :=
        hbinding.items hitems form (List.mem_cons_of_mem _ List.mem_cons_self)
      refine .bind (.ofExcept_any _) fun limit₁ name hle₁ _ ↦ ?_
      refine .bind (h _ _ ⟨hform.mono hle₁, hc.mono hle₁⟩) fun limit₂ value hle₂ hv ↦ ?_
      have hle : limit ≤ limit₂ := Nat.le_trans hle₁ hle₂
      refine .bind (ih (hc.mono hle) (.mono hrest hle)) fun limit₃ values hle₃ hvs ↦ .pure ?_
      exact List.forall_mem_cons.mpr ⟨hv.mono hle₃, hvs⟩
    · exact .fail _

omit h hc in
/-- All three kinds of definitions bind a name and have no result. -/
theorem bound_agree (id : ScopeId) (name : String) {value : Node}
    (hv : value.Grounded numbers limit) :
    Agree numbers limit (Step.Grounded numbers)
      (do Action.define id name value; return SpecialForm.noResult span : Action EvalError Step)
      (do Action.define id name value; return SpecialForm.noResult span) :=
  .bind (.define id name hv) fun _ _ _ _ ↦ .pure (noResult_grounded span)

theorem rule_agree (form : SpecialForm) {operands : List Node}
    (ho : Node.AllGrounded numbers limit operands) :
    Agree numbers limit (Step.Grounded numbers) (form.rule run ctx span operands)
      (form.rule run' ctx span operands) := by
  unfold SpecialForm.rule
  split
  case h_1 datum => exact .pure (ho datum List.mem_cons_self)
  case h_2 template =>
    exact .map (quasi_agree h hc (ho template List.mem_cons_self) 1) fun _ _ hv ↦ hv
  case h_3 => exact .fail _
  case h_4 name s form =>
    have hform : form.Grounded numbers limit := ho form (List.mem_cons_of_mem _ List.mem_cons_self)
    exact .bind (h _ _ ⟨hform, hc⟩) fun _ value hle hv ↦ bound_agree _ _ hv
  case h_5 l target params s body =>
    obtain ⟨hsignature, hbody⟩ := List.forall_mem_cons.mp ho
    refine .bind (.ofExcept_any _) fun limit₁ name hle₁ _ ↦ ?_
    exact .bind (makeClosure_agree _ _ (.mono hbody hle₁) (hc.mono hle₁)) fun _ value hle₂ hv ↦
      bound_agree _ _ hv
  case h_6 params body =>
    obtain ⟨-, hbody⟩ := List.forall_mem_cons.mp ho
    exact .map (makeClosure_agree _ _ hbody hc) fun _ _ hv ↦ hv
  case h_7 bindings body =>
    obtain ⟨hbindings, hbody⟩ := List.forall_mem_cons.mp ho
    refine .bind (.ofExcept (properList_grounded hbindings _)) fun limit₁ bindings hle₁ hb ↦ ?_
    refine .bind (letValues_agree h (hc.mono hle₁) hb) fun limit₂ pairs hle₂ hpairs ↦ ?_
    have hle : limit ≤ limit₂ := Nat.le_trans hle₁ hle₂
    refine .bind (.enter (hc.mono hle).scope _ hpairs) fun limit₃ scope hle₃ hscope ↦ ?_
    exact sequence_agree h (.inside ctx hscope) (.mono hbody (Nat.le_trans hle hle₃))
  case h_8 condition consequent =>
    obtain ⟨hcondition, hconsequent⟩ := List.forall_mem_cons.mp ho
    refine .bind (h _ _ ⟨hcondition, hc⟩) fun limit' value hle _ ↦ .pure ?_
    cases value.isTruthy with
    | true => exact ⟨(hconsequent _ List.mem_cons_self).mono hle, hc.mono hle⟩
    | false => exact noResult_grounded span
  case h_9 condition consequent alternate =>
    obtain ⟨hcondition, hrest⟩ := List.forall_mem_cons.mp ho
    obtain ⟨hconsequent, halternate⟩ := List.forall_mem_cons.mp hrest
    refine .bind (h _ _ ⟨hcondition, hc⟩) fun limit' value hle _ ↦ .pure ⟨?_, hc.mono hle⟩
    cases value.isTruthy with
    | true => exact hconsequent.mono hle
    | false => exact (halternate _ List.mem_cons_self).mono hle
  case h_10 target form =>
    have hform : form.Grounded numbers limit := ho form (List.mem_cons_of_mem _ List.mem_cons_self)
    refine .bind (.ofExcept_any _) fun limit₁ name hle₁ _ ↦ ?_
    refine .bind (h _ _ ⟨hform.mono hle₁, hc.mono hle₁⟩) fun limit₂ value hle₂ hv ↦ ?_
    exact .bind (.assign _ _ hv _) fun _ _ _ _ ↦ .pure (noResult_grounded span)
  case h_11 condition body =>
    obtain ⟨hcondition, hbody⟩ := List.forall_mem_cons.mp ho
    exact .pure ⟨hcondition, hbody, hc⟩
  case h_12 signature form rest =>
    obtain ⟨-, hbody⟩ := List.forall_mem_cons.mp ho
    split
    · refine .bind (.ofExcept_any _) fun limit₁ name hle₁ _ ↦ ?_
      refine .bind (.ofExcept_any _) fun limit₂ param hle₂ _ ↦ ?_
      refine .bind .fresh fun limit₃ label hle₃ _ ↦ ?_
      have hle : limit ≤ limit₃ := Nat.le_trans hle₁ (Nat.le_trans hle₂ hle₃)
      have hforms : Node.AllGrounded numbers limit₃ (form :: rest) := .mono hbody hle
      exact bound_agree _ _ (.transformer hforms (hc.mono hle).scope)
    · exact .fail _
  case h_13 body => exact sequence_agree h hc ho
  case h_14 => exact .fail _

theorem specialForm_step_agree (form : SpecialForm) {operands : Node}
    (ho : operands.Grounded numbers limit) :
    Agree numbers limit (Step.Grounded numbers) (form.step run ctx span operands)
      (form.step run' ctx span operands) :=
  .bind (.ofExcept (properList_grounded ho _)) fun _ _ hle hitems ↦
    rule_agree h (hc.mono hle) form hitems

/-! ### Calls -/

theorem host_step_agree (op : HostOperation) {args : List Node}
    (ha : Node.AllGrounded numbers limit args) :
    Agree numbers limit (Step.Grounded numbers) (op.step run ctx span args)
      (op.step run' ctx span args) := by
  unfold HostOperation.step
  split
  · exact .bind .store fun _ _ _ _ ↦ .pure (Node.Grounded.string _ span)
  · refine .bind .store fun limit' store _ _ ↦ .map (.adopt (.ofList ?_ span)) fun _ _ hv ↦ hv
    have hnumber (x : Int) : (Node.number (.ofInt x) span).Grounded numbers limit' :=
      .number (Number.ofInt_canonical x) span
    refine List.forall_mem_cons.mpr ⟨.string _ span, List.forall_mem_cons.mpr ⟨?_, ?_⟩⟩
    · cases ctx.dynamic with
      | none => exact .nil span
      | some active => exact .string _ span
    · exact List.forall_mem_cons.mpr ⟨hnumber _, List.forall_mem_singleton.mpr (hnumber _)⟩
  · next target args =>
    obtain ⟨htarget, hargs⟩ := List.forall_mem_cons.mp ha
    split
    · next procedure hprocedure =>
      exact .pure ⟨htarget.of_procedure? hprocedure, hargs, hc⟩
    · exact .fail _
  · exact .fail _
  · next form rest =>
    exact .map (h _ _ ⟨ha form List.mem_cons_self, hc⟩) fun _ _ hv ↦ hv
  · exact .fail _
  · refine .bind .store fun limit' store _ _ ↦ .map (.adopt (.ofList ?_ span)) fun _ _ hv ↦ hv
    intro n hn
    obtain ⟨name, -, rfl⟩ := List.mem_map.mp hn
    exact .symbol name span

theorem native_step_agree (p : Native) {args : List Node}
    (ha : Node.AllGrounded numbers limit args) :
    Agree numbers limit (Step.Grounded numbers) (p.step run ctx span args)
      (p.step run' ctx span args) := by
  unfold Native.step
  split
  · refine .bind (.ofExcept (Builtin.run_grounded ha)) fun limit' reply hle hreply ↦ ?_
    cases reply with
    | value n => exact .map (.adopt hreply) fun _ _ hv ↦ hv
    | call procedure args => exact .pure ⟨hreply.1, hreply.2, hc.mono hle⟩
  · exact host_step_agree h hc _ ha

theorem enter_agree {c : Closure} (hclosure : (Procedure.closure c).Grounded numbers limit)
    {args : List Node} (ha : Node.AllGrounded numbers limit args) :
    Agree numbers limit (Step.Grounded numbers) (c.enter run ctx span args)
      (c.enter run' ctx span args) := by
  obtain ⟨hbody, hscope⟩ := hclosure
  unfold Closure.enter
  split
  · refine .bind (leftOver_agree _ ha) fun limit₁ leftOver hle₁ hl ↦ ?_
    have houter : ctx.parent c.scope < limit₁ := Nat.lt_of_lt_of_le (hc.parent_lt hscope) hle₁
    have hpairs := bindings_grounded c.params (ha.mono hle₁) hl
    refine .bind (.enter houter _ hpairs) fun limit₂ scope hle₂ hs ↦ ?_
    exact sequence_agree h (.inside ctx hs) (hbody.mono (Nat.le_trans hle₁ hle₂))
  · exact .fail _

theorem procedure_step_agree {p : Procedure} (hp : p.Grounded numbers limit) {args : List Node}
    (ha : Node.AllGrounded numbers limit args) :
    Agree numbers limit (Step.Grounded numbers) (p.step run ctx span args)
      (p.step run' ctx span args) := by
  cases p with
  | native p => exact native_step_agree h hc p ha
  | closure c => exact enter_agree h hc hp ha

theorem expand_agree {t : Transformer} (ht : t.Grounded numbers limit) {operands : Node}
    (ho : operands.Grounded numbers limit) :
    Agree numbers limit (Node.Grounded numbers) (t.expand run ctx span operands)
      (t.expand run' ctx span operands) := by
  refine .bind (.enter (hc.parent_lt ht.2) _ (List.forall_mem_singleton.mpr ho))
    fun limit₁ scope hle₁ hscope ↦ ?_
  exact .bind (sequence_agree h (.inside ctx hscope) (ht.1.mono hle₁)) fun _ last _ hlast ↦
    h _ _ hlast

theorem headValue_agree {head : Node} (hh : head.Grounded numbers limit) :
    Agree numbers limit (Node.Grounded numbers) (headValue run ctx head)
      (headValue run' ctx head) := by
  unfold headValue
  split
  · exact .lookup _ _ _
  · exact h _ _ ⟨hh, hc⟩

theorem callStep_agree {head operands : Node} (hh : head.Grounded numbers limit)
    (ho : operands.Grounded numbers limit) :
    Agree numbers limit (Step.Grounded numbers) (callStep run ctx span head operands)
      (callStep run' ctx span head operands) := by
  refine .bind (headValue_agree h hc hh) fun limit₁ value hle₁ hv ↦ ?_
  replace hc := hc.mono hle₁
  replace ho := ho.mono hle₁
  split
  · next t ht =>
    refine .bind (expand_agree h hc (hv.of_transformer? ht) ho) fun limit₂ expansion hle₂ he ↦ ?_
    exact .bind (.note _) fun limit₃ _ hle₃ _ ↦
      .pure ⟨he.mono hle₃, hc.mono (Nat.le_trans hle₂ hle₃)⟩
  · next procedure _ hprocedure =>
    refine .bind (arguments_agree h hc ho) fun limit₂ args hle₂ ha ↦ .pure ?_
    exact ⟨(hv.of_procedure? hprocedure).mono hle₂, ha, hc.mono hle₂⟩
  · exact .fail _

/-! ### Steps -/

theorem evalStep_agree {form : Node} (hform : form.Grounded numbers limit) :
    Agree numbers limit (Step.Grounded numbers) (evalStep run form ctx)
      (evalStep run' form ctx) := by
  unfold evalStep
  split
  · exact .map (.lookup _ _ _) fun _ _ hv ↦ hv
  · obtain ⟨hhead, hoperands⟩ := hform.parts
    split
    · exact specialForm_step_agree h hc _ hoperands
    · exact callStep_agree h hc hhead hoperands
  · exact .pure hform

theorem loopStep_agree {condition : Node} (hcondition : condition.Grounded numbers limit)
    {body : List Node} (hb : Node.AllGrounded numbers limit body) :
    Agree numbers limit (Step.Grounded numbers) (loopStep run condition body ctx span)
      (loopStep run' condition body ctx span) := by
  refine .bind (h _ _ ⟨hcondition, hc⟩) fun limit₁ value hle₁ _ ↦ ?_
  split
  · refine .bind (effects_agree h (hc.mono hle₁) (hb.mono hle₁)) fun limit₂ _ hle₂ _ ↦ .pure ?_
    have hle : limit ≤ limit₂ := Nat.le_trans hle₁ hle₂
    exact ⟨hcondition.mono hle, hb.mono hle, hc.mono hle⟩
  · exact .pure (noResult_grounded span)

omit hc in
/-- **A grounded step stays on grounded machines**, and hands back a grounded step. -/
theorem next_agree {step : Step} (hs : step.Grounded numbers limit) :
    Agree numbers limit (Step.Grounded numbers) (step.next run) (step.next run') := by
  cases step with
  | done value => exact .pure hs
  | eval form ctx => exact evalStep_agree h hs.2 hs.1
  | apply procedure args ctx span =>
    obtain ⟨hprocedure, hargs, hplace⟩ := hs
    refine .bind (.note _) fun limit' _ hle _ ↦ ?_
    exact procedure_step_agree h (hplace.mono hle) (hprocedure.mono hle) (hargs.mono hle)
  | loop condition body ctx span => exact loopStep_agree h hs.2.2 hs.1 hs.2.1

end

/-! ### Runs -/

/-- Runs of grounded steps stay on grounded machines. -/
theorem runStep_agree (fuel : Nat) : Runs numbers (runStep fuel) (runStep fuel) := by
  induction fuel with
  | zero => exact fun _ _ _ _ _ _ ↦ ⟨rfl, trivial⟩
  | succ fuel ih =>
    intro limit step hs
    cases step with
    | done value => exact .pure hs
    | eval | apply | loop =>
      exact .bind (next_agree ih hs) fun limit' next _ hnext ↦ ih limit' next hnext

theorem evaluate_agree (fuel : Nat) {limit : ScopeId} {form : Node}
    (hform : form.Grounded numbers limit) {ctx : Context} (hc : ctx.Within limit) :
    Agree numbers limit (Node.Grounded numbers) (evaluate fuel form ctx)
      (evaluate fuel form ctx) :=
  .bind (.adopt hform) fun _ _ hle hadopted ↦ runStep_agree fuel _ _ ⟨hadopted, hc.mono hle⟩

/-! ### What occurs -/

/-- What a rule asks for are grounded steps on grounded machines, if it ends alike with all ways to
run steps that agree on these. -/
theorem grounded_of_asks {post : ScopeId → α → Prop} {rule : Runner → Action EvalError α}
    {limit : ScopeId}
    (hrule : ∀ run run', Runs numbers run run' → Agree numbers limit post (rule run) (rule run'))
    {fuel : Nat} {m : Machine} (hm : m.Grounded numbers) (hle : limit ≤ m.store.next) {step : Step}
    {m' : Machine} (h : Asks rule (runStep fuel) m step m') :
    m'.Grounded numbers ∧ step.Grounded numbers m'.store.next := by
  refine Classical.byContradiction fun hnot ↦ ?_
  obtain ⟨run', hsame, hne⟩ := h
  have hruns : Runs numbers (runStep fuel) run' := by
    intro limit' s hs n hn hle'
    have hother : ¬(s = step ∧ n = m') := by
      rintro ⟨rfl, rfl⟩
      exact hnot ⟨hn, hs.mono hle'⟩
    exact ⟨(hsame s n hother).symm, (runStep_agree fuel limit' s hs n hn hle').2⟩
  exact hne (hrule _ _ hruns m hm hle).1.symm

end Grounding

/-- The data and the places in an activity are grounded. -/
def Activity.Grounded (numbers : Prop) (limit : ScopeId) : Activity → Prop
  | .step s => s.Grounded numbers limit
  | .expansion t operands ctx _ =>
    t.Grounded numbers limit ∧ operands.Grounded numbers limit ∧ ctx.Within limit

/-- An activity is grounded in the machine on which it begins, which is grounded too. -/
def Moment.Grounded (numbers : Prop) (p : Moment) : Prop :=
  p.machine.Grounded numbers ∧ p.activity.Grounded numbers p.machine.store.next

variable {numbers : Prop}

open Grounding in
theorem Starts.grounded {p q : Moment} (h : Starts p q) (hp : p.Grounded numbers) :
    q.Grounded numbers := by
  obtain ⟨hm, hactivity⟩ := hp
  cases h with
  | nested fuel asks =>
    exact grounded_of_asks (fun _ _ hruns ↦ next_agree hruns hactivity) hm (Nat.le_refl _) asks
  | next fuel hands =>
    obtain ⟨hm', limit, -, hle, hstep⟩ :=
      (next_agree (runStep_agree fuel) hactivity).of_ok hm (Nat.le_refl _) hands
    exact ⟨hm', hstep.mono hle⟩
  | expand fuel call finds isMacro =>
    obtain ⟨hform, hc⟩ := hactivity
    obtain ⟨hhead, hoperands⟩ := hform.parts
    obtain ⟨hm', limit, hle, hle', hvalue⟩ :=
      (headValue_agree (runStep_agree fuel) hc hhead).of_ok hm (Nat.le_refl _) finds
    have hnext := Nat.le_trans hle hle'
    exact ⟨hm', (hvalue.mono hle').of_transformer? isMacro, hoperands.mono hnext, hc.mono hnext⟩
  | body fuel asks =>
    obtain ⟨ht, hoperands, hc⟩ := hactivity
    exact grounded_of_asks (fun _ _ hruns ↦ expand_agree hruns hc ht hoperands) hm (Nat.le_refl _)
      asks

/-- **All that occurs in a grounded activity is grounded.** -/
theorem Occurs.grounded {p q : Moment} (h : Occurs p q) (hp : p.Grounded numbers) :
    q.Grounded numbers := by
  induction h with
  | refl => exact hp
  | tail _ hstarts ih => exact hstarts.grounded ih

/-- The evaluation of a grounded form in a place of a grounded machine begins so. -/
theorem Moment.start_grounded {form : Node} {ctx : Context} {m : Machine} (hm : m.Grounded numbers)
    (hform : form.Grounded numbers m.store.next) (hc : ctx.Within m.store.next) :
    (Moment.start form ctx m).Grounded numbers :=
  ⟨⟨hm.linked, hm.holds⟩, hform.adopt m.label, hc⟩

end MiniLisp
