import MiniLisp.Eval.Run

/-!
# Disciplines

A discipline says which places, spans and data may come up while forms are evaluated. Data has two
roles. *Code* is evaluated, and *values* are computed with; code is a value as soon as it is quoted,
and a value becomes code only where a macro expands to it or where a host evaluates its argument. A
discipline may do without both, and then its values need not be code at all; in the same way it may
do without splices.

The laws are what single rules need: they take data apart, and put new data together from parts and
from spans that may come up. The built-in operations are no laws but follow them
(`Discipline.run_allows`). Whether an error is allowed is only a matter of its span.
-/

namespace MiniLisp

/-- What may come up in an evaluation. -/
structure Discipline where
  place : Context → Prop
  span : Span → Prop
  code : Node → Prop
  value : Node → Prop
  /-- Values may be evaluated, by macros and by hosts. -/
  reflection : Prop
  /-- Splices may stand in templates. -/
  splices : Prop
  place_inside : ∀ {ctx}, place ctx → ∀ id, place (ctx.inside id)
  code_span : ∀ {n}, code n → span n.span
  code_parts : ∀ {label a d s}, code (.pair label a d s) → code a ∧ code d
  code_adopt : ∀ {n}, code n → ∀ label, code (n.adopt label).1
  code_macro : ∀ {label head operands s}, code (.pair label head operands s) →
    head.symbol?.bind SpecialForm.ofName? = some .macroForm → reflection
  code_splice : ∀ {n operand}, code n → n.operandOf? QuoteMark.splice.name = some operand → splices
  value_of_code : ∀ {n}, code n → value n
  code_of_value : reflection → ∀ {n}, value n → code n
  value_parts : ∀ {label a d s}, value (.pair label a d s) → value a ∧ value d
  value_adopt : ∀ {n}, value n → ∀ label, value (n.adopt label).1
  /-- What is no pair is in its place. -/
  leaf_span : ∀ {n}, value n → n.car? = none → span n.span
  /-- What is no proper list is in its place. -/
  improper_span : ∀ {n}, value n → n.toList? = none → span n.span
  native_host : ∀ {p s}, value (.atom (.native p) s) → p.operation = .host .eval → reflection
  value_atom : ∀ {a s}, (∀ p, a ≠ .native p) → span s → value (.atom a s)
  value_pair : ∀ {a d s}, value a → value d → span s → value (.pair none a d s)
  value_list : ∀ {items s}, (∀ n ∈ items, value n) → span s → value (.ofList items s)
  value_splice : splices → ∀ {items tail s}, (∀ n ∈ items, value n) → value tail → span s →
    value (.listWithTail items tail s)
  closure_forms : ∀ {label name params body scope s},
    value (.closure label name params body scope s) → ∀ form ∈ body, code form
  value_closure : ∀ {label name params body scope s}, (∀ form ∈ body, code form) → span s →
    value (.closure label name params body scope s)
  transformer_forms : ∀ {label name param body scope s},
    value (.transformer label name param body scope s) → reflection ∧ ∀ form ∈ body, code form
  value_transformer : reflection → ∀ {label name param body scope s}, (∀ form ∈ body, code form) →
    span s → value (.transformer label name param body scope s)

namespace Discipline

variable (D : Discipline) {α β : Type}

/-- A computation that may fail gives a value with a property or an error in its place. -/
def Allows (post : α → Prop) : Except EvalError α → Prop
  | .ok value => post value
  | .error cause => D.span cause.span

/-- What a procedure evaluates is code. -/
def Applies : Procedure → Prop
  | .native p => p.operation = .host .eval → D.reflection
  | .closure c => ∀ form ∈ c.body, D.code form

/-- The answer of a native is a value, or a call of a procedure with values. -/
def Replies : Reply → Prop
  | .value n => D.value n
  | .call procedure args => D.Applies procedure ∧ ∀ n ∈ args, D.value n

variable {D}

theorem Allows.map {post : α → Prop} {post' : β → Prop} {e : Except EvalError α} {f : α → β}
    (h : D.Allows post e) (hf : ∀ value, post value → post' (f value)) :
    D.Allows post' (e.map f) := by
  cases e with
  | ok value => exact hf value h
  | error cause => exact h

theorem Allows.bind {post : α → Prop} {post' : β → Prop} {e : Except EvalError α}
    {f : α → Except EvalError β} (h : D.Allows post e)
    (hf : ∀ value, post value → D.Allows post' (f value)) : D.Allows post' (e >>= f) := by
  cases e with
  | ok value => exact hf value h
  | error cause => exact h

/-- The error that an allowed computation fails with is in its place. -/
theorem Allows.error {post : α → Prop} {e : Except EvalError α} (h : D.Allows post e)
    {cause : EvalError} (he : e = .error cause) : D.span cause.span := by
  rw [he] at h
  exact h

/-! ### Taking data apart -/

/-- The elements of a list are parts of it. -/
theorem forall_mem_toList? {P : Node → Prop}
    (hparts : ∀ {label a d s}, P (.pair label a d s) → P a ∧ P d) {n : Node} {items : List Node}
    (h : P n) (hitems : n.toList? = some items) : ∀ item ∈ items, P item := by
  induction n generalizing items with
  | atom a s =>
    cases a with
    | nil => cases hitems; exact nofun
    | _ => cases hitems
  | pair label a d s _ ihd =>
    rw [Node.toList?_pair] at hitems
    obtain ⟨rest, hrest, rfl⟩ := Option.map_eq_some_iff.mp hitems
    exact List.forall_mem_cons.mpr ⟨(hparts h).1, ihd (hparts h).2 hrest⟩
  | closure => cases hitems
  | transformer => cases hitems

theorem code_items {n : Node} {items : List Node} (h : D.code n) (hitems : n.toList? = some items) :
    ∀ item ∈ items, D.code item := forall_mem_toList? D.code_parts h hitems

theorem value_items {n : Node} {items : List Node} (h : D.value n)
    (hitems : n.toList? = some items) : ∀ item ∈ items, D.value item :=
  forall_mem_toList? D.value_parts h hitems

theorem code_operandOf? {name : String} {n operand : Node} (h : D.code n)
    (hoperand : n.operandOf? name = some operand) : D.code operand := by
  unfold Node.operandOf? at hoperand
  split at hoperand
  · split at hoperand
    · obtain rfl := Option.some.inj hoperand
      exact (D.code_parts (D.code_parts h).2).1
    · cases hoperand
  · cases hoperand

theorem applies_of_procedure? {n : Node} {procedure : Procedure} (h : D.value n)
    (hprocedure : n.procedure? = some procedure) : D.Applies procedure := by
  cases n with
  | atom a s =>
    cases a with
    | native p => cases hprocedure; exact D.native_host h
    | _ => cases hprocedure
  | closure => cases hprocedure; exact D.closure_forms h
  | pair => cases hprocedure
  | transformer => cases hprocedure

theorem forms_of_transformer? {n : Node} {t : Transformer} (h : D.value n)
    (ht : n.transformer? = some t) : D.reflection ∧ ∀ form ∈ t.body, D.code form := by
  cases n with
  | transformer => cases ht; exact D.transformer_forms h
  | _ => cases ht

theorem properList_allows {n : Node} (h : D.code n) (part : ListPart) :
    D.Allows (fun items ↦ ∀ item ∈ items, D.code item) (properList part n) := by
  unfold properList
  split
  · next items hitems => exact code_items h hitems
  · exact D.code_span h

theorem expectSymbol_allows {n : Node} (h : D.code n) (part : NamePart) :
    D.Allows (fun _ ↦ True) (expectSymbol part n) := by
  unfold expectSymbol
  split
  · trivial
  · exact D.code_span h

theorem parametersIn_allows {whole n : Node} (hwhole : D.code whole) (h : D.code n) :
    D.Allows (fun _ ↦ True) (parametersIn whole n) := by
  induction n with
  | atom a s =>
    cases a with
    | nil => trivial
    | symbol => trivial
    | _ => exact D.code_span hwhole
  | pair label a d s _ ihd =>
    obtain ⟨ha, hd⟩ := D.code_parts h
    exact (expectSymbol_allows ha _).bind fun _ _ ↦ (ihd hd).bind fun _ _ ↦ trivial
  | closure => exact D.code_span hwhole
  | transformer => exact D.code_span hwhole

/-! ### Built-in operations

The arguments are values, and the span is that of the call. -/

section

variable {op : Builtin} {s : Span} (hs : D.span s)

include hs

theorem expectNumber_allows (place : Nat) (n : Node) :
    D.Allows (fun _ ↦ True) (Builtin.expectNumber op s place n) := by
  unfold Builtin.expectNumber
  split
  · trivial
  · exact hs

theorem foldNumbers_allows (f : Number → Number → Except NumberError Number) (place : Nat)
    (acc : Number) (args : List Node) :
    D.Allows (fun _ ↦ True) (Builtin.foldNumbers op s f place acc args) := by
  induction args generalizing place acc with
  | nil => trivial
  | cons n rest ih =>
    rw [Builtin.foldNumbers]
    split
    · next cause hcause => exact (expectNumber_allows hs _ n).error hcause
    · split
      · exact hs
      · exact ih _ _

theorem foldFromFirst_allows (neutral : Number) (f : Number → Number → Except NumberError Number)
    (args : List Node) :
    D.Allows (fun _ ↦ True) (Builtin.foldFromFirst op s neutral f args) := by
  unfold Builtin.foldFromFirst
  split
  · trivial
  · exact foldNumbers_allows hs _ _ _ _
  · next n rest _ =>
    split
    · next cause hcause => exact (expectNumber_allows hs _ n).error hcause
    · exact foldNumbers_allows hs _ _ _ _

theorem ordered_allows (test : Ordering → Bool) (place : Nat) (result : Bool) (last : Number)
    (args : List Node) :
    D.Allows (fun _ ↦ True) (Builtin.ordered op s test place result last args) := by
  induction args generalizing place result last with
  | nil => trivial
  | cons n rest ih =>
    rw [Builtin.ordered]
    split
    · next cause hcause => exact (expectNumber_allows hs _ n).error hcause
    · exact ih _ _ _

theorem compareAll_allows (test : Ordering → Bool) (args : List Node) :
    D.Allows (fun _ ↦ True) (Builtin.compareAll op s test args) := by
  unfold Builtin.compareAll
  split
  · trivial
  · next n rest =>
    split
    · next cause hcause => exact (expectNumber_allows hs _ n).error hcause
    · exact ordered_allows hs _ _ _ _ _

theorem numeric_allows {e : Except EvalError Number} (h : D.Allows (fun _ ↦ True) e) :
    D.Allows D.Replies (Builtin.numeric s e) := by
  cases e with
  | ok x => exact D.value_atom nofun hs
  | error cause => exact h

theorem truth_allows {e : Except EvalError Bool} (h : D.Allows (fun _ ↦ True) e) :
    D.Allows D.Replies (Builtin.truth s e) := by
  cases e with
  | ok b => exact D.value_atom nofun hs
  | error cause => exact h

omit hs in
theorem expectPair_allows {n : Node} (h : D.value n) :
    D.Allows (fun parts ↦ D.value parts.1 ∧ D.value parts.2) (Builtin.expectPair op n) := by
  unfold Builtin.expectPair
  split
  · exact D.value_parts h
  · next hpair =>
    have hleaf : n.car? = none := by
      cases n with
      | pair label a d t => exact absurd rfl (hpair label a d t)
      | _ => rfl
    exact D.leaf_span h hleaf

omit hs in
theorem spread_allows {args : List Node} (h : ∀ n ∈ args, D.value n) :
    D.Allows (fun spread ↦ ∀ n ∈ spread, D.value n) (Builtin.spread args) := by
  fun_induction Builtin.spread args with
  | case1 => exact nofun
  | case2 last items hitems => exact value_items (h last List.mem_cons_self) hitems
  | case3 last himproper => exact D.improper_span (h last List.mem_cons_self) himproper
  | case4 n rest hrest args hargs ih =>
    obtain ⟨hn, hrest⟩ := List.forall_mem_cons.mp h
    have ih := ih hrest
    rw [hargs] at ih
    exact List.forall_mem_cons.mpr ⟨hn, ih⟩
  | case5 n rest hrest cause hcause ih =>
    have ih := ih (List.forall_mem_cons.mp h).2
    rwa [hcause] at ih

theorem answer_allows {args : List Node} (hargs : ∀ n ∈ args, D.value n) :
    D.Allows D.Replies (op.answer s args) := by
  have hatom {a : Atom} (ha : ∀ p, a ≠ .native p) :
      D.Allows D.Replies (.ok (.value (.atom a s))) := D.value_atom ha hs
  unfold Builtin.answer
  split
  case h_1 => exact numeric_allows hs (foldNumbers_allows hs _ _ _ _)
  case h_2 => exact numeric_allows hs (foldNumbers_allows hs _ _ _ _)
  case h_3 n => exact numeric_allows hs ((expectNumber_allows hs 1 n).map fun _ _ ↦ trivial)
  case h_4 => exact numeric_allows hs (foldFromFirst_allows hs _ _ _)
  case h_5 => exact numeric_allows hs (foldFromFirst_allows hs _ _ _)
  case h_6 => exact numeric_allows hs (foldFromFirst_allows hs _ _ _)
  case h_7 => exact truth_allows hs (compareAll_allows hs _ _)
  case h_8 => exact truth_allows hs (compareAll_allows hs _ _)
  case h_9 => exact truth_allows hs (compareAll_allows hs _ _)
  case h_10 => exact truth_allows hs (compareAll_allows hs _ _)
  case h_11 => exact truth_allows hs (compareAll_allows hs _ _)
  case h_15 a d =>
    obtain ⟨ha, hd⟩ := List.forall_mem_cons.mp hargs
    exact D.value_pair ha (hd d List.mem_cons_self) hs
  case h_16 n =>
    exact (expectPair_allows (hargs n List.mem_cons_self)).map fun _ h ↦ h.1
  case h_17 n =>
    exact (expectPair_allows (hargs n List.mem_cons_self)).map fun _ h ↦ h.2
  case h_18 n =>
    refine (expectPair_allows (hargs n List.mem_cons_self)).bind fun parts h ↦ ?_
    exact (expectPair_allows h.2).bind fun _ h ↦ h.1
  case h_19 => exact D.value_list hargs hs
  case h_23 n rest =>
    obtain ⟨hn, hrest⟩ := List.forall_mem_cons.mp hargs
    split
    · next procedure hprocedure =>
      exact (spread_allows hrest).map fun _ h ↦ ⟨applies_of_procedure? hn hprocedure, h⟩
    · exact hs
  case h_31 => exact hs
  all_goals exact hatom nofun

/-- What a built-in operation makes of values is allowed. -/
theorem run_allows {args : List Node} (hargs : ∀ n ∈ args, D.value n) :
    D.Allows D.Replies (op.run s args) := by
  unfold Builtin.run
  split
  · exact answer_allows hs hargs
  · exact hs

end

end Discipline

end MiniLisp
