import MiniLisp.Proofs.Eval.Correspondence

/-!
# Built-in operations on corresponding arguments

A built-in operation only looks at its arguments as data: at their types, at the numbers in them, at
how they are written, and at whether they are equal or identical. None of that differs between
corresponding arguments, so the operation makes corresponding answers of them, or fails with the
same complaint (`Correspondence.run_excepts`).
-/

namespace MiniLisp

namespace Correspondence

variable (C : Correspondence)

/-- The answers are the same. -/
inductive Replies : Reply → Reply → Prop
  | value {n n' : Node} (hn : C.Nodes n n') : Replies (.value n) (.value n')
  | call {p p' : Procedure} {args args' : List Node} (hp : C.Procedures p p')
      (hargs : List.Forall₂ C.Nodes args args') : Replies (.call p args) (.call p' args')

variable {C} {op : Builtin} {n n' : Node} {args args' : List Node}

/-! ### The number of arguments -/

theorem eq_nil_of_length (h : List.Forall₂ C.Nodes args args') (hlength : args.length = 0) :
    args = [] ∧ args' = [] := by
  cases h with
  | nil => exact ⟨rfl, rfl⟩
  | cons => cases hlength

theorem exists_of_length_succ (h : List.Forall₂ C.Nodes args args') {count : Nat}
    (hlength : args.length = count + 1) :
    ∃ n n' rest rest', C.Nodes n n' ∧ List.Forall₂ C.Nodes rest rest' ∧ rest.length = count ∧
      args = n :: rest ∧ args' = n' :: rest' := by
  cases h with
  | nil => cases hlength
  | cons hn hrest => exact ⟨_, _, _, _, hn, hrest, Nat.succ.inj hlength, rfl, rfl⟩

section

variable {s s' : Span} (hs : C.Spans s s')

include hs

/-! ### Numbers -/

theorem expectNumber_excepts (op : Builtin) (hn : C.Nodes n n') (place : Nat) :
    C.Excepts Eq (Builtin.expectNumber op s place n) (Builtin.expectNumber op s' place n') := by
  unfold Builtin.expectNumber
  rw [hn.number?]
  split
  · exact .ok rfl
  · exact .error (.arguments_typeName (fun _ ↦ rfl) hn hs)

theorem foldNumbers_excepts (f : Number → Number → Except NumberError Number) (place : Nat)
    (acc : Number) (h : List.Forall₂ C.Nodes args args') :
    C.Excepts Eq (Builtin.foldNumbers op s f place acc args)
      (Builtin.foldNumbers op s' f place acc args') := by
  induction h generalizing place acc with
  | nil => exact .ok rfl
  | @cons n n' rest rest' hn _ ih =>
    have hnumber := expectNumber_excepts hs op hn place
    rw [Builtin.foldNumbers, Builtin.foldNumbers]
    generalize Builtin.expectNumber op s place n = e at hnumber ⊢
    generalize Builtin.expectNumber op s' place n' = e' at hnumber ⊢
    cases hnumber with
    | error he => exact .error he
    | @ok x _ hx =>
      subst hx
      dsimp only
      cases f acc x with
      | error fault => exact .error ⟨rfl, hs⟩
      | ok acc => exact ih _ _

theorem foldFromFirst_excepts (neutral : Number)
    (f : Number → Number → Except NumberError Number) (h : List.Forall₂ C.Nodes args args') :
    C.Excepts Eq (Builtin.foldFromFirst op s neutral f args)
      (Builtin.foldFromFirst op s' neutral f args') := by
  cases h with
  | nil => exact .ok rfl
  | @cons n n' rest rest' hn hrest =>
    cases hrest with
    | nil => exact foldNumbers_excepts hs f 1 neutral (.cons hn .nil)
    | cons hn₂ hrest =>
      have hnumber := expectNumber_excepts hs op hn 1
      rw [Builtin.foldFromFirst, Builtin.foldFromFirst]
      · generalize Builtin.expectNumber op s 1 n = e at hnumber ⊢
        generalize Builtin.expectNumber op s' 1 n' = e' at hnumber ⊢
        cases hnumber with
        | error he => exact .error he
        | ok hx =>
          subst hx
          exact foldNumbers_excepts hs f 2 _ (.cons hn₂ hrest)
      · exact nofun
      · exact nofun

theorem ordered_excepts (test : Ordering → Bool) (place : Nat) (result : Bool) (last : Number)
    (h : List.Forall₂ C.Nodes args args') :
    C.Excepts Eq (Builtin.ordered op s test place result last args)
      (Builtin.ordered op s' test place result last args') := by
  induction h generalizing place result last with
  | nil => exact .ok rfl
  | @cons n n' rest rest' hn _ ih =>
    have hnumber := expectNumber_excepts hs op hn place
    rw [Builtin.ordered, Builtin.ordered]
    generalize Builtin.expectNumber op s place n = e at hnumber ⊢
    generalize Builtin.expectNumber op s' place n' = e' at hnumber ⊢
    cases hnumber with
    | error he => exact .error he
    | ok hx =>
      subst hx
      exact ih _ _ _

theorem compareAll_excepts (test : Ordering → Bool) (h : List.Forall₂ C.Nodes args args') :
    C.Excepts Eq (Builtin.compareAll op s test args) (Builtin.compareAll op s' test args') := by
  cases h with
  | nil => exact .ok rfl
  | @cons n n' rest rest' hn hrest =>
    have hnumber := expectNumber_excepts hs op hn 1
    rw [Builtin.compareAll, Builtin.compareAll]
    generalize Builtin.expectNumber op s 1 n = e at hnumber ⊢
    generalize Builtin.expectNumber op s' 1 n' = e' at hnumber ⊢
    cases hnumber with
    | error he => exact .error he
    | ok hx =>
      subst hx
      exact ordered_excepts hs test 2 true _ hrest

/-- An answer without parts is known by its value. -/
theorem leaf_excepts {a a' : Atom} (ha : ∀ p, a ≠ .native p) (heq : a = a') :
    C.Excepts C.Replies (.ok (.value (.atom a s))) (.ok (.value (.atom a' s'))) := by
  subst heq
  exact .ok (.value (.leaf ha hs))

theorem numeric_excepts {e e' : Except EvalError Number} (h : C.Excepts Eq e e') :
    C.Excepts C.Replies (Builtin.numeric s e) (Builtin.numeric s' e') := by
  cases h with
  | ok hx =>
    subst hx
    exact leaf_excepts hs nofun rfl
  | error he => exact .error he

theorem truth_excepts {e e' : Except EvalError Bool} (h : C.Excepts Eq e e') :
    C.Excepts C.Replies (Builtin.truth s e) (Builtin.truth s' e') := by
  cases h with
  | ok hb =>
    subst hb
    exact leaf_excepts hs nofun rfl
  | error he => exact .error he

end

/-! ### Lists -/

theorem expectPair_excepts (hn : C.Nodes n n') :
    C.Excepts (fun parts parts' ↦ C.Nodes parts.1 parts'.1 ∧ C.Nodes parts.2 parts'.2)
      (Builtin.expectPair op n) (Builtin.expectPair op n') := by
  have herror :
      C.Errors (.arguments (.notPair op n) n.span) (.arguments (.notPair op n') n'.span) :=
    .arguments_typeName (fun _ ↦ rfl) hn hn.span
  cases hn with
  | pair _ ha hd => exact .ok ⟨ha, hd⟩
  | _ => exact .error herror

theorem spread_excepts (h : List.Forall₂ C.Nodes args args') :
    C.Excepts (List.Forall₂ C.Nodes) (Builtin.spread args) (Builtin.spread args') := by
  induction h with
  | nil => exact .ok .nil
  | @cons n n' rest rest' hn hrest ih =>
    cases hrest with
    | nil =>
      have hitems := hn.toList?
      rw [Builtin.spread, Builtin.spread]
      generalize n.toList? = items at hitems ⊢
      generalize n'.toList? = items' at hitems ⊢
      cases hitems with
      | some hitems => exact .ok hitems
      | none => exact .error (.arguments_typeName (fun _ ↦ rfl) hn hn.span)
    | @cons n₂ n₂' rest rest' =>
      rw [Builtin.spread_cons, Builtin.spread_cons]
      exact ih.map fun _ _ hargs ↦ .cons hn hargs

theorem displayTexts_eq (h : List.Forall₂ C.Nodes args args') :
    args.map Node.displayText = args'.map Node.displayText := by
  induction h with
  | nil => rfl
  | cons hn _ ih => rw [List.map_cons, List.map_cons, hn.displayText, ih]

/-! ### All operations -/

/-- The answers to a right number of corresponding arguments are the same. -/
theorem answer_excepts {s s' : Span} (hs : C.Spans s s') (h : List.Forall₂ C.Nodes args args')
    (hcount : op.arity.accepts args.length = true) :
    C.Excepts C.Replies (op.answer s args) (op.answer s' args') := by
  -- The shape of the arguments, for the operations that take a fixed number of them.
  have one (harity : op.arity = .exactly 1) :
      ∃ n n', C.Nodes n n' ∧ args = [n] ∧ args' = [n'] := by
    rw [harity] at hcount
    obtain ⟨n, n', rest, rest', hn, hrest, hlength, rfl, rfl⟩ :=
      exists_of_length_succ h (beq_iff_eq.mp hcount)
    obtain ⟨rfl, rfl⟩ := eq_nil_of_length hrest hlength
    exact ⟨n, n', hn, rfl, rfl⟩
  have two (harity : op.arity = .exactly 2) :
      ∃ a a' d d', C.Nodes a a' ∧ C.Nodes d d' ∧ args = [a, d] ∧ args' = [a', d'] := by
    rw [harity] at hcount
    obtain ⟨a, a', tail, tail', ha, htail, hlength, rfl, rfl⟩ :=
      exists_of_length_succ h (beq_iff_eq.mp hcount)
    obtain ⟨d, d', rest, rest', hd, hrest, hzero, rfl, rfl⟩ := exists_of_length_succ htail hlength
    obtain ⟨rfl, rfl⟩ := eq_nil_of_length hrest hzero
    exact ⟨a, a', d, d', ha, hd, rfl, rfl⟩
  cases op with
  | add => exact numeric_excepts hs (foldNumbers_excepts hs _ _ _ h)
  | mul => exact numeric_excepts hs (foldNumbers_excepts hs _ _ _ h)
  | sub =>
    cases h with
    | nil => exact absurd hcount (by decide)
    | cons hn hrest =>
      cases hrest with
      | nil =>
        have hnumber := expectNumber_excepts hs .sub hn 1
        exact numeric_excepts hs (hnumber.map fun _ _ hx ↦ congrArg Number.neg hx)
      | cons hn₂ hrest =>
        exact numeric_excepts hs (foldFromFirst_excepts hs _ _ (.cons hn (.cons hn₂ hrest)))
  | div => exact numeric_excepts hs (foldFromFirst_excepts hs _ _ h)
  | expt => exact numeric_excepts hs (foldFromFirst_excepts hs _ _ h)
  | numEq => exact truth_excepts hs (compareAll_excepts hs _ h)
  | less => exact truth_excepts hs (compareAll_excepts hs _ h)
  | lessEq => exact truth_excepts hs (compareAll_excepts hs _ h)
  | greater => exact truth_excepts hs (compareAll_excepts hs _ h)
  | greaterEq => exact truth_excepts hs (compareAll_excepts hs _ h)
  | same =>
    obtain ⟨a, a', d, d', ha, hd, rfl, rfl⟩ := two rfl
    exact leaf_excepts hs nofun (congrArg Atom.boolean (ha.same hd))
  | identical =>
    obtain ⟨a, a', d, d', ha, hd, rfl, rfl⟩ := two rfl
    exact leaf_excepts hs nofun (congrArg Atom.boolean (ha.identical hd))
  | cons =>
    obtain ⟨a, a', d, d', ha, hd, rfl, rfl⟩ := two rfl
    exact .ok (.value (.pair .none ha hd hs))
  | car =>
    obtain ⟨n, n', hn, rfl, rfl⟩ := one rfl
    exact (expectPair_excepts hn).map fun _ _ hparts ↦ .value hparts.1
  | cdr =>
    obtain ⟨n, n', hn, rfl, rfl⟩ := one rfl
    exact (expectPair_excepts hn).map fun _ _ hparts ↦ .value hparts.2
  | cadr =>
    obtain ⟨n, n', hn, rfl, rfl⟩ := one rfl
    refine (expectPair_excepts hn).bind fun _ _ hparts ↦ ?_
    exact (expectPair_excepts hparts.2).bind fun _ _ hparts ↦ .ok (.value hparts.1)
  | list => exact .ok (.value (.ofList h hs))
  | concat =>
    exact leaf_excepts hs nofun (congrArg (fun texts ↦ Atom.string (String.join texts))
      (displayTexts_eq h))
  | string =>
    obtain ⟨n, n', hn, rfl, rfl⟩ := one rfl
    exact leaf_excepts hs nofun (congrArg Atom.string hn.displayText)
  | not =>
    obtain ⟨n, n', hn, rfl, rfl⟩ := one rfl
    exact leaf_excepts hs nofun (congrArg (fun b ↦ Atom.boolean !b) hn.isTruthy)
  | apply =>
    cases h with
    | nil => exact absurd hcount (by decide)
    | @cons n n' rest rest' hn hrest =>
      have hprocedure := hn.procedure?
      unfold Builtin.answer
      dsimp only
      generalize n.procedure? = p at hprocedure ⊢
      generalize n'.procedure? = p' at hprocedure ⊢
      cases hprocedure with
      | some hp => exact (spread_excepts hrest).map fun _ _ hargs ↦ .call hp hargs
      | none => exact .error ⟨congrArg (Complaint.notCallable none) hn.text, hs⟩
  | typeName =>
    obtain ⟨n, n', hn, rfl, rfl⟩ := one rfl
    exact leaf_excepts hs nofun (congrArg Atom.string hn.typeName)
  | isNull | isPair | isNumber | isBoolean | isSymbol | isString | isProcedure =>
    obtain ⟨n, n', hn, rfl, rfl⟩ := one rfl
    exact leaf_excepts hs nofun (congrArg (fun name ↦ Atom.boolean (name == _)) hn.typeName)

/-- **Built-in operations do not tell corresponding arguments apart.** -/
theorem run_excepts {s s' : Span} (hs : C.Spans s s') (h : List.Forall₂ C.Nodes args args') :
    C.Excepts C.Replies (op.run s args) (op.run s' args') := by
  unfold Builtin.run
  rw [← h.length_eq]
  split
  · next hcount => exact answer_excepts hs h hcount
  · exact .error (.arguments rfl hs)

end Correspondence

end MiniLisp
