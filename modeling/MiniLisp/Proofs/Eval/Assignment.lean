import MiniLisp.Eval.Fuel
import MiniLisp.Proofs.Data.Adoption
import MiniLisp.Proofs.Scope.Chain

/-!
# Reading and assigning a name

A symbol is looked up on the chain of the scope it is evaluated in, and only when nothing there binds
it on the chain of a dynamic scope other than that one. An assignment goes by the first of these
chains and never by the second. So both go to the same binding whenever the first chain has one
(`assign_reaches_read`), and a name that is visible in the dynamic scope alone can be read but not be
assigned (`assign_misses_dynamic`).
-/

namespace MiniLisp

/-! ### The forms -/

namespace Node

/-- A node that stands for itself when it is evaluated: it is neither a symbol nor a pair. -/
def SelfEvaluating (n : Node) : Prop := n.symbol? = none ∧ n.car? = none

/-- The form `(set! target value)`, under either name of the special form. -/
def IsAssignment (n target value : Node) : Prop :=
  ∃ head, n.toList? = some [head, target, value] ∧
    head.symbol?.bind SpecialForm.ofName? = some .set

variable {target value n : Node} {name : String}

theorem SelfEvaluating.missing_eq (h : n.SelfEvaluating) : n.missing = 0 := by
  cases n with
  | pair => cases h.2
  | _ => rfl

/-- An assignment of a name to a value that stands for itself keeps its shape when it is adopted. -/
theorem IsAssignment.adopt (h : n.IsAssignment target value) (htarget : target.symbol? = some name)
    (hvalue : value.SelfEvaluating) (next : Label) :
    (n.adopt next).1.IsAssignment target value := by
  obtain ⟨head, hlist, hhead⟩ := h
  obtain ⟨keyword, hkeyword, -⟩ := Option.bind_eq_some_iff.mp hhead
  refine ⟨head, toList?_adopt_of_missing hlist ?_ next, hhead⟩
  simp [missing_of_symbol? hkeyword, missing_of_symbol? htarget, hvalue.missing_eq]

end Node

/-! ### Evaluating them -/

section

variable {n target value : Node} {name : String} {ctx : Context} {m m' : Machine}

/-- What ends with some fuel ends alike with more. -/
theorem evaluate_of_le {fuel more : Nat} (hle : fuel ≤ more)
    (h : evaluate fuel n ctx m = .ok value m') : evaluate more n ctx m = .ok value m' := by
  have hends : runStep fuel (.eval (n.adopt m.label).1 ctx)
      { m with label := (n.adopt m.label).2 } = .ok value m' := h
  exact (runStep_mono hle _ _ (by rw [hends]; exact nofun)).trans hends

/-- The value of a symbol is what its name is found to be bound to. -/
theorem runStep_symbol (h : n.symbol? = some name) (ctx : Context) (fuel : Nat) (m : Machine) :
    runStep (fuel + 2) (.eval n ctx) m = lookup name n.span ctx m := by
  match n, h with
  | .atom (.symbol name) s, rfl =>
    show Action.bind (Action.bind (lookup name s ctx) fun value ↦ Action.pure (.done value))
      (runStep (fuel + 1)) m = lookup name s ctx m
    unfold Action.bind
    cases lookup name s ctx m <;> rfl

theorem evaluate_symbol (h : n.symbol? = some name) (ctx : Context) (fuel : Nat) :
    evaluate (fuel + 2) n ctx m = lookup name n.span ctx m := by
  have hadopt : n.adopt m.label = (n, m.label) :=
    Node.adopt_of_missing (Node.missing_of_symbol? h) _
  show runStep (fuel + 2) (.eval (n.adopt m.label).1 ctx)
    { m with label := (n.adopt m.label).2 } = _
  rw [hadopt]
  exact runStep_symbol h ctx fuel m

theorem runStep_selfEvaluating (h : n.SelfEvaluating) (ctx : Context) (fuel : Nat) :
    runStep (fuel + 2) (.eval n ctx) = Action.pure n := by
  cases n with
  | atom a => cases a <;> first | rfl | cases h.1
  | pair => cases h.2
  | closure => rfl
  | transformer => rfl

/-- The rule for an assignment of a value that is known. -/
theorem next_assignment {run : Runner} (h : n.IsAssignment target value)
    (htarget : target.symbol? = some name) (hvalue : run (.eval value ctx) = pure value) :
    (Step.eval n ctx).next run = (do
      Action.assign ctx.scope name value target.span
      return .done (.undefined n.span)) := by
  obtain ⟨head, hlist, hhead⟩ := h
  have hname : expectSymbol (.target .set) target = .ok name := by rw [expectSymbol, htarget]
  rw [Step.next_special run hlist hhead]
  unfold SpecialForm.rule
  dsimp only
  rw [hname, hvalue]
  rfl

/-- An assignment of a value that stands for itself changes what the name means in the scope, and
fails where it has no meaning there. -/
theorem evaluate_assignment (h : n.IsAssignment target value)
    (htarget : target.symbol? = some name) (hvalue : value.SelfEvaluating) (ctx : Context)
    (m : Machine) (fuel : Nat) :
    evaluate (fuel + 3) n ctx m = match m.store.nearest? name ctx.scope with
      | some owner => .ok (.undefined n.span)
        ⟨m.store.define owner name value, (n.adopt m.label).2, m.trace⟩
      | none => .error (.unbound name target.span) { m with label := (n.adopt m.label).2 } := by
  let form := (n.adopt m.label).1
  let adopted : Machine := { m with label := (n.adopt m.label).2 }
  have hform : form.IsAssignment target value := h.adopt htarget hvalue m.label
  have hnext := next_assignment hform htarget (runStep_selfEvaluating hvalue ctx fuel)
  rw [Node.span_adopt] at hnext
  have hassign := Action.assign_eq_nearest ctx.scope name value target.span adopted
  show Action.bind ((Step.eval form ctx).next _) (runStep (fuel + 2)) adopted = _
  rw [hnext]
  show Action.bind (Action.bind (Action.assign ctx.scope name value target.span) _) _ adopted = _
  unfold Action.bind
  rw [hassign]
  cases m.store.nearest? name ctx.scope <;> rfl

end

/-! ### Looking a name up -/

section

variable {name : String} {span : Span} {ctx : Context} {value : Node} {m m' : Machine}

/-- What a name means in the scope itself is found first. -/
theorem lookup_of_get? (h : m.store.get? name ctx.scope = some value) :
    lookup name span ctx m = .ok value m := by
  rw [lookup, h]

theorem lookup_of_dynamic {active : ScopeId} (hnone : m.store.get? name ctx.scope = none)
    (hactive : ctx.dynamic = some active) (hne : active ≠ ctx.scope)
    (h : m.store.get? name active = some value) : lookup name span ctx m = .ok value m := by
  rw [lookup, hnone, hactive]
  dsimp only
  rw [if_neg hne, h]

/-- What is found is bound on the chain of the scope, or it is found in another scope, which is the
dynamic one. -/
theorem get?_of_lookup (h : lookup name span ctx m = .ok value m') :
    m' = m ∧ (m.store.get? name ctx.scope = some value ∨
      m.store.get? name ctx.scope = none ∧ ∃ active, ctx.dynamic = some active ∧
        active ≠ ctx.scope ∧ m.store.get? name active = some value) := by
  unfold lookup at h
  split at h
  · next found hfound =>
    cases h
    exact ⟨rfl, .inl hfound⟩
  · next hnone =>
    split at h
    · cases h
    · next active hactive =>
      split at h
      · cases h
      · next hne =>
        split at h
        · next found hfound =>
          cases h
          exact ⟨rfl, .inr ⟨hnone, active, hactive, hne, hfound⟩⟩
        · cases h

end

/-! ### Agreement -/

/-- **Reading a name and assigning it go to the same binding.** Suppose that a name can be read in a
place. If a scope on the chain of that place binds it, then the value was read from the nearest such
scope, an assignment changes it there and nothing else, and the new value is read afterwards. If not,
the value was read from a dynamic scope other than that of the place, and an assignment fails and
changes nothing. -/
theorem assign_reaches_read {symbol form target value found : Node} {name : String}
    {ctx : Context} {m m₁ : Machine} {fuel : Nat} (hsymbol : symbol.symbol? = some name)
    (hread : evaluate fuel symbol ctx m = .ok found m₁) (hform : form.IsAssignment target value)
    (htarget : target.symbol? = some name) (hvalue : value.SelfEvaluating) :
    (∀ owner, m₁.store.nearest? name ctx.scope = some owner →
      Bindings.find? name (m₁.store.bindings owner) = some found ∧
      ∃ m₂, m₂.store = m₁.store.define owner name value ∧
        (∀ fuel, evaluate (fuel + 3) form ctx m₁ = .ok (.undefined form.span) m₂) ∧
        ∀ again : Node, again.symbol? = some name →
          ∀ fuel, evaluate (fuel + 2) again ctx m₂ = .ok value m₂) ∧
    (m₁.store.nearest? name ctx.scope = none →
      (∃ active, ctx.dynamic = some active ∧ active ≠ ctx.scope ∧
        m₁.store.get? name active = some found) ∧
      ∃ m₂, m₂.store = m₁.store ∧
        ∀ fuel, evaluate (fuel + 3) form ctx m₁ = .error (.unbound name target.span) m₂) := by
  have hlookup : lookup name symbol.span ctx m = .ok found m₁ :=
    (evaluate_symbol hsymbol ctx fuel).symm.trans (evaluate_of_le (Nat.le_add_right fuel 2) hread)
  obtain ⟨rfl, hfound⟩ := get?_of_lookup hlookup
  rw [Store.get?_eq] at hfound
  constructor
  · intro owner howner
    rw [howner, Option.bind_some] at hfound
    have hbinds : m₁.store.Binds name owner := Store.binds_of_nearest? howner
    have hvisible : Bindings.find? name (m₁.store.bindings owner) = some found := by
      obtain hfound | ⟨hnone, -⟩ := hfound
      · exact hfound
      · exact absurd hbinds (Store.not_binds_iff.mpr hnone)
    refine ⟨hvisible, ⟨m₁.store.define owner name value, (form.adopt m₁.label).2, m₁.trace⟩, rfl,
      fun fuel ↦ ?_, fun again hagain fuel ↦ ?_⟩
    · rw [evaluate_assignment hform htarget hvalue, howner]
    · rw [evaluate_symbol hagain]
      refine lookup_of_get? ?_
      -- The scope bound the name before, so the assignment leaves it the nearest one.
      show (m₁.store.define owner name value).get? name ctx.scope = some value
      rw [Store.get?_define hbinds.lt_next, Store.nearest?_define_of_binds hbinds,
        if_pos ⟨rfl, howner⟩]
  · intro hnone
    refine ⟨?_, { m₁ with label := (form.adopt m₁.label).2 }, rfl, fun fuel ↦ ?_⟩
    · obtain hfound | ⟨-, hactive⟩ := hfound
      · rw [hnone] at hfound
        cases hfound
      · exact hactive
    · rw [evaluate_assignment hform htarget hvalue, hnone]

/-- The name is read from the outer scope and is assigned there. -/
theorem assign_reaches_read_nested :
    let x : Node := .symbol "x" .nowhere
    let value : Node := .boolean true .nowhere
    let form : Node := .ofList [.symbol "set!" .nowhere, x, value] .nowhere
    let ctx : Context := ⟨1, none⟩
    x.symbol? = some "x" ∧ form.IsAssignment x value ∧ value.SelfEvaluating ∧
      evaluate 2 x ctx Machine.nested = .ok (.boolean false .nowhere) Machine.nested ∧
      ∃ m', m'.store = Machine.nested.store.define 0 "x" value ∧
        evaluate 3 form ctx Machine.nested = .ok (.undefined .nowhere) m' ∧
        evaluate 2 x ctx m' = .ok value m' := by
  intro x value form ctx
  have hform : form.IsAssignment x value := ⟨_, rfl, by decide⟩
  have hvalue : value.SelfEvaluating := ⟨rfl, rfl⟩
  have hnearest : Machine.nested.store.nearest? "x" 1 = some 0 := by
    have hchain : Machine.nested.store.chain 1 = [1, 0] := by
      simp [Store.chain, Store.outer?, Store.scope?, Machine.nested]
    rw [Store.nearest?, hchain]
    decide
  have hread : evaluate 2 x ctx Machine.nested = .ok (.boolean false .nowhere) Machine.nested := by
    rw [evaluate_symbol rfl]
    refine lookup_of_get? ?_
    rw [Store.get?_eq, hnearest]
    rfl
  obtain ⟨-, m', hstore, hassign, hagain⟩ :=
    (assign_reaches_read rfl hread hform rfl hvalue).1 0 hnearest
  exact ⟨rfl, hform, hvalue, hread, m', hstore, hassign 0, hagain x rfl 0⟩

/-- A machine with two scopes, neither of which stands in the other, and the second of which binds a
name. -/
def Machine.apart : Machine :=
  ⟨⟨#[⟨none, none, []⟩, ⟨none, none, [("x", .boolean false .nowhere)]⟩]⟩, 0, none⟩

/-- A name that is bound in the dynamic scope alone can be read, and cannot be assigned. -/
theorem assign_misses_dynamic :
    let x : Node := .symbol "x" .nowhere
    let value : Node := .boolean true .nowhere
    let form : Node := .ofList [.symbol "set!" .nowhere, x, value] .nowhere
    let ctx : Context := ⟨0, some 1⟩
    x.symbol? = some "x" ∧ form.IsAssignment x value ∧ value.SelfEvaluating ∧
      evaluate 2 x ctx Machine.apart = .ok (.boolean false .nowhere) Machine.apart ∧
      ¬ ∃ fuel result m', evaluate fuel form ctx Machine.apart = .ok result m' := by
  intro x value form ctx
  have hform : form.IsAssignment x value := ⟨_, rfl, by decide⟩
  have hvalue : value.SelfEvaluating := ⟨rfl, rfl⟩
  have hnearest : Machine.apart.store.nearest? "x" 0 = none := by
    rw [Store.nearest?, Store.chain_zero]
    decide
  have hactive : Machine.apart.store.nearest? "x" 1 = some 1 := by
    have hchain : Machine.apart.store.chain 1 = [1] := by
      simp [Store.chain, Store.outer?, Store.scope?, Machine.apart]
    rw [Store.nearest?, hchain]
    decide
  refine ⟨rfl, hform, hvalue, ?_, ?_⟩
  · rw [evaluate_symbol rfl]
    refine lookup_of_dynamic ?_ rfl (by decide) ?_
    · rw [Store.get?_eq, hnearest]
      rfl
    · rw [Store.get?_eq, hactive]
      rfl
  · rintro ⟨fuel, result, m', hends⟩
    have hmore := evaluate_of_le (Nat.le_add_right fuel 3) hends
    rw [evaluate_assignment hform rfl hvalue, hnearest] at hmore
    cases hmore

end MiniLisp
