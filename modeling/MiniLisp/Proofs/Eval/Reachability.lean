import MiniLisp.Proofs.Eval.Invariant
import MiniLisp.Proofs.Eval.Lockstep
import MiniLisp.Proofs.Scope.Chain

/-!
# What an evaluation can reach

An evaluation begins in a scope, and with a form. From there it can get at the scopes that these
stand in, at those that procedures and macros in the form were made in, and at those of procedures
and macros that are bound where it can get at (`Store.Reaches`). All other scopes might as well not
be there: they are left as they are, and what they hold, or whether they exist, does not matter
(`evaluate_reaches`).

For the second half two machines are compared that agree on what can be reached and differ in any
way elsewhere. What is kept on both sides corresponds to itself. New scopes may have other numbers,
since the machines need not have the same number of scopes, but the first new one corresponds to the
first new one, and so on (`Correspondence.keeping`). The first half is the case where a machine is
compared with itself: a scope that corresponds to none is not touched.
-/

namespace MiniLisp

/-! ### Reachable scopes -/

/-- The scopes that an evaluation can get at, beginning with a form in a place. -/
inductive Store.Reaches (st : Store) (form : Node) (ctx : Context) : ScopeId → Prop
  | scope : Reaches st form ctx ctx.scope
  | dynamic {s : ScopeId} (h : ctx.dynamic = some s) : Reaches st form ctx s
  /-- The scope that a reachable one stands in. -/
  | outer {s outer : ScopeId} (hs : Reaches st form ctx s) (h : st.StandsIn s outer) :
      Reaches st form ctx outer
  /-- The scope that a procedure or a macro in the form was made in. -/
  | form {part : Node} {s : ScopeId} (hpart : part ∈ form.parts) (h : part.home? = some s) :
      Reaches st form ctx s
  /-- The scope that a procedure or a macro in what a reachable scope binds was made in. -/
  | bound {s home : ScopeId} {p : String × Node} {part : Node} (hs : Reaches st form ctx s)
      (hp : p ∈ st.bindings s) (hpart : part ∈ p.2.parts) (h : part.home? = some home) :
      Reaches st form ctx home

/-- A node that was there before a label is given has an older one, and no host operation. -/
structure Node.Older (label : Label) (n : Node) : Prop where
  label : ∀ l, n.label? = some l → l < label
  native : ∀ p, n.native? = some p → p.IsBuiltin

/-- A node without a label was always there. -/
theorem Node.Older.of_none {n : Node} (hlabel : n.label? = none) (hnative : n.native? = none)
    (label : Label) : n.Older label where
  label l hl := (Option.some_ne_none l (hl.symm.trans hlabel)).elim
  native p hp := (Option.some_ne_none p (hp.symm.trans hnative)).elim

/-- The scopes that can be reached exist, and what is in the form and in these scopes was there
before: its labels were given already. Natives do built-in operations. -/
structure Machine.Ready (m : Machine) (form : Node) (ctx : Context) : Prop where
  scope_lt : ∀ s, m.store.Reaches form ctx s → s < m.store.next
  form_older : ∀ part ∈ form.parts, part.Older m.label
  bound_older : ∀ s, m.store.Reaches form ctx s → ∀ p ∈ m.store.bindings s, ∀ part ∈ p.2.parts,
    part.Older m.label

/-- The second machine holds the same in all scopes that can be reached in the first one. -/
def Machine.Agrees (m m' : Machine) (form : Node) (ctx : Context) : Prop :=
  ∀ s, m.store.Reaches form ctx s → m'.store.scope? s = m.store.scope? s

theorem Machine.Agrees.refl (m : Machine) (form : Node) (ctx : Context) : m.Agrees m form ctx :=
  fun _ _ ↦ rfl

/-- The same scopes can be reached in a machine that agrees on them. -/
theorem Store.Reaches.of_agrees {m m' : Machine} {form : Node} {ctx : Context} {s : ScopeId}
    (h : m.Agrees m' form ctx) (hs : m.store.Reaches form ctx s) :
    m'.store.Reaches form ctx s := by
  induction hs with
  | scope => exact .scope
  | dynamic hdynamic => exact .dynamic hdynamic
  | outer hs hstands ih =>
    obtain ⟨scope, hscope, hlink⟩ := hstands
    exact .outer ih ⟨scope, (h _ hs).trans hscope, hlink⟩
  | form hpart hhome => exact .form hpart hhome
  | @bound s home p part hs hp hpart hhome ih =>
    have hsame : m'.store.bindings s = m.store.bindings s := by
      unfold Store.bindings
      rw [h _ hs]
    exact .bound ih (hsame ▸ hp) hpart hhome

/-! ### What is kept, and what is new -/

/-- A number that is kept and stands for itself, or one that is as far behind `n` as its counterpart
is behind `n'`. -/
def KeptOrNew (kept : Nat → Prop) (n n' a a' : Nat) : Prop :=
  (kept a ∧ a < n ∧ a < n' ∧ a = a') ∨ ∃ k, a = n + k ∧ a' = n' + k

namespace KeptOrNew

variable {kept : Nat → Prop} {n n' a a' b b' : Nat}

theorem lt_iff (ha : KeptOrNew kept n n' a a') (hb : KeptOrNew kept n n' b b') :
    a < b ↔ a' < b' := by
  rcases ha with ⟨-, ha⟩ | ⟨k, hk⟩
  · rcases hb with ⟨-, hb⟩ | ⟨j, hj⟩ <;> omega
  · rcases hb with ⟨-, hb⟩ | ⟨j, hj⟩ <;> omega

theorem eq_iff (ha : KeptOrNew kept n n' a a') (hb : KeptOrNew kept n n' b b') :
    a = b ↔ a' = b' := by
  rcases ha with ⟨-, ha⟩ | ⟨k, hk⟩
  · rcases hb with ⟨-, hb⟩ | ⟨j, hj⟩ <;> omega
  · rcases hb with ⟨-, hb⟩ | ⟨j, hj⟩ <;> omega

end KeptOrNew

/-- Scopes that are kept correspond to themselves, and new ones in the order in which they are made;
and so it is with all labels. Spans count. -/
def Correspondence.keeping (kept : ScopeId → Prop) (m m' : Machine) : Correspondence where
  scope := KeptOrNew kept m.store.next m'.store.next
  label := KeptOrNew (fun _ ↦ True) m.label m'.label
  sameSpans := True
  others := m.store.scope?
  scope_lt_iff := KeptOrNew.lt_iff
  label_eq_iff := KeptOrNew.eq_iff

namespace Correspondence

variable {m m' : Machine} {form : Node} {ctx : Context}

/-- The correspondence of two machines in which the same scopes can be reached. -/
def reaching (m m' : Machine) (form : Node) (ctx : Context) : Correspondence :=
  keeping (m.store.Reaches form ctx) m m'

section

variable (hm : m.Ready form ctx) (hm' : m'.Ready form ctx) (h : m.Agrees m' form ctx)

include hm hm' h

theorem scope_of_reaches {s : ScopeId} (hs : m.store.Reaches form ctx s) :
    (reaching m m' form ctx).scope s s :=
  .inl ⟨hs, hm.scope_lt s hs, hm'.scope_lt s (hs.of_agrees h), rfl⟩

theorem keeps_of_older {part : Node} (ho : part.Older m.label) (ho' : part.Older m'.label)
    (hhome : ∀ s, part.home? = some s → m.store.Reaches form ctx s) :
    (reaching m m' form ctx).Keeps part where
  label l hl := .inl ⟨trivial, ho.label l hl, ho'.label l hl, rfl⟩
  home s hs := scope_of_reaches hm hm' h (hhome s hs)
  native p hp := ho.native p hp

/-- The form corresponds to itself. -/
theorem nodes_form : (reaching m m' form ctx).Nodes form form :=
  .self fun part hpart ↦ keeps_of_older hm hm' h (hm.form_older part hpart)
    (hm'.form_older part hpart) fun _ hhome ↦ .form hpart hhome

theorem places_reaching : (reaching m m' form ctx).Places ctx ctx := by
  refine ⟨scope_of_reaches hm hm' h .scope, ?_⟩
  cases e : ctx.dynamic with
  | none => exact .none
  | some s => exact .some (scope_of_reaches hm hm' h (.dynamic e))

theorem scopes_reaching {s : ScopeId} (hs : m.store.Reaches form ctx s) {scope : Scope}
    (hscope : m.store.scope? s = some scope) : (reaching m m' form ctx).Scopes scope scope where
  name := rfl
  outer := by
    cases e : scope.outer with
    | none => exact .none
    | some outer => exact .some (scope_of_reaches hm hm' h (.outer hs ⟨scope, hscope, e⟩))
  bindings := by
    have hbindings : m.store.bindings s = scope.bindings := by rw [Store.bindings, hscope]
    have hbindings' : m'.store.bindings s = scope.bindings := by
      rw [Store.bindings, h s hs, hscope]
    refine List.forall₂_same.mpr fun p hp ↦ ⟨rfl, .self fun part hpart ↦ ?_⟩
    rw [← hbindings] at hp
    have ho' := hm'.bound_older s (hs.of_agrees h) p (hbindings' ▸ hbindings ▸ hp) part hpart
    exact keeps_of_older hm hm' h (hm.bound_older s hs p hp part hpart) ho' fun home hhome ↦
      .bound hs hp hpart hhome

/-- Machines that agree on what can be reached correspond. -/
theorem machines_reaching : (reaching m m' form ctx).Machines m m' where
  store := by
    refine ⟨?_, fun k ↦ .inr ⟨k, rfl, rfl⟩, fun _ _ ↦ rfl⟩
    rintro s s' (⟨hs, hlt, -, rfl⟩ | ⟨k, rfl, rfl⟩)
    · obtain ⟨scope, hscope⟩ := Store.exists_scope?_of_lt hlt
      rw [h s hs, hscope]
      exact .some (scopes_reaching hm hm' h hs hscope)
    · have hnone (st : Store) : st.scope? (st.next + k) = none :=
        Array.getElem?_eq_none (Nat.le_add_right _ _)
      rw [hnone, hnone]
      exact .none
  labels k := .inr ⟨k, rfl, rfl⟩

/-- Evaluation comes to the same end in machines that agree on what it can reach. -/
theorem evaluate_reaching (fuel : Nat) :
    (reaching m m' form ctx).Ends (reaching m m' form ctx).Nodes (evaluate fuel form ctx m)
      (evaluate fuel form ctx m') :=
  evaluate_alike fuel (nodes_form hm hm' h) (places_reaching hm hm' h) m m'
    (machines_reaching hm hm' h)

end

/-- What is left behind holds what it held, where a scope corresponds to none. -/
theorem Ends.others {C : Correspondence} {x y : Outcome EvalError Node} (h : C.Ends C.Nodes x y)
    {after : Machine} (hafter : x.machine? = some after) {s : ScopeId}
    (hs : ∀ s', ¬ C.scope s s') : after.store.scope? s = C.others s := by
  cases h with
  | ok _ hm =>
    cases hafter
    exact hm.store.others s hs
  | error _ hm =>
    cases hafter
    exact hm.store.others s hs
  | outOfFuel => cases hafter

end Correspondence

/-- **Evaluation touches only what it can reach.** A scope that was there before and cannot be
reached is left as it is. In any other machine that agrees on what can be reached, whatever its
other scopes hold, the evaluation comes to the same end: the same value or the same error, up to the
numbers of the scopes and labels that are new. What can be reached, and every new scope, holds the
same in the end. -/
theorem evaluate_reaches (fuel : Nat) {form : Node} {ctx : Context} {m : Machine}
    (hm : m.Ready form ctx) :
    (∀ s, s < m.store.next → ¬ m.store.Reaches form ctx s → ∀ after,
      (evaluate fuel form ctx m).machine? = some after →
        after.store.scope? s = m.store.scope? s) ∧
    ∀ m', m'.Ready form ctx → m.Agrees m' form ctx →
      (Correspondence.reaching m m' form ctx).Ends (Correspondence.reaching m m' form ctx).Nodes
        (evaluate fuel form ctx m) (evaluate fuel form ctx m') := by
  refine ⟨fun s hlt hs after hafter ↦ ?_, fun m' hm' h ↦ ?_⟩
  · have hends := Correspondence.evaluate_reaching hm hm (.refl m form ctx) fuel
    refine hends.others hafter fun s' ↦ ?_
    rintro (⟨hreaches, -⟩ | ⟨k, rfl, -⟩)
    · exact hs hreaches
    · exact absurd hlt (Nat.not_lt.mpr (Nat.le_add_right _ _))
  · exact Correspondence.evaluate_reaching hm hm' h fuel

/-- The call `(f)`. -/
def Node.callOfF : Node := .pair none (.symbol "f" .nowhere) (.nil .nowhere) .nowhere

/-- A procedure made in the scope with the number one, which looks up a name there. -/
def Node.madeInOne : Node := .closure 0 none ⟨[], none⟩ [.symbol "x" .nowhere] 1 .nowhere

/-- A machine with a scope for calls, one that the procedure `f` was made in, and one beside them
that only the host knows of. -/
def Machine.beside (bindings : Bindings) : Machine :=
  ⟨⟨#[⟨none, none, [("f", .madeInOne)]⟩, ⟨none, none, [("x", .boolean true .nowhere)]⟩,
    ⟨none, none, bindings⟩]⟩, 1, none⟩

theorem Machine.reaches_beside {bindings : Bindings} {s : ScopeId}
    (h : (Machine.beside bindings).store.Reaches .callOfF ⟨0, none⟩ s) : s = 0 ∨ s = 1 := by
  induction h with
  | scope => exact .inl rfl
  | dynamic h => cases h
  | outer _ hstands ih =>
    obtain ⟨scope, hscope, hlink⟩ := hstands
    rcases ih with rfl | rfl
    · cases hscope
      cases hlink
    · cases hscope
      cases hlink
  | form hpart hhome =>
    simp [Node.callOfF, Node.parts, Node.symbol, Node.nil] at hpart
    rcases hpart with rfl | rfl | rfl <;> cases hhome
  | bound _ hp hpart hhome ih =>
    rcases ih with rfl | rfl
    · obtain rfl := List.mem_singleton.mp hp
      simp [Node.madeInOne, Node.parts, Node.partsOf, Node.symbol] at hpart
      rcases hpart with rfl | rfl
      · exact .inr (Option.some.inj hhome).symm
      · cases hhome
    · obtain rfl := List.mem_singleton.mp hp
      obtain rfl := List.mem_singleton.mp hpart
      cases hhome

theorem Machine.beside_ready (bindings : Bindings) :
    (Machine.beside bindings).Ready .callOfF ⟨0, none⟩ where
  scope_lt s hs := by
    show s < 3
    rcases reaches_beside hs with rfl | rfl <;> decide
  form_older part hpart := by
    simp [Node.callOfF, Node.parts, Node.symbol, Node.nil] at hpart
    rcases hpart with rfl | rfl | rfl <;> exact .of_none rfl rfl _
  bound_older s hs p hp part hpart := by
    rcases reaches_beside hs with rfl | rfl
    · obtain rfl := List.mem_singleton.mp hp
      simp [Node.madeInOne, Node.parts, Node.partsOf, Node.symbol] at hpart
      rcases hpart with rfl | rfl
      · refine ⟨fun l hl ↦ ?_, fun p hp ↦ (Option.some_ne_none p hp.symm).elim⟩
        obtain rfl := Option.some.inj hl
        exact Nat.one_pos
      · exact .of_none rfl rfl _
    · obtain rfl := List.mem_singleton.mp hp
      obtain rfl := List.mem_singleton.mp hpart
      exact .of_none rfl rfl _

/-- The scopes that the call can reach are kept, also beside one that holds something else. -/
def Correspondence.besides (bindings : Bindings) : Correspondence :=
  reaching (.beside []) (.beside bindings) .callOfF ⟨0, none⟩

/-- The call looks into the scope of its procedure, and the one beside it does not matter. -/
theorem evaluate_reaches_beside :
    (∀ after, (evaluate 9 .callOfF ⟨0, none⟩ (.beside [])).machine? = some after →
      after.store.scope? 2 = some ⟨none, none, []⟩) ∧
    (Correspondence.besides [("y", .boolean false .nowhere)]).Ends
      (Correspondence.besides [("y", .boolean false .nowhere)]).Nodes
      (evaluate 9 .callOfF ⟨0, none⟩ (.beside []))
      (evaluate 9 .callOfF ⟨0, none⟩ (.beside [("y", .boolean false .nowhere)])) := by
  obtain ⟨hunreached, hother⟩ := evaluate_reaches 9 (Machine.beside_ready [])
  refine ⟨fun after hafter ↦ ?_, hother _ (Machine.beside_ready _) fun s hs ↦ ?_⟩
  · refine hunreached 2 (by decide) (fun hs ↦ ?_) after hafter
    rcases Machine.reaches_beside hs with heq | heq <;> cases heq
  · rcases Machine.reaches_beside hs with rfl | rfl <;> rfl

end MiniLisp
