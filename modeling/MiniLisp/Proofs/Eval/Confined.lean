import MiniLisp.Proofs.Eval.Invariant
import MiniLisp.Proofs.Scope.Confined

/-!
# Definitions stay where evaluation starts

Evaluation binds names in the scope that it is started in and in scopes that it enters itself. All
other scopes keep the names that they bind, however deep the calls and expansions go and whichever
scopes the procedures and macros in them were made in (`evaluate_confined`).

The own scopes are therefore the one at the start and those that are not in the store yet. A store
only grows, so a scope that is entered later is one of them.
-/

namespace MiniLisp

theorem Store.next_assign {st st' : Store} {id : ScopeId} {name : String} {value : Node}
    (h : st.assign? id name value = some st') : st'.next = st.next := by
  obtain ⟨found, -, rfl⟩ := Option.map_eq_some_iff.mp h
  exact next_rebind _ _ _

/-- The invariant that an evaluation started in the scope `home` of a store keeps. -/
def confinement (st : Store) (home : ScopeId) : Invariant where
  machine m := st.Confined (fun id ↦ id = home ∨ st.next ≤ id) m.store ∧ st.next ≤ m.store.next
  own id := id = home ∨ st.next ≤ id
  relabel _ _ hm := hm
  retrace _ _ hm := hm
  add m scope hm := ⟨hm.1.trans (.add _ _), by rw [Store.next_add]; exact Nat.le_succ_of_le hm.2⟩
  own_next _ hm := .inr hm.2
  define m _ _ _ hid hm :=
    ⟨hm.1.trans (.define (.inl hid) _), by rw [Store.define, Store.next_rebind]; exact hm.2⟩
  assign _ _ _ _ _ hs hm :=
    ⟨hm.1.trans (.assign hs), by rw [Store.next_assign hs]; exact hm.2⟩

/-- **Evaluation never leaks definitions.** When it ends, in a value or in an error, every scope
that was there before has its name, its place and all names that it bound, and it binds no others
unless it is the scope that the form was evaluated in. -/
theorem evaluate_confined {fuel : Nat} {form : Node} {ctx : Context} {m m' : Machine}
    (h : (evaluate fuel form ctx m).machine? = some m') :
    m.store.Confined (fun id ↦ id = ctx.scope) m'.store := by
  let inv := confinement m.store ctx.scope
  have hkeeps : inv.Keeps (fun _ ↦ True) (evaluate fuel form ctx) :=
    Invariant.evaluate_keeps fuel form (.inl rfl)
  have hm : inv.machine m := ⟨.refl _, Nat.le_refl _⟩
  obtain ⟨hconfined, -⟩ := hkeeps.machine hm h
  -- A scope of the store at the start is an own one only if it is the scope of the form.
  exact hconfined.mono fun id hlt hown ↦ hown.resolve_right (Nat.not_le.mpr hlt)

/-- In a scope inside another one, `(begin (define x ()) ((lambda () (define y ()))))` defines `x`
there and `y` in a scope of its own. -/
theorem evaluate_confined_child :
    let symbol (name : String) : Node := .symbol name .nowhere
    let list (items : List Node) : Node := .ofList items .nowhere
    let form := list [symbol "begin", list [symbol "define", symbol "x", list []],
      list [list [symbol "lambda", list [], list [symbol "define", symbol "y", list []]]]]
    let st : Store := ⟨#[⟨some "global", none, []⟩, ⟨none, some 0, []⟩]⟩
    ∃ m', (evaluate 9 form ⟨1, none⟩ ⟨st, 0, none⟩).machine? = some m' ∧
      m'.store.scopes.toList.map (fun scope ↦ Bindings.names scope.bindings) = [[], ["x"], ["y"]] ∧
      st.Confined (fun id ↦ id = 1) m'.store := by
  intro symbol list form st
  have h : (evaluate 9 form ⟨1, none⟩ ⟨st, 0, none⟩).machine? = some _ := rfl
  refine ⟨_, h, ?_, evaluate_confined h⟩
  decide

end MiniLisp
