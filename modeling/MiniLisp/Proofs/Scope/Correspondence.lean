import MiniLisp.Proofs.Data.Correspondence

/-!
# Corresponding stores

Two stores correspond if scopes that correspond hold corresponding data and stand in corresponding
scopes (`Correspondence.Stores`). The scopes that do not exist yet correspond one by one, in the
order in which they will be added, so the relation is never changed: a new scope in either store
already corresponds to that in the other.

Walks outwards take the same turns in both stores, so a name is found in both or in neither, in
corresponding scopes (`Stores.resolve?`). Corresponding scopes are the only ones that change, and
those that correspond to none keep what they hold.
-/

namespace MiniLisp

namespace Correspondence

variable (C : Correspondence)

/-- The same name is bound to corresponding data. -/
def Bound (p p' : String × Node) : Prop := p.1 = p'.1 ∧ C.Nodes p.2 p'.2

/-- The same names are bound to corresponding data, in the same order. -/
def Binds (b b' : Bindings) : Prop := List.Forall₂ C.Bound b b'

/-- The scopes have the same name, stand in corresponding scopes, and bind corresponding data. -/
structure Scopes (scope scope' : Scope) : Prop where
  name : scope.name = scope'.name
  outer : Option.Rel C.scope scope.outer scope'.outer
  bindings : C.Binds scope.bindings scope'.bindings

/-- Scopes that correspond hold corresponding data, and so will those that are added. What the
scopes of the first store hold that correspond to none is given. -/
structure Stores (st st' : Store) : Prop where
  scopes : ∀ {s s'}, C.scope s s' → Option.Rel C.Scopes (st.scope? s) (st'.scope? s')
  next : ∀ k, C.scope (st.next + k) (st'.next + k)
  others : ∀ s, (∀ s', ¬ C.scope s s') → st.scope? s = C.others s

variable {C}

/-! ### Bindings -/

namespace Binds

variable {b b' : Bindings}

theorem find? (h : C.Binds b b') (name : String) :
    Option.Rel C.Nodes (Bindings.find? name b) (Bindings.find? name b') := by
  induction h with
  | nil => exact .none
  | @cons p p' rest rest' hp _ ih =>
    obtain ⟨n, value⟩ := p
    obtain ⟨n', value'⟩ := p'
    obtain ⟨rfl, hvalue⟩ := hp
    rw [Bindings.find?, Bindings.find?]
    split
    · exact .some hvalue
    · exact ih

theorem bind (h : C.Binds b b') (name : String) {value value' : Node}
    (hvalue : C.Nodes value value') :
    C.Binds (Bindings.bind name value b) (Bindings.bind name value' b') := by
  induction h with
  | nil => exact .cons ⟨rfl, hvalue⟩ .nil
  | @cons p p' rest rest' hp hrest ih =>
    obtain ⟨n, old⟩ := p
    obtain ⟨n', old'⟩ := p'
    obtain ⟨rfl, hold⟩ := hp
    rw [Bindings.bind, Bindings.bind]
    split
    · exact .cons ⟨rfl, hvalue⟩ hrest
    · exact .cons ⟨rfl, hold⟩ ih

theorem ofList {pairs pairs' : List (String × Node)} (h : List.Forall₂ C.Bound pairs pairs') :
    C.Binds (Bindings.ofList pairs) (Bindings.ofList pairs') := by
  -- The bindings made so far are the accumulator of the fold.
  suffices hfold : ∀ b b' : Bindings, C.Binds b b' →
      C.Binds (pairs.foldl (fun b p ↦ Bindings.bind p.1 p.2 b) b)
        (pairs'.foldl (fun b p ↦ Bindings.bind p.1 p.2 b) b') from hfold [] [] .nil
  induction h with
  | nil => exact fun b b' hb ↦ hb
  | @cons p p' rest rest' hp _ ih =>
    obtain ⟨n, value⟩ := p
    obtain ⟨n', value'⟩ := p'
    obtain ⟨rfl, hvalue⟩ := hp
    exact fun b b' hb ↦ ih _ _ (hb.bind n hvalue)

end Binds

namespace Stores

variable {st st' : Store} (h : C.Stores st st') {s s' : ScopeId}

include h

/-! ### Lookups -/

theorem bindings (hs : C.scope s s') : C.Binds (st.bindings s) (st'.bindings s') := by
  have hscope := h.scopes hs
  unfold Store.bindings
  generalize st.scope? s = x at hscope ⊢
  generalize st'.scope? s' = x' at hscope ⊢
  cases hscope with
  | none => exact .nil
  | some hscope => exact hscope.bindings

/-- The link outwards is followed in both stores or in neither. -/
theorem outer? (hs : C.scope s s') :
    Option.Rel (fun outer outer' ↦ C.scope outer.1 outer'.1) (st.outer? s) (st'.outer? s') := by
  have hscope := h.scopes hs
  unfold Store.outer?
  generalize st.scope? s = x at hscope ⊢
  generalize st'.scope? s' = x' at hscope ⊢
  cases hscope with
  | none => exact .none
  | @some scope scope' hscope =>
    have houter := hscope.outer
    dsimp only [Option.bind_some]
    generalize scope.outer = o at houter ⊢
    generalize scope'.outer = o' at houter ⊢
    cases houter with
    | none => exact .none
    | @some outer outer' houter =>
      have hlt := C.scope_lt_iff houter hs
      dsimp only
      by_cases hle : outer < s
      · rw [dif_pos hle, dif_pos (hlt.mp hle)]
        exact .some houter
      · rw [dif_neg hle, dif_neg (mt hlt.mpr hle)]
        exact .none

/-- A name is found in corresponding scopes, bound to corresponding data, or in neither store. -/
theorem resolve? (hs : C.scope s s') (name : String) :
    Option.Rel (fun found found' ↦ C.scope found.1 found'.1 ∧ C.Nodes found.2 found'.2)
      (st.resolve? name s) (st'.resolve? name s') := by
  induction s using Store.chain.induct generalizing s' with
  | case1 s ih =>
    have hfind := (h.bindings hs).find? name
    have houter := h.outer? hs
    rw [Store.resolve?, Store.resolve?]
    generalize Bindings.find? name (st.bindings s) = x at hfind ⊢
    generalize Bindings.find? name (st'.bindings s') = x' at hfind ⊢
    cases hfind with
    | some hvalue => exact .some ⟨hs, hvalue⟩
    | none =>
      generalize st.outer? s = o at houter ⊢
      generalize st'.outer? s' = o' at houter ⊢
      cases houter with
      | none => exact .none
      | @some outer outer' houter => exact ih outer.1 outer.2 houter

theorem get? (hs : C.scope s s') (name : String) :
    Option.Rel C.Nodes (st.get? name s) (st'.get? name s') :=
  rel_map (h.resolve? hs name) fun _ _ hfound ↦ hfound.2

/-! ### Changes -/

/-- Scopes that are added to both stores at once correspond. -/
theorem add {scope scope' : Scope} (hscope : C.Scopes scope scope') :
    C.Stores (st.add scope) (st'.add scope') where
  scopes hs := by
    have hnew := scope_eq_iff hs (h.next 0)
    rw [Nat.add_zero, Nat.add_zero] at hnew
    rw [Store.scope?_add, Store.scope?_add]
    split
    · next heq =>
      rw [if_pos (hnew.mp heq)]
      exact .some hscope
    · next hne =>
      rw [if_neg (mt hnew.mpr hne)]
      exact h.scopes hs
  next k := by
    have hk := h.next (k + 1)
    rw [Store.next_add, Store.next_add]
    rwa [Nat.add_comm k 1, ← Nat.add_assoc, ← Nat.add_assoc] at hk
  others s hs := by
    have hne : s ≠ st.next := by
      rintro rfl
      exact hs _ (h.next 0)
    rw [Store.scope?_add, if_neg hne]
    exact h.others s hs

/-- A name may be bound to corresponding data in corresponding scopes. -/
theorem define (hs : C.scope s s') (name : String) {value value' : Node}
    (hvalue : C.Nodes value value') :
    C.Stores (st.define s name value) (st'.define s' name value') where
  scopes {t t'} ht := by
    have hold := h.scopes ht
    have hsame := scope_eq_iff hs ht
    rw [Store.define, Store.define, Store.scope?_rebind, Store.scope?_rebind]
    split
    · next heq =>
      rw [if_pos (hsame.mp heq)]
      exact rel_map hold fun _ _ hscope ↦
        ⟨hscope.name, hscope.outer, hscope.bindings.bind name hvalue⟩
    · next hne =>
      rw [if_neg (mt hsame.mpr hne)]
      exact hold
  next k := by
    rw [Store.define, Store.define, Store.next_rebind, Store.next_rebind]
    exact h.next k
  others t ht := by
    have hne : s ≠ t := by
      rintro rfl
      exact ht s' hs
    rw [Store.define, Store.scope?_rebind, if_neg hne]
    exact h.others t ht

end Stores

end Correspondence

end MiniLisp
