import MiniLisp.Eval.Machine

/-!
# Chains of scopes

What a name means in a scope is decided on the chain of that scope: the scope itself, the one it
stands in, and so on outwards. The innermost scope there that binds the name (`Store.nearest?`) is
the one that counts, so a scope that is shared by many others is seen by those for which nothing
further in stands in the way.

A change to the binding of one name in one scope therefore changes what that name means in exactly
those scopes for which the changed one is nearest, and nothing else (`Store.get?_define`). An
assignment changes the nearest scope of a name that is bound, so it moves no scope from one nearest
to another; a definition may bind a name for the first time, and is then nearest where another
scope, or none, was nearest before. That is why the law of the assignment looks at the store before
the change and the law of the definition at the store after it (`assign_define_visible`).
-/

namespace MiniLisp

namespace Store

variable {st : Store} {id outer : ScopeId} {name : String} {value : Node}

/-! ### Links -/

/-- A scope stands in another one. -/
def StandsIn (st : Store) (id outer : ScopeId) : Prop :=
  ∃ scope, st.scope? id = some scope ∧ scope.outer = some outer

theorem StandsIn.add (h : st.StandsIn id outer) (scope : Scope) :
    (st.add scope).StandsIn id outer := by
  obtain ⟨inner, hinner, houter⟩ := h
  refine ⟨inner, ?_, houter⟩
  have hlt : id < st.next := (Array.getElem?_eq_some_iff.mp hinner).1
  rw [Store.scope?_add, if_neg (Nat.ne_of_lt hlt)]
  exact hinner

theorem StandsIn.define (h : st.StandsIn id outer) (other : ScopeId) (name : String)
    (value : Node) : (st.define other name value).StandsIn id outer := by
  obtain ⟨inner, hinner, houter⟩ := h
  unfold StandsIn
  rw [Store.define, Store.scope?_rebind, hinner]
  split
  · exact ⟨_, rfl, houter⟩
  · exact ⟨_, rfl, houter⟩

/-- A scope that is entered stands in the one that it is entered from. -/
theorem standsIn_add (st : Store) (name : Option String) (outer : ScopeId)
    (bindings : Bindings) : (st.add ⟨name, some outer, bindings⟩).StandsIn st.next outer := by
  refine ⟨⟨name, some outer, bindings⟩, ?_, rfl⟩
  rw [Store.scope?_add, if_pos rfl]

theorem outer?_eq_some_iff {found : { outer : ScopeId // outer < id }} :
    st.outer? id = some found ↔ st.StandsIn id found := by
  unfold Store.outer?
  constructor
  · intro hfound
    split at hfound
    · next outer houter =>
      obtain ⟨scope, hscope, hlink⟩ := Option.bind_eq_some_iff.mp houter
      split at hfound
      · exact Option.some.inj hfound ▸ ⟨scope, hscope, hlink⟩
      · cases hfound
    · cases hfound
  · rintro ⟨scope, hscope, hlink⟩
    simp [hscope, hlink, found.2]

/-! ### The chain of a scope -/

theorem chain_of_outer? {found : { outer : ScopeId // outer < id }}
    (h : st.outer? id = some found) : st.chain id = id :: st.chain found := by
  rw [chain, h]

theorem chain_of_outermost (h : st.outer? id = none) : st.chain id = [id] := by
  rw [chain, h]

/-- The first scope of all stands in no other. -/
theorem chain_zero (st : Store) : st.chain 0 = [0] := by
  cases e : st.outer? 0 with
  | none => exact chain_of_outermost e
  | some found => exact absurd found.2 (Nat.not_lt_zero _)

@[simp] theorem chain_define (st : Store) (scope : ScopeId) (name : String) (value : Node)
    (id : ScopeId) : (st.define scope name value).chain id = st.chain id := by
  induction id using chain.induct with
  | case1 id ih =>
    have hlinks : (st.define scope name value).outer? id = st.outer? id := outer?_rebind st _ _ _
    cases e : st.outer? id with
    | none => rw [chain_of_outermost e, chain_of_outermost (hlinks.trans e)]
    | some found =>
      rw [chain_of_outer? e, chain_of_outer? (hlinks.trans e), ih found.1 found.2]

/-! ### The nearest scope -/

/-- A scope binds a name itself. -/
def Binds (st : Store) (name : String) (id : ScopeId) : Prop :=
  name ∈ Bindings.names (st.bindings id)

instance (st : Store) (name : String) (id : ScopeId) : Decidable (st.Binds name id) :=
  inferInstanceAs (Decidable (name ∈ Bindings.names (st.bindings id)))

/-- The first scope on the chain of a scope that binds a name. -/
def nearest? (st : Store) (name : String) (id : ScopeId) : Option ScopeId :=
  (st.chain id).find? fun scope ↦ st.Binds name scope

theorem not_binds_iff : ¬ st.Binds name id ↔ Bindings.find? name (st.bindings id) = none := by
  rw [Binds, ← Bindings.find?_isSome_iff, Bool.not_eq_true, Option.isSome_eq_false_iff,
    Option.isNone_iff_eq_none]

/-- Some scope is nearest exactly when one on the chain binds the name. -/
theorem exists_nearest?_iff :
    (∃ owner, st.nearest? name id = some owner) ↔ ∃ scope ∈ st.chain id, st.Binds name scope := by
  rw [← Option.isSome_iff_exists, nearest?, List.find?_isSome]
  simp

theorem binds_of_nearest? {owner : ScopeId} (h : st.nearest? name id = some owner) :
    st.Binds name owner := by
  have hfound := List.find?_some h
  exact of_decide_eq_true hfound

theorem nearest?_of_binds (h : st.Binds name id) : st.nearest? name id = some id := by
  rw [nearest?, chain, List.find?_cons_of_pos (by simpa using h)]

theorem nearest?_of_outer? {found : { outer : ScopeId // outer < id }}
    (h : st.outer? id = some found) (hnot : ¬ st.Binds name id) :
    st.nearest? name id = st.nearest? name found := by
  rw [nearest?, chain_of_outer? h, List.find?_cons_of_neg (by simpa using hnot)]
  rfl

theorem nearest?_of_outermost (h : st.outer? id = none) (hnot : ¬ st.Binds name id) :
    st.nearest? name id = none := by
  rw [nearest?, chain_of_outermost h, List.find?_cons_of_neg (by simpa using hnot)]
  rfl

/-- A lookup finds the nearest scope and what the name is bound to there. -/
theorem resolve?_eq (st : Store) (name : String) (id : ScopeId) :
    st.resolve? name id = (st.nearest? name id).bind fun owner ↦
      (Bindings.find? name (st.bindings owner)).map (owner, ·) := by
  induction id using resolve?.induct st name with
  | case1 id value hvalue =>
    have hbinds : st.Binds name id := by
      rw [Binds, ← Bindings.find?_isSome_iff, hvalue]
      rfl
    rw [resolve?, hvalue, nearest?_of_binds hbinds, Option.bind_some, hvalue]
    rfl
  | case2 id hnone outer hlt houter ih =>
    rw [resolve?, hnone, houter, nearest?_of_outer? houter (not_binds_iff.mpr hnone)]
    exact ih
  | case3 id hnone houter =>
    rw [resolve?, hnone, houter, nearest?_of_outermost houter (not_binds_iff.mpr hnone)]
    rfl

/-- A name means what it is bound to in the nearest scope. -/
theorem get?_eq (st : Store) (name : String) (id : ScopeId) :
    st.get? name id = (st.nearest? name id).bind fun owner ↦
      Bindings.find? name (st.bindings owner) := by
  rw [get?, resolve?_eq]
  cases st.nearest? name id with
  | none => rfl
  | some owner =>
    rw [Option.bind_some, Option.bind_some]
    cases Bindings.find? name (st.bindings owner) <;> rfl

/-- A name has a meaning exactly when some scope on the chain binds it. -/
theorem exists_get?_iff :
    (∃ value, st.get? name id = some value) ↔ ∃ scope ∈ st.chain id, st.Binds name scope := by
  rw [← exists_nearest?_iff, get?_eq]
  constructor
  · rintro ⟨value, hvalue⟩
    obtain ⟨owner, howner, -⟩ := Option.bind_eq_some_iff.mp hvalue
    exact ⟨owner, howner⟩
  · rintro ⟨owner, howner⟩
    rw [howner, Option.bind_some, ← Option.isSome_iff_exists, Bindings.find?_isSome_iff]
    exact binds_of_nearest? howner

/-! ### One change -/

/-- All that changes is what one name is bound to in one scope. -/
structure ChangesOnly (st : Store) (scope : ScopeId) (name : String) (value : Node)
    (st' : Store) : Prop where
  others : ∀ id, id ≠ scope → st'.scope? id = st.scope? id
  own : ∃ before after, st.scope? scope = some before ∧ st'.scope? scope = some after ∧
    after.name = before.name ∧ after.outer = before.outer ∧
    ∀ other, Bindings.find? other after.bindings =
      if other = name then some value else Bindings.find? other before.bindings

theorem exists_scope?_of_lt (h : id < st.next) : ∃ scope, st.scope? id = some scope :=
  ⟨st.scopes[id], Array.getElem?_eq_getElem h⟩

theorem Binds.lt_next (h : st.Binds name id) : id < st.next := by
  refine Nat.lt_of_not_le fun hle ↦ ?_
  have hnone : st.scope? id = none := Array.getElem?_eq_none hle
  rw [Binds, bindings, hnone] at h
  exact absurd h List.not_mem_nil

theorem define_changesOnly (h : id < st.next) (name : String) (value : Node) :
    st.ChangesOnly id name value (st.define id name value) where
  others other hne := by
    rw [Store.define, scope?_rebind, if_neg (Ne.symm hne)]
  own := by
    obtain ⟨scope, hscope⟩ := exists_scope?_of_lt h
    refine ⟨scope, { scope with bindings := Bindings.bind name value scope.bindings }, hscope,
      ?_, rfl, rfl, fun other ↦ ?_⟩
    · rw [Store.define, scope?_rebind, if_pos rfl, hscope]
      rfl
    · simp only [Bindings.find?_bind, eq_comm]

/-- What a name is bound to in a scope after a definition. -/
theorem find?_bindings_define (h : id < st.next) (name other : String) (value : Node)
    (scope : ScopeId) :
    Bindings.find? other ((st.define id name value).bindings scope) =
      if other = name ∧ scope = id then some value
      else Bindings.find? other (st.bindings scope) := by
  obtain ⟨found, hfound⟩ := exists_scope?_of_lt h
  rw [Store.define, bindings_rebind]
  by_cases hscope : scope = id
  · rw [if_pos ⟨hscope.symm, by rw [hscope, hfound]; rfl⟩, Bindings.find?_bind]
    simp [hscope, eq_comm]
  · rw [if_neg fun hboth ↦ hscope hboth.1.symm, if_neg fun hboth ↦ hscope hboth.2]

theorem binds_define_iff (h : id < st.next) (name other : String) (value : Node)
    (scope : ScopeId) : (st.define id name value).Binds other scope ↔
      (other = name ∧ scope = id) ∨ st.Binds other scope := by
  rw [Binds, ← Bindings.find?_isSome_iff, find?_bindings_define h, Binds,
    ← Bindings.find?_isSome_iff]
  split
  · next hboth => simp [hboth]
  · next hboth => simp [hboth]

/-- The first element with a property is the same for two properties that differ in one place only,
if it is not there. -/
theorem find?_eq_of_differ_at {p q : ScopeId → Bool} {scope : ScopeId}
    (hother : ∀ id, id ≠ scope → q id = p id) (hscope : q scope = true) {ids : List ScopeId}
    (h : ids.find? q ≠ some scope) : ids.find? q = ids.find? p := by
  induction ids with
  | nil => rfl
  | cons id ids ih =>
    -- The scope itself has the second property, so it is not first.
    have hne : id ≠ scope := by
      rintro rfl
      exact h (List.find?_cons_of_pos hscope)
    cases hp : p id with
    | true =>
      rw [List.find?_cons_of_pos hp, List.find?_cons_of_pos ((hother id hne).trans hp)]
    | false =>
      have hp : ¬ p id = true := by simp [hp]
      have hq : ¬ q id = true := by rwa [hother id hne]
      rw [List.find?_cons_of_neg hq] at h ⊢
      rw [List.find?_cons_of_neg hp]
      exact ih h

/-- A definition only makes its own scope the nearest one, and only for its name. -/
theorem nearest?_define_of_ne (h : id < st.next) {other : String} {value : Node} {place : ScopeId}
    (hne : ¬ (other = name ∧ (st.define id name value).nearest? name place = some id)) :
    (st.define id name value).nearest? other place = st.nearest? other place := by
  unfold nearest? at hne ⊢
  rw [chain_define] at hne ⊢
  by_cases hname : other = name
  · subst hname
    refine find?_eq_of_differ_at (fun scope hscope ↦ ?_) ?_ fun hfound ↦ hne ⟨rfl, hfound⟩
    · simp [binds_define_iff h, hscope]
    · simp [binds_define_iff h]
  · simp [binds_define_iff h, hname]

/-- **What a name means after a definition.** It is the new value exactly where the scope of the
definition is now the nearest one for its name, and what it was before everywhere else. -/
theorem get?_define (h : id < st.next) (name other : String) (value : Node) (place : ScopeId) :
    (st.define id name value).get? other place =
      if other = name ∧ (st.define id name value).nearest? name place = some id then some value
      else st.get? other place := by
  split
  · next hboth =>
    obtain ⟨rfl, hnearest⟩ := hboth
    rw [get?_eq, hnearest, Option.bind_some, find?_bindings_define h, if_pos ⟨rfl, rfl⟩]
  · next hne =>
    have hnearest := nearest?_define_of_ne h hne
    rw [get?_eq, get?_eq, hnearest]
    cases e : st.nearest? other place with
    | none => rfl
    | some owner =>
      rw [Option.bind_some, Option.bind_some, find?_bindings_define h, if_neg]
      rintro ⟨rfl, rfl⟩
      exact hne ⟨rfl, hnearest.trans e⟩

/-- A scope that binds the name already is nearest where it was nearest before. -/
theorem nearest?_define_of_binds (h : st.Binds name id) (other : String) (value : Node)
    (place : ScopeId) :
    (st.define id name value).nearest? other place = st.nearest? other place := by
  have hsame (scope : ScopeId) : (st.define id name value).Binds other scope ↔
      st.Binds other scope := by
    rw [binds_define_iff h.lt_next, or_iff_right_iff_imp]
    rintro ⟨rfl, rfl⟩
    exact h
  simp only [nearest?, chain_define, hsame]

/-! ### A scope that is added -/

theorem scope?_add_of_lt (h : id < st.next) (scope : Scope) :
    (st.add scope).scope? id = st.scope? id := by
  rw [scope?_add, if_neg (Nat.ne_of_lt h)]

/-- What a name means in a scope does not depend on scopes that are added later. -/
theorem get?_add_of_lt (h : id < st.next) (scope : Scope) (name : String) :
    (st.add scope).get? name id = st.get? name id := by
  have hbindings {id : ScopeId} (h : id < st.next) :
      (st.add scope).bindings id = st.bindings id := by
    rw [bindings, scope?_add_of_lt h]
    rfl
  have houter {id : ScopeId} (h : id < st.next) : (st.add scope).outer? id = st.outer? id := by
    rw [outer?, scope?_add_of_lt h]
    rfl
  have hresolve : (st.add scope).resolve? name id = st.resolve? name id := by
    induction id using resolve?.induct st name with
    | case1 id value hvalue => rw [resolve?, resolve?, hbindings h, hvalue]
    | case2 id hnone outer hlt hlink ih =>
      rw [resolve?, resolve?, hbindings h, hnone, houter h, hlink]
      exact ih (Nat.lt_trans hlt h)
    | case3 id hnone hlink => rw [resolve?, resolve?, hbindings h, hnone, houter h, hlink]
  rw [get?, hresolve]
  rfl

/-- In a scope that is entered a name means what is bound there, and otherwise what it means where
the scope was entered from. -/
theorem get?_entered (h : outer < st.next) (own : Option String) (b : Bindings) (name : String) :
    (st.add ⟨own, some outer, b⟩).get? name st.next =
      (Bindings.find? name b).or (st.get? name outer) := by
  have hscope : (st.add ⟨own, some outer, b⟩).scope? st.next = some ⟨own, some outer, b⟩ := by
    rw [scope?_add, if_pos rfl]
  have houter : (st.add ⟨own, some outer, b⟩).outer? st.next = some ⟨outer, h⟩ :=
    outer?_eq_some_iff.mpr ⟨_, hscope, rfl⟩
  have hbindings : (st.add ⟨own, some outer, b⟩).bindings st.next = b := by
    rw [bindings, hscope]
  rw [get?, resolve?, hbindings, houter]
  cases Bindings.find? name b with
  | some value => rfl
  | none => exact get?_add_of_lt h _ name

end Store

/-! ### Assignments and definitions -/

/-- An assignment changes the nearest scope, and fails if there is none. -/
theorem Action.assign_eq_nearest (scope : ScopeId) (name : String) (value : Node) (span : Span)
    (m : Machine) :
    Action.assign scope name value span m = match m.store.nearest? name scope with
      | some owner => .ok () { m with store := m.store.define owner name value }
      | none => .error (.unbound name span) m := by
  unfold Action.assign
  rw [Store.resolve?_eq]
  cases e : m.store.nearest? name scope with
  | none => rfl
  | some owner =>
    have hbinds := Store.binds_of_nearest? e
    obtain ⟨old, hold⟩ := Option.isSome_iff_exists.mp
      ((Bindings.find?_isSome_iff name (m.store.bindings owner)).mpr hbinds)
    rw [Option.bind_some, hold]
    rfl

/-- **Assignments and definitions change what one name means, where one scope is nearest.**
An assignment succeeds exactly when a scope on the chain binds the name. It then changes only the
binding of that name in the nearest such scope, and the name has the new value exactly where that
scope is nearest; every other name, and this one everywhere else, means what it did. An assignment
that fails names the name and its place, and leaves the machine as it was. A definition always
succeeds, changes only the binding of its name in its own scope, and the name has the new value
exactly where that scope is nearest now. -/
theorem assign_define_visible {m : Machine} {scope : ScopeId} (h : scope < m.store.next)
    (name : String) (value : Node) (span : Span) :
    ((∃ m', Action.assign scope name value span m = .ok () m') ↔
      ∃ owner ∈ m.store.chain scope, m.store.Binds name owner) ∧
    (∀ m', Action.assign scope name value span m = .ok () m' →
      ∃ owner, m.store.nearest? name scope = some owner ∧
        m.store.ChangesOnly owner name value m'.store ∧
        ∀ other place, m'.store.get? other place =
          if other = name ∧ m.store.nearest? name place = some owner then some value
          else m.store.get? other place) ∧
    ((¬ ∃ owner ∈ m.store.chain scope, m.store.Binds name owner) →
      Action.assign scope name value span m = .error (.unbound name span) m) ∧
    ∃ m', (Action.define scope name value m : Outcome EvalError Unit) = .ok () m' ∧
      m.store.ChangesOnly scope name value m'.store ∧
      ∀ other place, m'.store.get? other place =
        if other = name ∧ m'.store.nearest? name place = some scope then some value
        else m.store.get? other place := by
  rw [← Store.exists_nearest?_iff, Action.assign_eq_nearest]
  refine ⟨?_, ?_, ?_, { m with store := m.store.define scope name value }, rfl,
    m.store.define_changesOnly h name value,
    fun other place ↦ Store.get?_define h name other value place⟩
  · cases m.store.nearest? name scope with
    | none => exact ⟨nofun, nofun⟩
    | some owner => exact ⟨fun _ ↦ ⟨owner, rfl⟩, fun _ ↦ ⟨_, rfl⟩⟩
  · rintro m' hm'
    cases e : m.store.nearest? name scope with
    | none =>
      rw [e] at hm'
      cases hm'
    | some owner =>
      rw [e] at hm'
      cases hm'
      have hbinds := Store.binds_of_nearest? e
      refine ⟨owner, rfl, m.store.define_changesOnly hbinds.lt_next name value, ?_⟩
      intro other place
      rw [Store.get?_define hbinds.lt_next, Store.nearest?_define_of_binds hbinds]
  · intro hnone
    cases e : m.store.nearest? name scope with
    | none => rfl
    | some owner => exact absurd ⟨owner, e⟩ hnone

/-- A machine with a scope inside another one, which alone binds a name. -/
def Machine.nested : Machine :=
  ⟨⟨#[⟨none, none, [("x", .boolean false .nowhere)]⟩, ⟨none, some 0, []⟩]⟩, 0, none⟩

/-- An assignment inside changes what the name means outside, and a definition there does not. -/
theorem assign_define_visible_nested :
    (∃ m', Action.assign 1 "x" (.boolean true .nowhere) .nowhere Machine.nested = .ok () m' ∧
      m'.store.get? "x" 0 = some (.boolean true .nowhere)) ∧
    ∃ m', (Action.define 1 "x" (.boolean true .nowhere) Machine.nested : Outcome EvalError Unit) =
        .ok () m' ∧
      m'.store.get? "x" 0 = some (.boolean false .nowhere) := by
  have hlt : 1 < Machine.nested.store.next := by decide
  have hinner : Machine.nested.store.chain 1 = [1, 0] := by
    simp [Store.chain, Store.outer?, Store.scope?, Machine.nested]
  have hbinds : Machine.nested.store.Binds "x" 0 := by decide
  have hnearest : Machine.nested.store.nearest? "x" 0 = some 0 := by
    rw [Store.nearest?, Store.chain_zero]
    decide
  obtain ⟨hiff, hok, -, m', hm', -, hget⟩ :=
    assign_define_visible hlt "x" (.boolean true .nowhere) .nowhere
  constructor
  · obtain ⟨after, hafter⟩ := hiff.mpr ⟨0, by simp [hinner], hbinds⟩
    obtain ⟨owner, howner, -, hvalue⟩ := hok after hafter
    have hzero : some owner = some 0 := by
      rw [← howner, Store.nearest?, hinner]
      decide
    obtain rfl := Option.some.inj hzero
    exact ⟨after, hafter, by rw [hvalue, if_pos ⟨rfl, hnearest⟩]⟩
  · refine ⟨m', hm', ?_⟩
    have hnot : m'.store.nearest? "x" 0 ≠ some 1 := by
      rw [Store.nearest?, Store.chain_zero]
      intro hfound
      exact absurd (List.mem_of_find?_eq_some hfound) (by decide)
    rw [hget, if_neg fun hboth ↦ hnot hboth.2, Store.get?_eq, hnearest]
    rfl

end MiniLisp
