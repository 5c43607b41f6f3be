import MiniLisp.Data.Node
import MiniLisp.Text.Inspected

/-!
# Scopes

A scope binds names to data. It may stand inside an outer scope, whose names are visible from it
unless it binds them itself. All scopes of a program are kept in one store, where a scope is known
by its number; scopes are only ever added, so a number stays good.

A scope is added after the one it stands in, and that never changes (`Store.Linked`). Going outwards
therefore goes to smaller numbers, which is why a lookup ends; the walks below check for it, so they
end in any store.
-/

namespace MiniLisp

/-! ### Bindings -/

/-- The names bound in one scope, each once, with what they are bound to. -/
abbrev Bindings := List (String × Node)

namespace Bindings

/-- What a name is bound to. -/
def find? (name : String) : Bindings → Option Node
  | [] => none
  | (n, value) :: rest => if n = name then some value else find? name rest

/-- The bindings with one more, or with another value in the place of an old one. -/
def bind (name : String) (value : Node) : Bindings → Bindings
  | [] => [(name, value)]
  | (n, old) :: rest => if n = name then (n, value) :: rest else (n, old) :: bind name value rest

/-- The bindings made one after the other, so that the last one of a name counts. -/
def ofList (pairs : List (String × Node)) : Bindings :=
  pairs.foldl (fun b p ↦ bind p.1 p.2 b) []

/-- The names that are bound. -/
def names (b : Bindings) : List String := b.map Prod.fst

/-- After binding a name, it has the new value and all others have what they had. -/
theorem find?_bind (name other : String) (value : Node) (b : Bindings) :
    find? other (bind name value b) = if name = other then some value else find? other b := by
  induction b with
  | nil => simp [bind, find?]
  | cons p rest ih =>
    obtain ⟨n, old⟩ := p
    by_cases h : n = name
    · subst h
      simp only [bind, if_true, find?]
      split <;> rfl
    · simp only [bind, if_neg h, find?, ih]
      by_cases h' : n = other
      · subst h'
        simp [Ne.symm h]
      · simp [h']

/-- A name is bound exactly when it is listed. -/
theorem find?_isSome_iff (name : String) (b : Bindings) :
    (find? name b).isSome ↔ name ∈ names b := by
  induction b with
  | nil => simp [find?, names]
  | cons p rest ih =>
    obtain ⟨n, old⟩ := p
    by_cases h : n = name
    · simp [find?, names, h]
    · simp only [find?, if_neg h, ih, names, List.map_cons, List.mem_cons]
      exact ⟨.inr, fun h' ↦ h'.elim (fun e ↦ absurd e.symm h) id⟩

/-- Binding a name adds it and nothing else to the names. -/
theorem mem_names_bind (name other : String) (value : Node) (b : Bindings) :
    other ∈ names (bind name value b) ↔ other = name ∨ other ∈ names b := by
  rw [← find?_isSome_iff, find?_bind, ← find?_isSome_iff]
  split
  · next h => simp [h]
  · next h => simp [Ne.symm h]

end Bindings

/-! ### Scopes and the store -/

/-- A scope. One without a name of its own is called after the scope it stands in. -/
structure Scope where
  name : Option String
  outer : Option ScopeId
  bindings : Bindings

/-- All scopes, each at the place of its number. -/
structure Store where
  scopes : Array Scope

namespace Store

/-- The store without scopes. -/
def empty : Store := ⟨#[]⟩

/-- The scope with a number. -/
def scope? (st : Store) (id : ScopeId) : Option Scope := st.scopes[id]?

/-- The number that the next scope will get. -/
def next (st : Store) : ScopeId := st.scopes.size

/-- The store with one more scope. -/
def add (st : Store) (scope : Scope) : Store := ⟨st.scopes.push scope⟩

/-- The store with other bindings in one scope. -/
def rebind (st : Store) (id : ScopeId) (f : Bindings → Bindings) : Store :=
  ⟨st.scopes.modify id fun scope ↦ { scope with bindings := f scope.bindings }⟩

/-- Every scope was added after the one it stands in. -/
def Linked (st : Store) : Prop :=
  ∀ id scope, st.scope? id = some scope → ∀ outer, scope.outer = some outer → outer < id

/-- The scope that a scope stands in, if that one is older. -/
def outer? (st : Store) (id : ScopeId) : Option { outer : ScopeId // outer < id } :=
  match (st.scope? id).bind Scope.outer with
  | some outer => if h : outer < id then some ⟨outer, h⟩ else none
  | none => none

/-- What a scope itself binds. -/
def bindings (st : Store) (id : ScopeId) : Bindings :=
  match st.scope? id with
  | some scope => scope.bindings
  | none => []

/-- A scope and all those around it, from the inside out. -/
def chain (st : Store) (id : ScopeId) : List ScopeId :=
  id :: match st.outer? id with
    | some ⟨outer, _⟩ => chain st outer
    | none => []
termination_by id

/-- The innermost scope around a place that binds a name, with what it is bound to there. -/
def resolve? (st : Store) (name : String) (id : ScopeId) : Option (ScopeId × Node) :=
  match Bindings.find? name (st.bindings id) with
  | some value => some (id, value)
  | none => match st.outer? id with
    | some ⟨outer, _⟩ => resolve? st name outer
    | none => none
termination_by id

/-- What a name means in a scope. -/
def get? (st : Store) (name : String) (id : ScopeId) : Option Node :=
  (st.resolve? name id).map Prod.snd

/-- A name means something in a scope. -/
def isBound (st : Store) (name : String) (id : ScopeId) : Bool := (st.resolve? name id).isSome

/-- Binds a name in a scope itself, whatever it means further out. -/
def define (st : Store) (id : ScopeId) (name : String) (value : Node) : Store :=
  st.rebind id (Bindings.bind name value)

/-- Changes what a name means in a scope, where it is bound. -/
def assign? (st : Store) (id : ScopeId) (name : String) (value : Node) : Option Store :=
  (st.resolve? name id).map fun found ↦ st.define found.1 name value

/-- The name of a scope. -/
def name (st : Store) (id : ScopeId) : String :=
  match (st.scope? id).bind Scope.name with
  | some name => name
  | none => match st.outer? id with
    | some ⟨outer, _⟩ => "child of " ++ name st outer
    | none => ""
termination_by id

/-! ### Listings -/

/-- Names in order, each once. -/
def sorted (names : List String) : List String := names.eraseDups.mergeSort

/-- The names that are visible in a scope. -/
def identifiers (st : Store) (id : ScopeId) : List String :=
  (st.chain id).flatMap fun scope ↦ Bindings.names (st.bindings scope)

/-- The names that a scope itself binds to macros. -/
def macroNames (b : Bindings) : List String :=
  Bindings.names (b.filter fun p ↦ p.2.transformer?.isSome)

/-- The names bound to macros in a scope or in one around it. -/
def transformerNames (st : Store) (id : ScopeId) : List String :=
  (st.chain id).flatMap fun scope ↦ macroNames (st.bindings scope)

/-- The shown form of a scope: of its bindings only the names, as what they are bound to may hold
the scope again. -/
def inspect (st : Store) (id : ScopeId) : String :=
  open Text.Inspected in
  record "Environment" [
    ("name", quote (st.name id)),
    ("bindings", list ((sorted (Bindings.names (st.bindings id))).map quote)),
    ("outer", option (((st.scope? id).bind Scope.outer).map fun outer ↦ quote (st.name outer)))]
    false

/-! ### How the parts of the store change -/

theorem scope?_empty (id : ScopeId) : empty.scope? id = none := rfl

theorem scope?_add (st : Store) (scope : Scope) (id : ScopeId) :
    (st.add scope).scope? id = if id = st.next then some scope else st.scope? id := by
  simp only [add, scope?, next, Array.getElem?_push]
  congr

theorem scope?_rebind (st : Store) (id other : ScopeId) (f : Bindings → Bindings) :
    (st.rebind id f).scope? other = if id = other then
      (st.scope? other).map fun scope ↦ { scope with bindings := f scope.bindings }
    else st.scope? other := by
  simp only [rebind, scope?, Array.getElem?_modify]

@[simp] theorem next_add (st : Store) (scope : Scope) : (st.add scope).next = st.next + 1 := by
  simp [add, next]

@[simp] theorem next_rebind (st : Store) (id : ScopeId) (f : Bindings → Bindings) :
    (st.rebind id f).next = st.next := by
  simp [rebind, next]

/-- The links between scopes do not depend on what they bind. -/
@[simp] theorem outer?_rebind (st : Store) (id other : ScopeId) (f : Bindings → Bindings) :
    (st.rebind id f).outer? other = st.outer? other := by
  have h : ((st.rebind id f).scope? other).bind Scope.outer =
      (st.scope? other).bind Scope.outer := by
    rw [scope?_rebind]
    split
    · cases st.scope? other <;> rfl
    · rfl
  unfold outer?
  rw [h]

theorem bindings_rebind (st : Store) (id other : ScopeId) (f : Bindings → Bindings) :
    (st.rebind id f).bindings other =
      if id = other ∧ (st.scope? other).isSome then f (st.bindings other)
      else st.bindings other := by
  unfold bindings
  rw [scope?_rebind]
  by_cases h : id = other
  · cases st.scope? other <;> simp [h]
  · simp [h]

/-- The store without scopes is linked. -/
theorem linked_empty : empty.Linked := by
  intro id scope h
  rw [scope?_empty] at h
  exact absurd h nofun

/-- A store stays linked when a scope is added inside an old one. -/
theorem Linked.add {st : Store} (h : st.Linked) {scope : Scope}
    (ho : ∀ outer, scope.outer = some outer → outer < st.next) : (st.add scope).Linked := by
  intro id s hs outer hout
  rw [scope?_add] at hs
  split at hs
  · next e =>
    cases hs
    exact e ▸ ho outer hout
  · exact h id s hs outer hout

/-- A store stays linked when bindings change. -/
theorem Linked.rebind {st : Store} (h : st.Linked) (id : ScopeId) (f : Bindings → Bindings) :
    (st.rebind id f).Linked := by
  intro other s hs outer hout
  rw [scope?_rebind] at hs
  split at hs
  · cases hscope : st.scope? other with
    | none => rw [hscope] at hs; exact absurd hs nofun
    | some scope =>
      rw [hscope] at hs
      cases hs
      exact h other scope hscope outer hout
  · exact h other s hs outer hout

end Store

end MiniLisp
