import Mathlib.Data.List.Forall2
import MiniLisp.Data.Label

/-!
# Adoption

Adopting a node gives it as many labels as it needs (`Node.missing`). Most nodes need none, as they
are no pairs or were adopted before, and stay as they are. A list is adopted with all its elements,
and it is then the list of what became of them (`Node.toList?_adopt`).
-/

namespace MiniLisp.Node

/-- How many labels a node still needs. -/
def missing : Node → Nat
  | pair none a d _ => 1 + a.missing + d.missing
  | _ => 0

theorem adopt_snd (n : Node) (next : Label) : (n.adopt next).2 = next + n.missing := by
  induction n generalizing next with
  | pair l a d s iha ihd =>
    cases l with
    | none =>
      rw [adopt_new, ihd, iha, missing, Nat.add_assoc, Nat.add_assoc, Nat.add_assoc]
    | some l => rfl
  | _ => rfl

/-- A node that needs no label stays as it is. -/
theorem adopt_of_missing {n : Node} (h : n.missing = 0) (next : Label) :
    n.adopt next = (n, next) := by
  cases n with
  | pair l a d s =>
    cases l with
    | none =>
      rw [missing] at h
      omega
    | some l => rfl
  | _ => rfl

theorem missing_of_symbol? {n : Node} {name : String} (h : n.symbol? = some name) :
    n.missing = 0 := by
  cases n with
  | pair => cases h
  | _ => rfl

theorem symbol?_adopt_of {n : Node} {name : String} (h : n.symbol? = some name) (next : Label) :
    (n.adopt next).1.symbol? = some name := by
  rw [adopt_of_missing (missing_of_symbol? h)]
  exact h

/-! ### Lists -/

/-- A node as it is, or after it was given the labels that it needed. -/
def IsAdoption (n adopted : Node) : Prop := adopted = n ∨ ∃ next, adopted = (n.adopt next).1

theorem IsAdoption.eq_of_missing {n adopted : Node} (h : n.IsAdoption adopted)
    (hn : n.missing = 0) : adopted = n := by
  obtain hsame | ⟨next, hadopted⟩ := h
  · exact hsame
  · rw [hadopted, adopt_of_missing hn]

variable {n : Node} {items : List Node}

theorem eq_of_isAdoption {adopted : List Node} (h : List.Forall₂ IsAdoption items adopted)
    (hitems : ∀ item ∈ items, item.missing = 0) : adopted = items := by
  induction h with
  | nil => rfl
  | cons hitem _ ih =>
    obtain ⟨hfirst, hrest⟩ := List.forall_mem_cons.mp hitems
    rw [hitem.eq_of_missing hfirst, ih hrest]

/-- A list that is adopted has the elements that it had, up to the labels that they are given. -/
theorem toList?_adopt (h : n.toList? = some items) (next : Label) :
    ∃ adopted, (n.adopt next).1.toList? = some adopted ∧ List.Forall₂ IsAdoption items adopted := by
  induction items generalizing n next with
  | nil =>
    obtain ⟨s, rfl⟩ := eq_nil_of_toList? h
    exact ⟨[], rfl, .nil⟩
  | cons item items ih =>
    obtain ⟨l, cdr, s, rfl, hcdr⟩ := exists_pair_of_toList? h
    cases l with
    | none =>
      obtain ⟨adopted, hlist, hadopted⟩ := ih hcdr (item.adopt (next + 1)).2
      refine ⟨(item.adopt (next + 1)).1 :: adopted, ?_, .cons (.inr ⟨next + 1, rfl⟩) hadopted⟩
      rw [adopt_new, toList?_pair, hlist]
      rfl
    | some l => exact ⟨item :: items, h, List.forall₂_same.mpr fun _ _ ↦ .inl rfl⟩

/-- A list stays a list of the same elements if these need no labels. -/
theorem toList?_adopt_of_missing (h : n.toList? = some items)
    (hitems : ∀ item ∈ items, item.missing = 0) (next : Label) :
    (n.adopt next).1.toList? = some items := by
  obtain ⟨adopted, hlist, hadopted⟩ := toList?_adopt h next
  rw [hlist, eq_of_isAdoption hadopted hitems]

end MiniLisp.Node
