import MiniLisp.Proofs.Data.Copy

/-!
# Equality and sharing

Equality takes a pair to be the same as itself without a look at its parts. A comparison that always
looks at them (`Node.alike`) sees nothing of which pairs are shared. Still the two give the same
answers, where it does not matter that a number may differ from itself (`Node.same_eq_alike`): a
label stands for a cell of some memory, so pairs with the same label have the same parts. Two values
are then as equal as any copies of them, however those are laid out in memory
(`Node.same_eq_of_copy`).

Where there are no floats, nodes are alike if they hold the same data (`Node.alike_iff`): exact
numbers compare by their values, and all else by names, labels and parts. So equality is an
equivalence there.
-/

namespace MiniLisp

theorem Number.same_iff_of_exact {a b : Number} {m n : Int} (ha : a.toInt? = some m)
    (hb : b.toInt? = some n) : a.same b = true ↔ m = n := by
  rw [same, compare?_of_exact ha hb, beq_iff_eq, Option.some_inj, Int.compare_eq_eq]

theorem exists_of_sameLabel {l m : Option Label} (h : sameLabel l m = true) :
    ∃ k, l = some k ∧ m = some k := by
  unfold sameLabel at h
  split at h
  · next k j => exact ⟨k, rfl, congrArg some (beq_iff_eq.mp h).symm⟩
  · cases h

namespace Node

/-! ### Comparison of all parts -/

/-- The comparison of nodes part by part, whatever labels the pairs have. -/
def alike : Node → Node → Bool
  | atom a _, atom b _ => a.same b
  | pair _ a d _, pair _ b e _ => a.alike b && d.alike e
  | closure l .., closure m .. => l == m
  | transformer l .., transformer m .. => l == m
  | _, _ => false

/-- All numbers in the data have a property. The bodies of procedures and macros are no data. -/
def AllNumbers (p : Number → Prop) : Node → Prop
  | atom (.number x) _ => p x
  | pair _ a d _ => a.AllNumbers p ∧ d.AllNumbers p
  | _ => True

/-- The pairs in the data are cells of a memory, which holds the parts of each pair under the label
of the pair. -/
def LivesIn (memory : Label → Node × Node) : Node → Prop
  | pair label a d _ => (∀ l ∈ label, memory l = (a, d)) ∧ a.LivesIn memory ∧ d.LivesIn memory
  | _ => True

theorem alike_self {n : Node} (h : n.AllNumbers fun x ↦ x.same x = true) : n.alike n = true := by
  induction n with
  | atom a s =>
    cases a with
    | number x => exact h
    | nil => rfl
    | undefined => rfl
    | _ => exact beq_self_eq_true _
  | pair l a d s iha ihd => rw [alike, iha h.1, ihd h.2, Bool.and_self]
  | closure => exact beq_self_eq_true _
  | transformer => exact beq_self_eq_true _

section

variable {memory : Label → Node × Node} {a b : Node}

/-- Data in one memory is the same exactly if it is alike, given that all numbers are equal to
themselves. -/
theorem same_eq_alike (ha : a.LivesIn memory) (hb : b.LivesIn memory)
    (hnumbers : a.AllNumbers fun x ↦ x.same x = true) : a.same b = a.alike b := by
  induction a generalizing b with
  | pair l a d s iha ihd =>
    cases b with
    | pair m b e t =>
      obtain ⟨hcell, hcar, hcdr⟩ := ha
      obtain ⟨hcell', hcar', hcdr'⟩ := hb
      rw [same, alike, iha hcar hcar' hnumbers.1, ihd hcdr hcdr' hnumbers.2]
      cases hlabel : sameLabel l m with
      | false => rw [Bool.false_or]
      | true =>
        -- One cell: what is in it is like itself.
        obtain ⟨k, rfl, rfl⟩ := exists_of_sameLabel hlabel
        obtain ⟨rfl, rfl⟩ := Prod.mk.inj ((hcell k rfl).symm.trans (hcell' k rfl))
        rw [alike_self hnumbers.1, alike_self hnumbers.2]
        rfl
    | _ => rfl
  | atom => cases b <;> rfl
  | closure => cases b <;> rfl
  | transformer => cases b <;> rfl

end

/-- Copies have the same numbers. -/
theorem AllNumbers.copy {p : Number → Prop} {n n' : Node} (h : n.Copy n') (hn : n.AllNumbers p) :
    n'.AllNumbers p := by
  induction h with
  | @atom a s s' => cases a <;> exact hn
  | pair _ _ iha ihd => exact ⟨iha hn.1, ihd hn.2⟩
  | closure => trivial
  | transformer => trivial

theorem alike_eq_of_copy {a a' b b' : Node} (ha : a.Copy a') (hb : b.Copy b') :
    a.alike b = a'.alike b' := by
  induction ha generalizing b b' with
  | pair _ _ iha ihd =>
    cases hb with
    | pair hcar hcdr => rw [alike, alike, iha hcar, ihd hcdr]
    | _ => rfl
  | atom => cases hb <;> rfl
  | closure => cases hb <;> rfl
  | transformer => cases hb <;> rfl

/-- **The layout in memory does not matter.** Two values are equal exactly if copies of them are,
whatever cells the values share and whatever cells the copies share. -/
theorem same_eq_of_copy {memory memory' : Label → Node × Node} {a a' b b' : Node}
    (h : a.LivesIn memory ∧ b.LivesIn memory) (h' : a'.LivesIn memory' ∧ b'.LivesIn memory')
    (hnumbers : a.AllNumbers fun x ↦ x.same x = true) (ha : a.Copy a') (hb : b.Copy b') :
    a.same b = a'.same b' := by
  rw [same_eq_alike h.1 h.2 hnumbers, same_eq_alike h'.1 h'.2 (hnumbers.copy ha),
    alike_eq_of_copy ha hb]

/-! ### Data without floats -/

/-- Data apart from spans and from which pairs are shared. -/
inductive Datum where
  | number (value : Option Int)
  | native (name : String)
  | other (a : Atom)
  | pair (first second : Datum)
  | closure (label : Label)
  | transformer (label : Label)

/-- What a node is compared by. -/
def datum : Node → Datum
  | atom (.number x) _ => .number x.toInt?
  | atom (.native p) _ => .native p.name
  | atom a _ => .other a
  | pair _ a d _ => .pair a.datum d.datum
  | closure l .. => .closure l
  | transformer l .. => .transformer l

/-- Nodes without floats are alike exactly if they hold the same data. -/
theorem alike_iff {a b : Node} (ha : a.AllNumbers (·.isExact = true))
    (hb : b.AllNumbers (·.isExact = true)) : a.alike b = true ↔ a.datum = b.datum := by
  induction a generalizing b with
  | atom x s =>
    cases b with
    | atom y t =>
      show x.same y = true ↔ _
      cases x with
      | number m =>
        cases y with
        | number n =>
          obtain ⟨i, hi⟩ := Option.isSome_iff_exists.mp ha
          obtain ⟨j, hj⟩ := Option.isSome_iff_exists.mp hb
          simp only [Atom.same, Number.same_iff_of_exact hi hj, datum, hi, hj, Datum.number.injEq,
            Option.some_inj]
        | _ => simp [Atom.same, datum]
      | _ => cases y <;> simp [Atom.same, datum]
    | _ => cases x <;> simp [alike, datum]
  | pair l a d s iha ihd =>
    cases b with
    | pair m b e t =>
      rw [alike, Bool.and_eq_true, iha ha.1 hb.1, ihd ha.2 hb.2]
      simp [datum]
    | atom y t => cases y <;> simp [alike, datum]
    | _ => simp [alike, datum]
  | closure =>
    cases b with
    | atom y t => cases y <;> simp [alike, datum]
    | _ => simp [alike, datum]
  | transformer =>
    cases b with
    | atom y t => cases y <;> simp [alike, datum]
    | _ => simp [alike, datum]

theorem AllNumbers.imp {p q : Number → Prop} (hpq : ∀ x, p x → q x) {n : Node}
    (h : n.AllNumbers p) : n.AllNumbers q := by
  induction n with
  | atom a s =>
    cases a with
    | number x => exact hpq x h
    | _ => trivial
  | pair l a d s iha ihd => exact ⟨iha h.1, ihd h.2⟩
  | closure => trivial
  | transformer => trivial

/-- Only a float can differ from itself. -/
theorem same_self_of_exact {x : Number} (h : x.isExact = true) : x.same x = true := by
  obtain ⟨i, hi⟩ := Option.isSome_iff_exists.mp h
  exact (Number.same_iff_of_exact hi hi).mpr rfl

/-! ### Equality -/

/-- **Equality does not see sharing.** For data in one memory, equality with its short cut is the
comparison of all parts, if all numbers are equal to themselves. It is an equivalence where there
are no floats. And whatever the data is, what is identical is equal. -/
theorem same_unshared :
    (∀ (memory : Label → Node × Node) (a b : Node), a.LivesIn memory → b.LivesIn memory →
      (a.AllNumbers fun x ↦ x.same x = true) → a.same b = a.alike b) ∧
    (∀ memory : Label → Node × Node,
      Equivalence fun a b : {n : Node // n.LivesIn memory ∧ n.AllNumbers (·.isExact = true)} ↦
        a.1.same b.1 = true) ∧
    ∀ a b : Node, a.identical b = true → a.same b = true := by
  refine ⟨fun memory a b ha hb hnumbers ↦ same_eq_alike ha hb hnumbers, fun memory ↦ ?_,
    fun a b h ↦ same_of_identical h⟩
  have hsame (a b : {n : Node // n.LivesIn memory ∧ n.AllNumbers (·.isExact = true)}) :
      a.1.same b.1 = true ↔ a.1.datum = b.1.datum := by
    rw [same_eq_alike a.2.1 b.2.1 (a.2.2.imp fun _ ↦ same_self_of_exact), alike_iff a.2.2 b.2.2]
  exact ⟨fun a ↦ (hsame a a).mpr rfl, fun h ↦ (hsame _ _).mpr ((hsame _ _).mp h).symm,
    fun h h' ↦ (hsame _ _).mpr (((hsame _ _).mp h).trans ((hsame _ _).mp h'))⟩

/-- Two lists that share their first element, which one of them has twice. -/
theorem same_unshared_lists :
    let one (n : Number) : Node := .number n .nowhere
    let shared : Node := .pair (some 0) (one (.integer 1)) (.nil .nowhere) .nowhere
    let a : Node := .pair (some 1) shared shared .nowhere
    let b : Node := .pair (some 2) shared
      (.pair (some 3) (one (.big 1)) (.nil .nowhere) .nowhere) .nowhere
    let memory : Label → Node × Node
      | 0 => (one (.integer 1), .nil .nowhere)
      | 1 => (shared, shared)
      | 2 => (shared, .pair (some 3) (one (.big 1)) (.nil .nowhere) .nowhere)
      | _ => (one (.big 1), .nil .nowhere)
    (a.LivesIn memory ∧ a.AllNumbers (·.isExact = true)) ∧
      (b.LivesIn memory ∧ b.AllNumbers (·.isExact = true)) ∧
      a.same b = a.alike b ∧ a.same b = true ∧ b.same a = true ∧ a.identical b = false ∧
      a.identical a = true ∧ a.same a = true := by
  intro one shared a b memory
  have cell (l : Label) (x y : Node) (h : memory l = (x, y)) :
      ∀ k ∈ some l, memory k = (x, y) := by
    rintro k ⟨⟩
    exact h
  have hshared : shared.LivesIn memory := ⟨cell 0 _ _ rfl, trivial, trivial⟩
  have ha : a.LivesIn memory := ⟨cell 1 _ _ rfl, hshared, hshared⟩
  have hb : b.LivesIn memory := ⟨cell 2 _ _ rfl, hshared, cell 3 _ _ rfl, trivial, trivial⟩
  have haExact : a.AllNumbers (·.isExact = true) := ⟨⟨rfl, trivial⟩, rfl, trivial⟩
  have hbExact : b.AllNumbers (·.isExact = true) := ⟨⟨rfl, trivial⟩, rfl, trivial⟩
  obtain ⟨hsame, hequivalence, hidentical⟩ := same_unshared
  have halike : a.same b = a.alike b :=
    hsame memory a b ha hb (haExact.imp fun _ ↦ same_self_of_exact)
  have hab : a.same b = true := halike.trans (by decide)
  exact ⟨⟨ha, haExact⟩, ⟨hb, hbExact⟩, halike, hab,
    (hequivalence memory).symm (x := ⟨a, ha, haExact⟩) (y := ⟨b, hb, hbExact⟩) hab, rfl, rfl,
    hidentical a a rfl⟩

end Node

end MiniLisp
