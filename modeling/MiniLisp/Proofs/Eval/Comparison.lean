import Mathlib.Algebra.Ring.Int.Defs
import Mathlib.Data.List.Chain
import Mathlib.Data.List.Forall2
import MiniLisp.Eval.Builtin

/-!
# Comparisons

The five comparisons `=`, `<`, `<=`, `>` and `>=` take two arguments or more and go through them
from left to right, with the last number at hand and with the answer so far. They do not stop where
the answer is known: each argument has to be a number, and the first one that is not is what the
comparison fails at (`Builtin.compareAll_of_notNumber`).

Only neighbours are compared. As the relations between integers that are meant are transitive, true
is the answer exactly where every argument is related to all later ones (`comparison_all_pairs`).
That is about the values of exact numbers, in whichever form each of them is kept.
-/

namespace MiniLisp

namespace Builtin

/-- The operation compares numbers, by this relation if they are exact. -/
inductive Compares : Builtin → (Int → Int → Prop) → Prop
  | numEq : Compares numEq (· = ·)
  | less : Compares less (· < ·)
  | lessEq : Compares lessEq (· ≤ ·)
  | greater : Compares greater (· > ·)
  | greaterEq : Compares greaterEq (· ≥ ·)

/-- The nodes are exact numbers with these values, each in any form. -/
def ExactNumbers (args : List Node) (values : List Int) : Prop :=
  List.Forall₂ (fun n value ↦ n.number?.bind Number.toInt? = some value) args values

section

variable (op : Builtin) (span : Span) (test : Ordering → Bool)

/-! ### Every argument is looked at -/

variable {n found : Node} {x : Number} {args before after : List Node}

theorem ordered_cons (h : n.number? = some x) (place : Nat) (result : Bool) (last : Number) :
    ordered op span test place result last (n :: args) =
      ordered op span test (place + 1) (result && (last.compare? x).any test) x args := by
  have hx : expectNumber op span place n = .ok x := by rw [expectNumber, h]
  rw [ordered, hx]
  dsimp only
  cases last.compare? x <;> rfl

theorem compareAll_cons (h : n.number? = some x) :
    compareAll op span test (n :: args) = ordered op span test 2 true x args := by
  rw [compareAll, expectNumber, h]

theorem ordered_of_notNumber (hbefore : ∀ n ∈ before, n.number?.isSome)
    (hfound : found.number? = none) (place : Nat) (result : Bool) (last : Number) :
    ordered op span test place result last (before ++ found :: after) =
      .error (.arguments (.notNumber op (place + before.length) found) span) := by
  induction before generalizing place result last with
  | nil => rw [List.nil_append, ordered, expectNumber, hfound]; rfl
  | cons n before ih =>
    obtain ⟨hn, hbefore⟩ := List.forall_mem_cons.mp hbefore
    obtain ⟨x, hx⟩ := Option.isSome_iff_exists.mp hn
    rw [List.cons_append, ordered_cons op span test hx, ih hbefore, List.length_cons,
      Nat.add_right_comm, Nat.add_assoc]

/-- The first argument that is no number is what a comparison fails at. -/
theorem compareAll_of_notNumber (hbefore : ∀ n ∈ before, n.number?.isSome)
    (hfound : found.number? = none) :
    compareAll op span test (before ++ found :: after) =
      .error (.arguments (.notNumber op (before.length + 1) found) span) := by
  cases before with
  | nil => rw [List.nil_append, compareAll, expectNumber, hfound]; rfl
  | cons n before =>
    obtain ⟨hn, hbefore⟩ := List.forall_mem_cons.mp hbefore
    obtain ⟨x, hx⟩ := Option.isSome_iff_exists.mp hn
    rw [List.cons_append, compareAll_cons op span test hx,
      ordered_of_notNumber op span test hbefore hfound, List.length_cons, Nat.add_comm 2]

/-- Numbers have an answer. -/
theorem exists_ordered (hargs : ∀ n ∈ args, n.number?.isSome) (place : Nat) (result : Bool)
    (last : Number) : ∃ b, ordered op span test place result last args = .ok b := by
  induction args generalizing place result last with
  | nil => exact ⟨result, rfl⟩
  | cons n args ih =>
    obtain ⟨hn, hargs⟩ := List.forall_mem_cons.mp hargs
    obtain ⟨x, hx⟩ := Option.isSome_iff_exists.mp hn
    rw [ordered_cons op span test hx]
    exact ih hargs _ _ _

theorem exists_compareAll (hargs : ∀ n ∈ args, n.number?.isSome) :
    ∃ b, compareAll op span test args = .ok b := by
  cases args with
  | nil => exact ⟨true, rfl⟩
  | cons n args =>
    obtain ⟨hn, hargs⟩ := List.forall_mem_cons.mp hargs
    obtain ⟨x, hx⟩ := Option.isSome_iff_exists.mp hn
    rw [compareAll_cons op span test hx]
    exact exists_ordered op span test hargs _ _ _

/-! ### The answer for exact numbers -/

variable {r : Int → Int → Prop} {values : List Int}
  (htest : ∀ m n : Int, test (compare m n) = true ↔ r m n)

include htest

/-- True so far stays true as long as each number is related to the next one. -/
theorem ordered_exact (hargs : ExactNumbers args values) (place : Nat) (result : Bool)
    {last : Number} {value : Int} (hlast : last.toInt? = some value) :
    ∃ b, ordered op span test place result last args = .ok b ∧
      (b = true ↔ result = true ∧ (value :: values).IsChain r) := by
  induction hargs generalizing place result last value with
  | nil => exact ⟨result, rfl, by simp⟩
  | @cons n next args values hn _ ih =>
    obtain ⟨x, hx, hnext⟩ := Option.bind_eq_some_iff.mp hn
    rw [ordered_cons op span test hx, Number.compare?_of_exact hlast hnext, Option.any_some]
    obtain ⟨b, hb, htrue⟩ := ih (place + 1) (result && test (compare value next)) hnext
    refine ⟨b, hb, htrue.trans ?_⟩
    rw [Bool.and_eq_true, htest, List.isChain_cons_cons, and_assoc]

theorem compareAll_exact (hargs : ExactNumbers args values) :
    ∃ b, compareAll op span test args = .ok b ∧ (b = true ↔ values.IsChain r) := by
  cases hargs with
  | nil => exact ⟨true, rfl, by simp⟩
  | cons hn hargs =>
    obtain ⟨x, hx, hvalue⟩ := Option.bind_eq_some_iff.mp hn
    rw [compareAll_cons op span test hx]
    obtain ⟨b, hb, htrue⟩ := ordered_exact op span test htest hargs 2 true hvalue
    exact ⟨b, hb, htrue.trans (and_iff_right rfl)⟩

end

/-! ### The five comparisons -/

variable {op : Builtin} {r : Int → Int → Prop}

theorem Compares.trans (h : op.Compares r) {a b c : Int} (hab : r a b) (hbc : r b c) : r a c := by
  cases h with
  | numEq => exact Eq.trans hab hbc
  | less => exact Int.lt_trans hab hbc
  | lessEq => exact Int.le_trans hab hbc
  | greater => exact Int.lt_trans hbc hab
  | greaterEq => exact Int.le_trans hbc hab

/-- A comparison tests the order of neighbours for its relation. -/
theorem Compares.exists_test (h : op.Compares r) :
    ∃ test : Ordering → Bool, (∀ m n : Int, test (compare m n) = true ↔ r m n) ∧
      ∀ span args, 2 ≤ args.length →
        op.run span args = truth span (compareAll op span test args) := by
  cases h with
  | numEq =>
    exact ⟨Ordering.isEq, fun m n ↦ Ordering.isEq_iff_eq_eq.trans Std.LawfulEqCmp.compare_eq_iff_eq,
      fun _ _ hlen ↦ if_pos (decide_eq_true hlen)⟩
  | less =>
    exact ⟨Ordering.isLT, fun m n ↦ Ordering.isLT_iff_eq_lt.trans Std.compare_eq_lt,
      fun _ _ hlen ↦ if_pos (decide_eq_true hlen)⟩
  | lessEq =>
    exact ⟨Ordering.isLE, fun m n ↦ Std.isLE_compare,
      fun _ _ hlen ↦ if_pos (decide_eq_true hlen)⟩
  | greater =>
    exact ⟨Ordering.isGT, fun m n ↦ Ordering.isGT_iff_eq_gt.trans Std.compare_eq_gt,
      fun _ _ hlen ↦ if_pos (decide_eq_true hlen)⟩
  | greaterEq =>
    exact ⟨Ordering.isGE, fun m n ↦ Std.isGE_compare,
      fun _ _ hlen ↦ if_pos (decide_eq_true hlen)⟩

end Builtin

/-- **A comparison is about all pairs of arguments, and every argument has to be a number.** Take a
comparison of two arguments or more. If there is an argument that is no number, it fails at the
first one of these, whatever is known by then, and says which it is. If there is none, it gives a
truth value. With exact numbers for arguments, this is true exactly when each of them is related to
all later ones. -/
theorem comparison_all_pairs {op : Builtin} {r : Int → Int → Prop} (h : op.Compares r)
    {args : List Node} (hlen : 2 ≤ args.length) (span : Span) :
    (∀ before found after, args = before ++ found :: after → (∀ n ∈ before, n.number?.isSome) →
      found.number? = none →
      op.run span args = .error (.arguments (.notNumber op (before.length + 1) found) span)) ∧
    ((∀ n ∈ args, n.number?.isSome) → ∃ b, op.run span args = .ok (.value (.boolean b span))) ∧
    (∀ values, Builtin.ExactNumbers args values →
      ∃ b, op.run span args = .ok (.value (.boolean b span)) ∧
        (b = true ↔ values.Pairwise r)) := by
  obtain ⟨test, htest, hrun⟩ := h.exists_test
  rw [hrun span args hlen]
  refine ⟨?_, fun hnumbers ↦ ?_, fun values hvalues ↦ ?_⟩
  · rintro before found after rfl hbefore hfound
    rw [Builtin.compareAll_of_notNumber op span test hbefore hfound]
    rfl
  · obtain ⟨b, hb⟩ := Builtin.exists_compareAll op span test hnumbers
    exact ⟨b, by rw [hb]; rfl⟩
  · obtain ⟨b, hb, htrue⟩ := Builtin.compareAll_exact op span test htest hvalues
    -- Neighbours are enough, as the relation is transitive.
    have htrans : Trans r r r := ⟨h.trans⟩
    exact ⟨b, by rw [hb]; rfl, htrue.trans List.isChain_iff_pairwise⟩

/-- The third argument is looked at though the first two have decided, and words are in order with
an integer that is no word. -/
theorem comparison_all_pairs_mixed :
    let exact (n : Int) : Node := .number (.ofInt n) .nowhere
    let text : Node := .string "two" .nowhere
    Builtin.less.run .nowhere [exact 1, exact 0, text] =
        .error (.arguments (.notNumber .less 3 text) .nowhere) ∧
      Builtin.less.run .nowhere [exact (-1), exact 1, exact (2 ^ 63)] =
        .ok (.value (.boolean true .nowhere)) := by
  intro exact text
  have hnumbers : ∀ n ∈ [exact 1, exact 0], n.number?.isSome := by
    rintro n (_ | ⟨_, _ | ⟨_, ⟨⟩⟩⟩)
    · rfl
    · rfl
  have hexact (n : Int) : (exact n).number?.bind Number.toInt? = some n := Number.toInt?_ofInt n
  have hvalues : Builtin.ExactNumbers [exact (-1), exact 1, exact (2 ^ 63)] [-1, 1, 2 ^ 63] :=
    .cons (hexact _) (.cons (hexact _) (.cons (hexact _) .nil))
  constructor
  · exact (comparison_all_pairs .less (by decide) .nowhere).1 [exact 1, exact 0] text [] rfl
      hnumbers rfl
  · obtain ⟨b, hb, htrue⟩ :=
      (comparison_all_pairs .less (by decide) .nowhere).2.2 [-1, 1, 2 ^ 63] hvalues
    rw [hb, htrue.mpr (by decide)]

end MiniLisp
