import MiniLisp.Number.Literal

/-!
# Results in the narrowest form

Whatever numbers an operation is given, and in whatever form, the number it makes is in the
narrowest form: a word, a float, or an integer of any size that was made from its value. So it is
with the number of a literal.
-/

namespace MiniLisp.Number

theorem ofChecked_canonical (word : Option Int64) (exact : Int) :
    (ofChecked word exact).Canonical := by
  cases word with
  | some n => trivial
  | none => exact ofInt_canonical exact

theorem lift_canonical (word : Int64 → Int64 → Option Int64) (exact : Int → Int → Int)
    (inexact : Float → Float → Float) (a b : Number) :
    (lift word exact inexact a b).Canonical := by
  unfold lift
  split
  · exact ofChecked_canonical _ _
  · exact ofInt_canonical _
  · trivial

theorem add_canonical (a b : Number) : (a.add b).Canonical := lift_canonical _ _ _ a b

theorem sub_canonical (a b : Number) : (a.sub b).Canonical := lift_canonical _ _ _ a b

theorem mul_canonical (a b : Number) : (a.mul b).Canonical := lift_canonical _ _ _ a b

theorem neg_canonical (a : Number) : a.neg.Canonical := by
  cases a with
  | integer n => exact ofChecked_canonical _ _
  | big n => exact ofInt_canonical _
  | float x => trivial

theorem div_canonical {a b c : Number} (h : a.div b = .ok c) : c.Canonical := by
  unfold div at h
  split at h
  · split at h
    · cases h
    · split at h
      · cases h; exact ofChecked_canonical _ _
      · cases h; trivial
  · split at h
    · cases h
    · split at h
      · cases h; exact ofInt_canonical _
      · cases h; trivial
  · cases h; trivial

theorem pow_canonical {a b c : Number} (h : a.pow b = .ok c) : c.Canonical := by
  unfold pow at h
  dsimp only at h
  split at h
  · split at h
    · cases h; trivial
    · split at h
      · cases h
      · cases h; exact ofInt_canonical _
  · split at h
    · cases h; trivial
    · cases h
  · cases h; trivial

/-- The number of a literal is in the narrowest form. -/
theorem ofLiteral?_canonical {text : String} {n : Number} (h : ofLiteral? text = some n) :
    n.Canonical := by
  unfold ofLiteral? at h
  dsimp only at h
  split at h
  · obtain ⟨x, -, rfl⟩ := Option.map_eq_some_iff.mp h
    trivial
  · obtain ⟨value, -, rfl⟩ := Option.map_eq_some_iff.mp h
    exact ofInt_canonical value

end MiniLisp.Number
