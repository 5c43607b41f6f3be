import MiniLisp.Number.Basic

/-!
# Arithmetic on integers

Operations on exact numbers are those of the integers, and their results are kept in the narrowest
form again (`exact_arithmetic`).

A number in the narrowest form is determined by its value (`exactly_iff`). So it is enough that
every path of an operation ends in the right value: an operation on words because its check
excludes wrapping (`toInt_checkedAdd` and the lemmas after it), and any other because it is done on
integers. Division and powers have three endings each, and which one it is depends on the values
alone (`div_of_exact`, `pow_of_exact`).
-/

namespace MiniLisp.Number

/-- The number is the integer `n`, kept in the narrowest form. -/
structure Exactly (a : Number) (n : Int) : Prop where
  value : a.toInt? = some n
  canonical : a.Canonical

theorem exactly_ofInt (n : Int) : (ofInt n).Exactly n := ⟨toInt?_ofInt n, ofInt_canonical n⟩

/-- There is only one narrowest form of an integer. -/
theorem exactly_iff {a : Number} {n : Int} : a.Exactly n ↔ a = ofInt n := by
  refine ⟨fun ⟨hvalue, hcanonical⟩ ↦ ?_, fun h ↦ h ▸ exactly_ofInt n⟩
  cases a with
  | integer x =>
    obtain rfl : x.toInt = n := Option.some.inj hvalue
    exact integer_eq_ofInt x
  | big m =>
    obtain rfl : m = n := Option.some.inj hvalue
    have hbig : ¬ Fits m := hcanonical
    rw [ofInt, if_neg hbig]
  | float x => simp [toInt?] at hvalue

/-! ### Words -/

/-- Wrapping around at `2 ^ 64` leaves an integer that fits as it is. -/
theorem bmod_of_fits {n : Int} (h : Fits n) : n.bmod 18446744073709551616 = n := by
  obtain ⟨hlow, hhigh⟩ := h
  apply Int.bmod_eq_of_le
  · omega
  · omega

theorem toInt_checkedAdd {x y z : Int64} (h : checkedAdd x y = some z) :
    z.toInt = x.toInt + y.toInt := by
  obtain ⟨hfits, ⟨⟩⟩ := Option.ite_none_right_eq_some.mp h
  rw [Int64.toInt_add, bmod_of_fits hfits]

theorem toInt_checkedSub {x y z : Int64} (h : checkedSub x y = some z) :
    z.toInt = x.toInt - y.toInt := by
  obtain ⟨hfits, ⟨⟩⟩ := Option.ite_none_right_eq_some.mp h
  rw [Int64.toInt_sub, bmod_of_fits hfits]

theorem toInt_checkedMul {x y z : Int64} (h : checkedMul x y = some z) :
    z.toInt = x.toInt * y.toInt := by
  obtain ⟨hfits, ⟨⟩⟩ := Option.ite_none_right_eq_some.mp h
  rw [Int64.toInt_mul, bmod_of_fits hfits]

/-- The only quotient that wraps around is that of the least word by minus one. -/
theorem toInt_checkedDiv {x y z : Int64} (h : checkedDiv x y = some z) :
    z.toInt = x.toInt.tdiv y.toInt := by
  obtain ⟨hguard, ⟨⟩⟩ := Option.ite_none_left_eq_some.mp h
  by_cases hx : x = Int64.minValue
  · have hy : y ≠ -1 := fun hy ↦ hguard (.inr ⟨hx, hy⟩)
    exact Int64.toInt_div_of_ne_right x y hy
  · exact Int64.toInt_div_of_ne_left x y hx

theorem toInt_checkedNeg {x z : Int64} (h : checkedNeg x = some z) : z.toInt = -x.toInt := by
  obtain ⟨hx, ⟨⟩⟩ := Option.ite_none_left_eq_some.mp h
  have hfits : Fits (-x.toInt) := by
    have hlow : -9223372036854775808 ≤ x.toInt := x.le_toInt
    have hhigh : x.toInt < 9223372036854775808 := x.toInt_lt
    have hne : x.toInt ≠ -9223372036854775808 := fun h ↦ hx (Int64.toInt_inj.mp h)
    unfold Fits
    omega
  rw [Int64.toInt_neg, bmod_of_fits hfits]

/-- An operation that was tried on words gives its exact value either way. -/
theorem ofChecked_eq {word : Option Int64} {n : Int} (h : ∀ z, word = some z → z.toInt = n) :
    ofChecked word n = ofInt n := by
  cases word with
  | none => rfl
  | some z =>
    have hz : z.toInt = n := h z rfl
    rw [← hz, ← integer_eq_ofInt]
    rfl

/-! ### The operations -/

section

variable {a b : Number} {m n : Int}

/-- An operation whose attempts on words are right is the one on integers. -/
theorem lift_of_exact {word : Int64 → Int64 → Option Int64} {exact : Int → Int → Int}
    {inexact : Float → Float → Float}
    (hword : ∀ {x y z}, word x y = some z → z.toInt = exact x.toInt y.toInt)
    (ha : a.toInt? = some m) (hb : b.toInt? = some n) :
    lift word exact inexact a b = ofInt (exact m n) := by
  rcases promote_of_exact ha hb with ⟨x, y, h, rfl, rfl⟩ | h
  · simp only [lift, h]
    exact ofChecked_eq fun z hz ↦ hword hz
  · simp only [lift, h]

theorem neg_of_exact (ha : a.toInt? = some m) : a.neg = ofInt (-m) := by
  cases a with
  | integer x =>
    obtain rfl : x.toInt = m := Option.some.inj ha
    exact ofChecked_eq fun z hz ↦ toInt_checkedNeg hz
  | big x =>
    obtain rfl : x = m := Option.some.inj ha
    rfl
  | float x => simp [toInt?] at ha

/-- Division of exact numbers has three endings: a failure by zero, the exact quotient, and a
float. -/
theorem div_of_exact (ha : a.toInt? = some m) (hb : b.toInt? = some n) :
    a.div b = if n = 0 then .error .divisionByZero
      else if n ∣ m then .ok (ofInt (m.tdiv n))
      else .ok (.float (Binary64.ofInt m / Binary64.ofInt n)) := by
  rcases promote_of_exact ha hb with ⟨x, y, h, rfl, rfl⟩ | h
  · have hzero : y = 0 ↔ y.toInt = 0 := by rw [← Int64.toInt_inj, Int64.toInt_zero]
    have hdvd : x % y = 0 ↔ y.toInt ∣ x.toInt := by
      rw [← Int64.toInt_inj, Int64.toInt_mod, Int64.toInt_zero, Int.dvd_iff_tmod_eq_zero]
    have hquotient : ofChecked (checkedDiv x y) (x.toInt.tdiv y.toInt) =
        ofInt (x.toInt.tdiv y.toInt) := ofChecked_eq fun z hz ↦ toInt_checkedDiv hz
    simp only [div, h, hzero, hdvd, hquotient]
  · simp only [div, h, Int.dvd_iff_tmod_eq_zero]

/-- A power of exact numbers has three endings: a float, a failure for too large an exponent, and
the exact power. An exponent that is no word is too large or negative. -/
theorem pow_of_exact (ha : a.toInt? = some m) (hb : b.Exactly n) :
    a.pow b = if n < 0 then .ok (.float (a.toFloat.pow b.toFloat))
      else if maxExponent < n then .error (.exponentOutOfRange n)
      else .ok (ofInt (Int.pow m n.toNat)) := by
  obtain ⟨hvalue, hcanonical⟩ := hb
  cases b with
  | integer e =>
    obtain rfl : e.toInt = n := Option.some.inj hvalue
    simp only [pow, ha]
  | big e =>
    obtain rfl : e = n := Option.some.inj hvalue
    have hbig : ¬ Fits e := hcanonical
    simp only [pow, ha]
    split
    · rfl
    · next hsign =>
      have hlarge : maxExponent < e := by
        unfold Fits at hbig
        unfold maxExponent
        omega
      rw [if_pos hlarge]
  | float e => simp [toInt?] at hvalue

/-! ### The endings of a division -/

/-- What is exact is no float. -/
theorem Exactly.ne_float (h : a.Exactly n) (x : Float) : a ≠ .float x := by
  rintro rfl
  cases h.value

/-- A number has one exact value at most. -/
theorem Exactly.unique {k : Int} (h : a.Exactly n) (h' : a.Exactly k) : n = k :=
  Option.some.inj (h.value.symm.trans h'.value)

theorem div_fails_iff (ha : a.toInt? = some m) (hb : b.toInt? = some n) :
    a.div b = .error .divisionByZero ↔ n = 0 := by
  rw [div_of_exact ha hb]
  split
  · next hzero => simp [hzero]
  · next hzero => split <;> simp [hzero]

theorem div_exactly_iff (ha : a.toInt? = some m) (hb : b.toInt? = some n) (k : Int) :
    (∃ q, a.div b = .ok q ∧ q.Exactly k) ↔ n ≠ 0 ∧ k * n = m := by
  rw [div_of_exact ha hb]
  constructor
  · rintro ⟨q, hq, hk⟩
    split at hq
    · cases hq
    · next hzero =>
      split at hq
      · next hdvd =>
        obtain rfl := Except.ok.inj hq
        obtain rfl : m.tdiv n = k := (exactly_ofInt _).unique hk
        exact ⟨hzero, Int.tdiv_mul_cancel hdvd⟩
      · exact absurd (Except.ok.inj hq).symm (hk.ne_float _)
  · rintro ⟨hzero, rfl⟩
    have hquotient : (k * n).tdiv n = k := Int.mul_tdiv_cancel k hzero
    rw [if_neg hzero, if_pos (Int.dvd_mul_left k n), hquotient]
    exact ⟨_, rfl, exactly_ofInt k⟩

theorem div_float_iff (ha : a.toInt? = some m) (hb : b.toInt? = some n) :
    (∃ x, a.div b = .ok (.float x)) ↔ n ≠ 0 ∧ ¬ n ∣ m := by
  rw [div_of_exact ha hb]
  split
  · next hzero => simp [hzero]
  · next hzero =>
    split
    · next hdvd => simp [hdvd, (exactly_ofInt (m.tdiv n)).ne_float]
    · next hdvd => simp [hzero, hdvd]

end

/-- **Exact arithmetic is integer arithmetic and stays in the narrowest form.** Division fails
exactly by zero and is exact exactly if the divisor goes in evenly; a power is exact for the
exponents from zero to the largest one, fails beyond it, and is a float below zero. -/
theorem exact_arithmetic {a b : Number} {m n : Int} (ha : a.Exactly m) (hb : b.Exactly n) :
    (a.add b).Exactly (m + n) ∧ (a.sub b).Exactly (m - n) ∧ (a.mul b).Exactly (m * n) ∧
    a.neg.Exactly (-m) ∧
    (a.div b = .error .divisionByZero ↔ n = 0) ∧
    (∀ k, (∃ q, a.div b = .ok q ∧ q.Exactly k) ↔ n ≠ 0 ∧ k * n = m) ∧
    ((∃ x, a.div b = .ok (.float x)) ↔ n ≠ 0 ∧ ¬ n ∣ m) ∧
    (0 ≤ n → n ≤ maxExponent → ∃ p, a.pow b = .ok p ∧ p.Exactly (Int.pow m n.toNat)) ∧
    (maxExponent < n → a.pow b = .error (.exponentOutOfRange n)) ∧
    (n < 0 → ∃ x, a.pow b = .ok (.float x)) ∧
    a.compare? b = some (compare m n) := by
  have hadd : (a.add b).Exactly (m + n) :=
    exactly_iff.mpr (lift_of_exact toInt_checkedAdd ha.value hb.value)
  have hsub : (a.sub b).Exactly (m - n) :=
    exactly_iff.mpr (lift_of_exact toInt_checkedSub ha.value hb.value)
  have hmul : (a.mul b).Exactly (m * n) :=
    exactly_iff.mpr (lift_of_exact toInt_checkedMul ha.value hb.value)
  have hneg : a.neg.Exactly (-m) := exactly_iff.mpr (neg_of_exact ha.value)
  refine ⟨hadd, hsub, hmul, hneg, div_fails_iff ha.value hb.value,
    div_exactly_iff ha.value hb.value, div_float_iff ha.value hb.value, ?_, ?_, ?_,
    compare?_of_exact ha.value hb.value⟩
  · intro hsign hle
    rw [pow_of_exact ha.value hb, if_neg (by omega), if_neg (by omega)]
    exact ⟨_, rfl, exactly_ofInt _⟩
  · intro hlt
    have hsign : ¬ n < 0 := by
      unfold maxExponent at hlt
      omega
    rw [pow_of_exact ha.value hb, if_neg hsign, if_pos hlt]
  · intro hsign
    rw [pow_of_exact ha.value hb, if_pos hsign]
    exact ⟨_, rfl⟩

/-- The quotient of the least word by minus one is the least integer that is no word. -/
theorem exact_arithmetic_least :
    let a : Number := .integer Int64.minValue
    let b : Number := .integer (-1)
    a.Exactly (-9223372036854775808) ∧ b.Exactly (-1) ∧
      (a.mul b).Exactly 9223372036854775808 ∧ a.neg.Exactly 9223372036854775808 ∧
      ∃ q, a.div b = .ok q ∧ q.Exactly 9223372036854775808 := by
  intro a b
  have ha : a.Exactly (-9223372036854775808) := ⟨rfl, trivial⟩
  have hb : b.Exactly (-1) := ⟨rfl, trivial⟩
  obtain ⟨-, -, hmul, hneg, -, hdiv, -⟩ := exact_arithmetic ha hb
  exact ⟨ha, hb, hmul, hneg, (hdiv 9223372036854775808).mpr (by decide)⟩

end MiniLisp.Number
