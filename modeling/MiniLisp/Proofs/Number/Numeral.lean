import MiniLisp.Proofs.Number.Decimal

/-!
# Numerals by their parts

A numeral is a sign that may be left out, a row of digits, and then perhaps a point with digits and
perhaps an exponent. Here a numeral is such parts (`Numeral`), and its text is made from them.

The lexer tells numerals by taking a text apart, and it accepts exactly the texts of numerals
(`isNumeral_iff`). The number literals of the reader are a wider class, which is read by other rules
for integers than for floats. Of the texts of numerals all are number literals
(`ofLiteral?_text`): without a point and an exponent they stand for the integer that their digits
and their sign say, and otherwise for a float.
-/

namespace MiniLisp

namespace Numeral

/-! ### The parts -/

/-- A sign, which may be left out. -/
inductive Sign where
  | absent | plus | minus
deriving DecidableEq

def Sign.text : Sign → List Char
  | absent => []
  | plus => ['+']
  | minus => ['-']

/-- The sign makes a number negative. -/
def Sign.isNegative (s : Sign) : Bool := s == minus

/-- A row of digits, one at least. -/
structure Digits where
  chars : List Char
  ne_nil : chars ≠ []
  isDigit : ∀ c ∈ chars, c.isDigit = true

/-- The natural number with these digits in base ten. -/
def Digits.value (ds : Digits) : Nat := Number.digitsValue ds.chars

/-- An exponent, marked by a letter of either case. -/
structure Exponent where
  isCapital : Bool
  sign : Sign
  digits : Digits

def Exponent.text (e : Exponent) : List Char :=
  (if e.isCapital then 'E' else 'e') :: (e.sign.text ++ e.digits.chars)

def Exponent.value (e : Exponent) : Int := Number.signed e.sign.isNegative e.digits.value

/-- The text of a fraction, which may be left out: a point and digits. -/
def fractionText : Option Digits → List Char
  | none => []
  | some ds => '.' :: ds.chars

/-- The digits of a fraction. -/
def fractionDigits : Option Digits → List Char
  | none => []
  | some ds => ds.chars

/-- The text of an exponent, which may be left out. -/
def exponentText : Option Exponent → List Char
  | none => []
  | some e => e.text

/-- The value of an exponent, which is zero if it is left out. -/
def exponentValue : Option Exponent → Int
  | none => 0
  | some e => e.value

end Numeral

/-- A numeral, taken apart. -/
structure Numeral where
  sign : Numeral.Sign
  whole : Numeral.Digits
  fraction : Option Numeral.Digits
  exponent : Option Numeral.Exponent

namespace Numeral

/-- The text behind the whole digits. -/
def tail (n : Numeral) : List Char := fractionText n.fraction ++ exponentText n.exponent

def text (n : Numeral) : List Char := n.sign.text ++ (n.whole.chars ++ n.tail)

/-- The numeral has neither a point nor an exponent. -/
def IsInteger (n : Numeral) : Prop := n.fraction = none ∧ n.exponent = none

instance (n : Numeral) : Decidable n.IsInteger :=
  decidable_of_iff (n.fraction.isNone = true ∧ n.exponent.isNone = true) <| by
    rw [Option.isNone_iff_eq_none, Option.isNone_iff_eq_none]
    rfl

/-- The value of a numeral without a point and an exponent. -/
def value (n : Numeral) : Int := Number.signed n.sign.isNegative n.whole.value

/-- The number that a numeral stands for. -/
def number (n : Numeral) : Number :=
  if n.IsInteger then .ofInt n.value
  else .float <| Binary64.ofDecimal n.sign.isNegative
    (Number.digitsValue (n.whole.chars ++ fractionDigits n.fraction))
    (exponentValue n.exponent - (fractionDigits n.fraction).length)

/-! ### Signs and digits -/

/-- The text ends or goes on with another character than a digit. -/
def EndsDigits (rest : List Char) : Prop := ∀ c ∈ rest.head?, c.isDigit = false

namespace Digits

variable (ds : Digits) {rest : List Char}

theorem exists_cons : ∃ c cs, ds.chars = c :: cs ∧ c.isDigit = true := by
  obtain ⟨c, cs, hcs⟩ := List.exists_cons_of_ne_nil ds.ne_nil
  exact ⟨c, cs, hcs, ds.isDigit c (hcs ▸ List.mem_cons_self)⟩

theorem takeWhile_append (hrest : EndsDigits rest) :
    (ds.chars ++ rest).takeWhile Char.isDigit = ds.chars := by
  rw [List.takeWhile_append_of_pos ds.isDigit]
  rcases rest with - | ⟨c, rest⟩
  · exact List.append_nil _
  · rw [List.takeWhile_cons_of_neg (by rw [hrest c rfl]; exact Bool.false_ne_true), List.append_nil]

theorem dropWhile_append (hrest : EndsDigits rest) :
    (ds.chars ++ rest).dropWhile Char.isDigit = rest := by
  rw [List.dropWhile_append_of_pos ds.isDigit]
  rcases rest with - | ⟨c, rest⟩
  · rfl
  · rw [List.dropWhile_cons_of_neg (by rw [hrest c rfl]; exact Bool.false_ne_true)]

/-- The digits that a text begins with, if there are any. -/
def ofFront (cs : List Char) (h : (cs.takeWhile Char.isDigit).isEmpty = false) : Digits where
  chars := cs.takeWhile Char.isDigit
  ne_nil := by simpa using h
  isDigit := List.all_eq_true.mp List.all_takeWhile

end Digits

/-- A sign is split off from digits. -/
theorem splitSign_text (s : Sign) (ds : Digits) (rest : List Char) :
    Number.splitSign (s.text ++ (ds.chars ++ rest)) = (s.isNegative, ds.chars ++ rest) := by
  cases s with
  | plus => rfl
  | minus => rfl
  | absent =>
    obtain ⟨c, cs, hcs, hc⟩ := ds.exists_cons
    rw [hcs]
    show Number.splitSign (c :: (cs ++ rest)) = _
    unfold Number.splitSign
    split
    · next h => exact absurd (List.cons.inj h).1 (Number.ne_of_isDigit hc rfl)
    · next h => exact absurd (List.cons.inj h).1 (Number.ne_of_isDigit hc rfl)
    · rfl

/-- What is split off from a text is a sign. -/
theorem exists_sign (cs : List Char) : ∃ s : Sign, cs = s.text ++ (Number.splitSign cs).2 := by
  unfold Number.splitSign
  split
  · exact ⟨.minus, rfl⟩
  · exact ⟨.plus, rfl⟩
  · exact ⟨.absent, rfl⟩

/-! ### Exponents -/

theorem exponentPart?_text (e : Option Exponent) :
    Number.exponentPart? (exponentText e) = some (exponentValue e) := by
  cases e with
  | none => rfl
  | some e =>
    obtain ⟨isCapital, sign, digits⟩ := e
    have hmark : ((if isCapital then 'E' else 'e') == 'e' ||
        (if isCapital then 'E' else 'e') == 'E') = true := by
      cases isCapital <;> rfl
    have hsplit := splitSign_text sign digits []
    rw [List.append_nil] at hsplit
    have hdigits : (!digits.chars.isEmpty && digits.chars.all Char.isDigit) = true := by
      simpa using ⟨digits.ne_nil, digits.isDigit⟩
    simp only [exponentText, Exponent.text, Number.exponentPart?, hmark, hsplit, hdigits, if_true]
    rfl

theorem exists_exponent {cs : List Char} (h : (Number.exponentPart? cs).isSome = true) :
    ∃ e, exponentText e = cs := by
  rcases cs with - | ⟨mark, rest⟩
  · exact ⟨none, rfl⟩
  · rw [Number.exponentPart?] at h
    by_cases hmark : (mark == 'e' || mark == 'E') = true
    · obtain ⟨sign, hsign⟩ := exists_sign rest
      rw [if_pos hmark] at h
      dsimp only at h
      generalize (Number.splitSign rest).2 = chars at h hsign
      by_cases hdigits : (!chars.isEmpty && chars.all Char.isDigit) = true
      · obtain ⟨hne, hall⟩ := Bool.and_eq_true_iff.mp hdigits
        let digits : Digits := ⟨chars, by simpa using hne, List.all_eq_true.mp hall⟩
        have hletter : (if (mark == 'E') = true then 'E' else 'e') = mark := by
          simp only [Bool.or_eq_true, beq_iff_eq] at hmark
          rcases hmark with rfl | rfl <;> rfl
        exact ⟨some ⟨mark == 'E', sign, digits⟩, by rw [exponentText, Exponent.text, hletter, hsign]⟩
      · rw [if_neg hdigits] at h
        cases h
    · rw [if_neg hmark] at h
      cases h

theorem endsDigits_exponentText (e : Option Exponent) : EndsDigits (exponentText e) := by
  cases e with
  | none => exact nofun
  | some e =>
    rintro c ⟨⟩
    cases e.isCapital <;> rfl

theorem exponentText_ne_point (e : Option Exponent) (rest : List Char) :
    exponentText e ≠ '.' :: rest := by
  intro h
  cases e with
  | none => cases h
  | some e =>
    have hmark : (if e.isCapital then 'E' else 'e') = '.' := (List.cons.inj h).1
    cases hcapital : e.isCapital <;> rw [hcapital] at hmark <;> cases hmark

theorem endsDigits_tail (n : Numeral) : EndsDigits n.tail := by
  unfold tail
  cases n.fraction with
  | none => exact endsDigits_exponentText n.exponent
  | some ds =>
    rintro c ⟨⟩
    rfl

/-! ### The texts of numerals -/

theorem isNumeral_text (n : Numeral) : Lexer.isNumeral n.text = true := by
  have hwhole : n.whole.chars.isEmpty = false := by simpa using n.whole.ne_nil
  have hexponent : (Number.exponentPart? (exponentText n.exponent)).isSome = true := by
    rw [exponentPart?_text, Option.isSome_some]
  rw [Lexer.isNumeral, text, splitSign_text]
  dsimp only
  rw [n.whole.takeWhile_append n.endsDigits_tail, n.whole.dropWhile_append n.endsDigits_tail, hwhole,
    Bool.not_false, Bool.true_and, tail]
  cases n.fraction with
  | some ds =>
    have hfraction : ds.chars.isEmpty = false := by simpa using ds.ne_nil
    show (!((ds.chars ++ exponentText n.exponent).takeWhile Char.isDigit).isEmpty &&
      (Number.exponentPart? ((ds.chars ++ exponentText n.exponent).dropWhile
        Char.isDigit)).isSome) = true
    rw [ds.takeWhile_append (endsDigits_exponentText _),
      ds.dropWhile_append (endsDigits_exponentText _), hfraction, hexponent]
    rfl
  | none =>
    rw [fractionText, List.nil_append]
    split
    · next rest h => exact absurd h (exponentText_ne_point n.exponent rest)
    · exact hexponent

theorem exists_numeral {cs : List Char} (h : Lexer.isNumeral cs = true) :
    ∃ n : Numeral, n.text = cs := by
  obtain ⟨sign, hsign⟩ := exists_sign cs
  unfold Lexer.isNumeral at h
  dsimp only at h
  generalize (Number.splitSign cs).2 = body at h hsign
  obtain ⟨hwhole, hrest⟩ := Bool.and_eq_true_iff.mp h
  let whole := Digits.ofFront body (by simpa using hwhole)
  have hbody : body = whole.chars ++ body.dropWhile Char.isDigit :=
    List.takeWhile_append_dropWhile.symm
  split at hrest
  · next rest hpoint =>
    obtain ⟨hfraction, hexponent⟩ := Bool.and_eq_true_iff.mp hrest
    let fraction := Digits.ofFront rest (by simpa using hfraction)
    obtain ⟨exponent, htail⟩ := exists_exponent hexponent
    have hcut : rest = fraction.chars ++ exponentText exponent := by
      rw [htail]
      exact List.takeWhile_append_dropWhile.symm
    refine ⟨⟨sign, whole, some fraction, exponent⟩, ?_⟩
    rw [hsign, hbody, hpoint, hcut]
    rfl
  · obtain ⟨exponent, htail⟩ := exists_exponent hrest
    refine ⟨⟨sign, whole, none, exponent⟩, ?_⟩
    rw [hsign, hbody, ← htail]
    rfl

/-! ### The number of a numeral -/

/-- The marks of a float are in the point and in the exponent. -/
theorem any_isFloatMark_text (n : Numeral) :
    n.text.any Number.isFloatMark = !decide n.IsInteger := by
  have hdigits (ds : Digits) : ds.chars.any Number.isFloatMark = false := by
    rw [List.any_eq_false]
    intro c hc
    simp [Number.isFloatMark, Number.ne_of_isDigit (ds.isDigit c hc)]
  have hsign : n.sign.text.any Number.isFloatMark = false := by
    cases n.sign <;> rfl
  rw [text, tail, List.any_append, List.any_append, List.any_append, hsign, hdigits,
    Bool.false_or, Bool.false_or]
  obtain ⟨sign, whole, _ | fraction, _ | exponent⟩ := n
  · rfl
  · cases hcapital : exponent.isCapital <;>
      simp [fractionText, exponentText, Exponent.text, IsInteger, Number.isFloatMark, hcapital]
  · simp [fractionText, exponentText, IsInteger, Number.isFloatMark]
  · simp [fractionText, IsInteger, Number.isFloatMark]

/-- A numeral that has no point and no exponent mark is a sign and digits. -/
theorem isInteger_iff (n : Numeral) :
    n.IsInteger ↔ ∀ c ∈ n.text, c ≠ '.' ∧ c ≠ 'e' ∧ c ≠ 'E' := by
  have hmarks : n.IsInteger ↔ n.text.any Number.isFloatMark = false := by
    rw [any_isFloatMark_text, Bool.not_eq_false', decide_eq_true_iff]
  rw [hmarks, List.any_eq_false]
  simp only [Number.isFloatMark, Bool.or_eq_true, beq_iff_eq, not_or, and_assoc, ne_eq]

theorem IsInteger.text_eq {n : Numeral} (h : n.IsInteger) :
    n.text = n.sign.text ++ n.whole.chars := by
  rw [text, tail, h.1, h.2]
  exact congrArg (n.sign.text ++ ·) (List.append_nil _)

/-- A sign and digits are read as an integer. -/
theorem integerLiteral?_text (s : Sign) (ds : Digits) :
    Number.integerLiteral? (s.text ++ ds.chars) =
      some (Number.signed s.isNegative ds.value) := by
  have hliteral (negative : Bool) :=
    Number.integerLiteral?_signText ds.ne_nil ds.isDigit negative
  cases s with
  | absent => exact hliteral false
  | minus => exact hliteral true
  | plus =>
    -- Plus signs are dropped, and no digit is one.
    have hplus : Number.integerLiteral? ('+' :: ds.chars) = Number.integerLiteral? ds.chars := by
      unfold Number.integerLiteral?
      rw [List.dropWhile_cons_of_pos (by decide)]
    exact hplus.trans (hliteral false)

/-- Any numeral can be read as a float. -/
theorem floatLiteral?_text (n : Numeral) : Number.floatLiteral? n.text =
    some (Binary64.ofDecimal n.sign.isNegative
      (Number.digitsValue (n.whole.chars ++ fractionDigits n.fraction))
      (exponentValue n.exponent - (fractionDigits n.fraction).length)) := by
  have hwhole : n.whole.chars.isEmpty = false := by simpa using n.whole.ne_nil
  have hfraction : Number.fractionPart n.tail =
      (fractionDigits n.fraction, exponentText n.exponent) := by
    rw [tail]
    cases n.fraction with
    | some ds =>
      show ((ds.chars ++ _).takeWhile Char.isDigit, (ds.chars ++ _).dropWhile Char.isDigit) = _
      rw [ds.takeWhile_append (endsDigits_exponentText _),
        ds.dropWhile_append (endsDigits_exponentText _)]
      rfl
    | none =>
      rw [fractionText, List.nil_append]
      unfold Number.fractionPart
      split
      · next rest h => exact absurd h (exponentText_ne_point n.exponent rest)
      · rfl
  rw [Number.floatLiteral?, text, splitSign_text]
  dsimp only
  rw [n.whole.takeWhile_append n.endsDigits_tail, n.whole.dropWhile_append n.endsDigits_tail,
    hfraction]
  dsimp only
  rw [hwhole, Bool.false_and, if_neg Bool.false_ne_true, exponentPart?_text]
  rfl

/-- **Every numeral is a number literal**, and the literal of its number. -/
theorem ofLiteral?_text (n : Numeral) :
    Number.ofLiteral? (String.ofList n.text) = some n.number := by
  unfold Number.ofLiteral?
  dsimp only
  rw [String.toList_ofList, any_isFloatMark_text, number]
  by_cases hinteger : n.IsInteger
  · rw [if_pos hinteger, hinteger.text_eq, integerLiteral?_text]
    simp [hinteger, value]
  · rw [if_neg hinteger, floatLiteral?_text]
    simp [hinteger]

end Numeral

/-- **The lexer accepts exactly the texts of numerals.** -/
theorem Lexer.isNumeral_iff {cs : List Char} :
    Lexer.isNumeral cs = true ↔ ∃ n : Numeral, n.text = cs :=
  ⟨Numeral.exists_numeral, fun ⟨n, h⟩ ↦ h ▸ n.isNumeral_text⟩

end MiniLisp
