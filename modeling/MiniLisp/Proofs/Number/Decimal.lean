import MiniLisp.Number.Literal
import MiniLisp.Number.Text
import MiniLisp.Token.Lexer
import Mathlib.Data.List.TakeWhile

/-!
# Integers in decimal

The text of an integer is a sign, if it is negative, and its decimal digits. Such a text is an atom
of the kind of a number (`atomKind_toString`), and the number that it stands for is the integer
again (`ofLiteral?_toString`).
-/

namespace MiniLisp

namespace Number

/-- The text of an integer, taken apart. -/
theorem exists_toList_toString (i : Int) : ∃ negative n,
    (toString i).toList = (signText negative).toList ++ Nat.toDigits 10 n ∧
      signed negative n = i := by
  cases i with
  | ofNat n =>
    refine ⟨false, n, ?_, rfl⟩
    show n.repr.toList = [] ++ _
    rw [Nat.toList_repr, List.nil_append]
  | negSucc n =>
    refine ⟨true, n + 1, ?_, rfl⟩
    show ("-" ++ (n + 1).repr).toList = _
    rw [String.toList_append, Nat.toList_repr]
    rfl

/-! ### Rows of digits -/

theorem digitsValue_eq_ofDigitChars (cs : List Char) :
    digitsValue cs = Nat.ofDigitChars 10 cs 0 := rfl

@[simp] theorem digitsValue_toDigits (n : Nat) : digitsValue (Nat.toDigits 10 n) = n := by
  rw [digitsValue_eq_ofDigitChars, Nat.ofDigitChars_ten_toDigits]

theorem isDigit_of_mem_toDigits {n : Nat} {c : Char} (h : c ∈ Nat.toDigits 10 n) :
    c.isDigit = true :=
  Nat.isDigit_of_mem_toDigits (by decide) (by decide) h

theorem ne_of_isDigit {c d : Char} (h : c.isDigit = true) (hd : d.isDigit = false) : c ≠ d := by
  rintro rfl
  rw [h] at hd
  cases hd

section

variable {digits : List Char} (hne : digits ≠ []) (hall : ∀ c ∈ digits, c.isDigit = true)

include hne hall

/-- A digit is no sign, so the sign in front of digits is the only one. -/
theorem splitSign_signText (negative : Bool) :
    splitSign ((signText negative).toList ++ digits) = (negative, digits) := by
  cases negative with
  | true => rfl
  | false =>
    obtain ⟨c, cs, rfl⟩ := List.exists_cons_of_ne_nil hne
    have hc : c.isDigit = true := hall c List.mem_cons_self
    show splitSign (c :: cs) = _
    unfold splitSign
    split
    · next h => exact absurd (List.cons.inj h).1 (ne_of_isDigit hc rfl)
    · next h => exact absurd (List.cons.inj h).1 (ne_of_isDigit hc rfl)
    · rfl

theorem isNumeral_signText (negative : Bool) :
    Lexer.isNumeral ((signText negative).toList ++ digits) = true := by
  have htake : digits.takeWhile Char.isDigit = digits := List.takeWhile_eq_self_iff.mpr hall
  have hdrop : digits.dropWhile Char.isDigit = [] := List.dropWhile_eq_nil_iff.mpr hall
  simp [Lexer.isNumeral, splitSign_signText hne hall, htake, hdrop, hne, exponentPart?]

theorem unsignedDigits?_digits : unsignedDigits? digits = some digits := by
  have hplain : ∀ c ∈ digits, (c != '_') = true := by
    intro c hc
    exact bne_iff_ne.mpr (ne_of_isDigit (hall c hc) rfl)
  have hfilter : digits.filter (· != '_') = digits := List.filter_eq_self.mpr hplain
  obtain ⟨c, cs, rfl⟩ := List.exists_cons_of_ne_nil hne
  have hhead : (c == '_') = false := by
    rw [beq_eq_false_iff_ne]
    exact ne_of_isDigit (hall c List.mem_cons_self) rfl
  have hdigits : (c :: cs).all Char.isDigit = true := List.all_eq_true.mpr hall
  simp only [unsignedDigits?, hfilter, hdigits, List.head?_cons, Option.all_some, hhead]
  rfl

theorem integerLiteral?_signText (negative : Bool) :
    integerLiteral? ((signText negative).toList ++ digits) =
      some (signed negative (digitsValue digits)) := by
  cases negative with
  | true =>
    show (unsignedDigits? digits).map _ = _
    rw [unsignedDigits?_digits hne hall]
    rfl
  | false =>
    have hdigits : unsignedDigits? digits = some digits := unsignedDigits?_digits hne hall
    obtain ⟨c, cs, rfl⟩ := List.exists_cons_of_ne_nil hne
    have hc : c.isDigit = true := hall c List.mem_cons_self
    have hplus : (c :: cs).dropWhile (· == '+') = c :: cs :=
      List.dropWhile_cons_of_neg (by simpa using ne_of_isDigit hc rfl)
    show integerLiteral? (c :: cs) = _
    unfold integerLiteral?
    rw [hplus]
    split
    · next h => exact absurd (List.cons.inj h).1 (ne_of_isDigit hc rfl)
    · rw [hdigits]
      rfl

end

/-! ### Reading the text of an integer -/

/-- An integer is read back from its text. -/
theorem ofLiteral?_toString (i : Int) : ofLiteral? (toString i) = some (ofInt i) := by
  obtain ⟨negative, n, htext, rfl⟩ := exists_toList_toString i
  have hall : ∀ c ∈ Nat.toDigits 10 n, c.isDigit = true := fun _ h ↦ isDigit_of_mem_toDigits h
  have hmark : ((signText negative).toList ++ Nat.toDigits 10 n).any isFloatMark = false := by
    rw [List.any_append, Bool.or_eq_false_iff]
    constructor
    · cases negative <;> rfl
    · rw [List.any_eq_false]
      intro c hc
      have hc : c.isDigit = true := hall c hc
      simp [isFloatMark, ne_of_isDigit hc]
  unfold ofLiteral?
  dsimp only
  rw [htext, hmark, integerLiteral?_signText Nat.toDigits_ne_nil hall, digitsValue_toDigits]
  rfl

end Number

namespace Lexer

open Number

theorem isAtomStart_of_isDigit {c : Char} (h : c.isDigit = true) : isAtomStart c = true := by
  simp [isAtomStart, isAtomChar, isPlainSymbolChar, Char.isAlphanum, h, ne_of_isDigit h]

theorem isAtomChar_of_isAtomStart {c : Char} (h : isAtomStart c = true) : isAtomChar c = true :=
  (Bool.and_eq_true_iff.mp h).1

/-- A numeral is no dot and no boolean. -/
theorem atomKind_of_isNumeral {cs : List Char} (h : isNumeral cs = true) :
    atomKind cs = .number := by
  have hne (ds : List Char) (hds : isNumeral ds = false) : cs ≠ ds := by
    rintro rfl
    rw [h] at hds
    cases hds
  rw [atomKind, if_neg (hne ['.'] rfl), if_neg, if_pos h]
  exact not_or.mpr ⟨hne ['#', 't'] rfl, hne ['#', 'f'] rfl⟩

/-- The text of an integer is an atom, of the kind of a number. -/
theorem atomKind_toString (i : Int) : ∃ c cs, (toString i).toList = c :: cs ∧
    isAtomStart c = true ∧ (∀ d ∈ cs, isAtomChar d = true) ∧ atomKind (c :: cs) = .number := by
  obtain ⟨negative, n, htext, -⟩ := exists_toList_toString i
  have hall : ∀ c ∈ Nat.toDigits 10 n, c.isDigit = true := fun _ h ↦ isDigit_of_mem_toDigits h
  have hne : Nat.toDigits 10 n ≠ [] := Nat.toDigits_ne_nil
  have hkind : atomKind ((signText negative).toList ++ Nat.toDigits 10 n) = .number :=
    atomKind_of_isNumeral (isNumeral_signText hne hall negative)
  have hstart : ∀ c ∈ Nat.toDigits 10 n, isAtomStart c = true :=
    fun c h ↦ isAtomStart_of_isDigit (hall c h)
  rw [htext]
  cases negative with
  | true =>
    refine ⟨'-', Nat.toDigits 10 n, rfl, by decide, ?_, hkind⟩
    exact fun d hd ↦ isAtomChar_of_isAtomStart (hstart d hd)
  | false =>
    obtain ⟨c, cs, hdigits⟩ := List.exists_cons_of_ne_nil hne
    rw [hdigits] at hstart hkind ⊢
    refine ⟨c, cs, rfl, hstart c List.mem_cons_self, fun d hd ↦ ?_, hkind⟩
    exact isAtomChar_of_isAtomStart (hstart d (List.mem_cons_of_mem c hd))

end Lexer

end MiniLisp
