import MiniLisp.Number.Binary64

/-!
# Numbers

Integers of any size and 64-bit floats. An integer that fits into 64 bits is kept as a machine word
and any other as a `big`, and every operation keeps to that: a `big` is only made by
`Number.ofInt`, so it never holds a value that would fit (`ofInt_canonical`).

An operation on two integers is exact. Two words are first tried as words, and only a result that is
no word is computed again from integers of any size. As soon as one side is a float both are taken
as floats.
-/

namespace MiniLisp

/-- A number. -/
inductive Number where
  /-- An integer of 64 bits. -/
  | integer (value : Int64)
  /-- An integer that does not fit into 64 bits. -/
  | big (value : Int)
  | float (value : Float)
deriving Inhabited

/-- What can go wrong in arithmetic. -/
inductive NumberError where
  | divisionByZero
  /-- An exact power was asked for whose exponent has more than 32 bits. -/
  | exponentOutOfRange (exponent : Int)
deriving DecidableEq

/-- The message of an arithmetic error. -/
def NumberError.message : NumberError → String
  | divisionByZero => "Division by zero"
  | exponentOutOfRange exponent => "Exponent " ++ toString exponent ++ " is out of range"

namespace Number

/-- The integer fits into 64 bits: it is at least `-2 ^ 63` and less than `2 ^ 63`. -/
def Fits (n : Int) : Prop := -9223372036854775808 ≤ n ∧ n < 9223372036854775808

instance (n : Int) : Decidable (Fits n) := inferInstanceAs (Decidable (_ ∧ _))

/-- The exact number with a given value. -/
def ofInt (n : Int) : Number :=
  if Fits n then .integer (Int64.ofInt n) else .big n

/-- The value of an exact number. -/
def toInt? : Number → Option Int
  | integer n => some n.toInt
  | big n => some n
  | float _ => none

/-- The number is an integer and not a float. -/
def isExact (a : Number) : Bool := a.toInt?.isSome

/-- The number is kept in the narrowest form that holds it. -/
def Canonical : Number → Prop
  | big n => ¬ Fits n
  | _ => True

/-- Making an exact number keeps its value. -/
@[simp] theorem toInt?_ofInt (n : Int) : (ofInt n).toInt? = some n := by
  rw [ofInt]
  split
  · next h => exact congrArg some (Int64.toInt_ofInt_of_le h.1 h.2)
  · rfl

/-- An exact number that was made from its value is in the narrowest form. -/
theorem ofInt_canonical (n : Int) : (ofInt n).Canonical := by
  rw [ofInt]
  split
  · trivial
  · assumption

/-- The number as a float, the nearest one for an integer. -/
def toFloat : Number → Float
  | integer n => Binary64.ofInt n.toInt
  | big n => Binary64.ofInt n
  | float x => x

/-- The number as a float number. -/
def inexact (a : Number) : Number := .float a.toFloat

/-! ### Two numbers brought together -/

/-- Two numbers in a common form: as words if both are words, else as integers of any size if both
are exact, and else as floats. -/
inductive Promoted where
  | small (a b : Int64)
  | large (a b : Int)
  | inexact (a b : Float)

/-- Brings two numbers into a common form. -/
def promote : Number → Number → Promoted
  | integer a, integer b => .small a b
  | a, b => match a.toInt?, b.toInt? with
    | some m, some n => .large m n
    | _, _ => .inexact a.toFloat b.toFloat

/-! ### Operations on words

The operations of the machine wrap around. Each comes with a check that says when it did not. -/

/-- The sum of two words, if it is a word. -/
def checkedAdd (a b : Int64) : Option Int64 :=
  if Fits (a.toInt + b.toInt) then some (a + b) else none

/-- The difference of two words, if it is a word. -/
def checkedSub (a b : Int64) : Option Int64 :=
  if Fits (a.toInt - b.toInt) then some (a - b) else none

/-- The product of two words, if it is a word. -/
def checkedMul (a b : Int64) : Option Int64 :=
  if Fits (a.toInt * b.toInt) then some (a * b) else none

/-- The quotient of two words without its fraction. There is none by zero, and that of the least
word by minus one is no word. -/
def checkedDiv (a b : Int64) : Option Int64 :=
  if b = 0 ∨ (a = Int64.minValue ∧ b = -1) then none else some (a / b)

/-- The negation of a word, which for the least word is no word. -/
def checkedNeg (a : Int64) : Option Int64 :=
  if a = Int64.minValue then none else some (-a)

/-- The number for the result of an operation on words, or for its exact value if the result is no
word. -/
def ofChecked (word : Option Int64) (exact : Int) : Number :=
  match word with
  | some n => .integer n
  | none => ofInt exact

/-! ### The operations -/

/-- Applies an operation in the common form of two numbers. On words it is tried there first. -/
def lift (word : Int64 → Int64 → Option Int64) (exact : Int → Int → Int)
    (inexact : Float → Float → Float) (a b : Number) : Number :=
  match a.promote b with
  | .small a b => ofChecked (word a b) (exact a.toInt b.toInt)
  | .large a b => ofInt (exact a b)
  | .inexact a b => .float (inexact a b)

/-- The sum. -/
def add : Number → Number → Number := lift checkedAdd (· + ·) (· + ·)

/-- The difference. -/
def sub : Number → Number → Number := lift checkedSub (· - ·) (· - ·)

/-- The product. -/
def mul : Number → Number → Number := lift checkedMul (· * ·) (· * ·)

/-- The number with its sign changed. -/
def neg : Number → Number
  | integer n => ofChecked (checkedNeg n) (-n.toInt)
  | big n => ofInt (-n)
  | float x => .float (-x)

/-- The quotient. Of two integers it is exact if the second divides the first, and a float
otherwise; only an exact division by an exact zero fails. -/
def div (a b : Number) : Except NumberError Number :=
  match a.promote b with
  | .small a b =>
    if b = 0 then .error .divisionByZero
    else if a % b = 0 then .ok (ofChecked (checkedDiv a b) (a.toInt.tdiv b.toInt))
    else .ok (.float (Binary64.ofInt a.toInt / Binary64.ofInt b.toInt))
  | .large a b =>
    if b = 0 then .error .divisionByZero
    else if a.tmod b = 0 then .ok (ofInt (a.tdiv b))
    else .ok (.float (Binary64.ofInt a / Binary64.ofInt b))
  | .inexact a b => .ok (.float (a / b))

/-- The largest exponent of an exact power, which is `2 ^ 32 - 1`. -/
def maxExponent : Int := 4294967295

/-- The power. It is exact for an integer with an exponent that is a non-negative integer. -/
def pow (a b : Number) : Except NumberError Number :=
  let inexact : Except NumberError Number := .ok (.float (a.toFloat.pow b.toFloat))
  match a.toInt?, b with
  | some base, integer e =>
    if e.toInt < 0 then inexact
    else if maxExponent < e.toInt then .error (.exponentOutOfRange e.toInt)
    else .ok (ofInt (Int.pow base e.toInt.toNat))
  | some _, big e => if e < 0 then inexact else .error (.exponentOutOfRange e)
  | _, _ => inexact

/-- The order of two floats, if they have one. -/
def compareFloat (x y : Float) : Option Ordering :=
  if x < y then some .lt else if x == y then some .eq else if y < x then some .gt else none

/-- The order of two numbers. A float that is not a number has none. -/
def compare? (a b : Number) : Option Ordering :=
  match a.promote b with
  | .small a b => some (compare a b)
  | .large a b => some (compare a b)
  | .inexact a b => compareFloat a b

/-- Numbers are equal when they compare so, whatever forms they are kept in. -/
def same (a b : Number) : Bool := a.compare? b == some .eq

/-! ### The common form of exact numbers -/

/-- A word is the narrowest form of its value. -/
theorem integer_eq_ofInt (n : Int64) : integer n = ofInt n.toInt := by
  have hfits : Fits n.toInt := ⟨n.le_toInt, n.toInt_lt⟩
  rw [ofInt, if_pos hfits, Int64.ofInt_toInt]

/-- Two exact numbers are brought together as words with their values, or as their values. -/
theorem promote_of_exact {a b : Number} {m n : Int} (ha : a.toInt? = some m)
    (hb : b.toInt? = some n) :
    (∃ x y : Int64, a.promote b = .small x y ∧ x.toInt = m ∧ y.toInt = n) ∨
      a.promote b = .large m n := by
  cases a with
  | integer x =>
    cases b with
    | integer y => exact .inl ⟨x, y, rfl, Option.some.inj ha, Option.some.inj hb⟩
    | big _ => right; simp [promote, ha, hb]
    | float _ => simp [toInt?] at hb
  | big _ => right; cases b <;> simp [promote, ha, hb]
  | float _ => simp [toInt?] at ha

/-- The order of words is that of their values. -/
theorem compare_toInt (x y : Int64) : compare x y = compare x.toInt y.toInt := by
  show compareOfLessAndEq x y = compareOfLessAndEq x.toInt y.toInt
  simp only [compareOfLessAndEq, Int64.lt_iff_toInt_lt, Int64.toInt_inj]

theorem compare?_of_exact {a b : Number} {m n : Int} (ha : a.toInt? = some m)
    (hb : b.toInt? = some n) : a.compare? b = some (compare m n) := by
  rcases promote_of_exact ha hb with ⟨x, y, h, rfl, rfl⟩ | h
  · simp only [compare?, h, compare_toInt]
  · simp only [compare?, h]

end Number

end MiniLisp
