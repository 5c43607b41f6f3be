import MiniLisp.Number.Basic

/-!
# Number literals

A text with a decimal point or an exponent mark is a float: a sign, digits with or without a point,
at least one digit on either side of it, and an exponent of at least one digit. Any other text is an
integer: a sign and digits, among which underscores may stand, though not in front. Of several plus
signs all are ignored, and none may follow a minus sign.

The reader only hands over texts of a much narrower form; the rest is open to callers.
-/

namespace MiniLisp.Number

/-- The value of a digit. -/
def digitValue (c : Char) : Nat := c.toNat - '0'.toNat

/-- The value of a row of digits. -/
def digitsValue (cs : List Char) : Nat :=
  cs.foldl (fun n c ↦ 10 * n + digitValue c) 0

/-- Splits a single sign off a text; the flag says that it was a minus. -/
def splitSign : List Char → Bool × List Char
  | '-' :: cs => (true, cs)
  | '+' :: cs => (false, cs)
  | cs => (false, cs)

/-- An integer with its sign. -/
def signed (negative : Bool) (n : Nat) : Int := if negative then -n else n

/-! ### Integers -/

/-- The digits of an integer literal without its sign, underscores taken out. -/
def unsignedDigits? (cs : List Char) : Option (List Char) :=
  if cs.head?.all (· == '_') then none
  else
    let digits := cs.filter (· != '_')
    if digits.all Char.isDigit then some digits else none

/-- The value of an integer literal. -/
def integerLiteral? (cs : List Char) : Option Int :=
  match cs.dropWhile (· == '+') with
  | '-' :: rest => (unsignedDigits? rest).map fun ds ↦ signed true (digitsValue ds)
  | rest => (unsignedDigits? rest).map fun ds ↦ signed false (digitsValue ds)

/-! ### Floats -/

/-- The exponent of a float literal, given what follows its digits: nothing, or a mark and a signed
row of digits. -/
def exponentPart? : List Char → Option Int
  | [] => some 0
  | mark :: rest =>
    if mark == 'e' || mark == 'E' then
      let (negative, digits) := splitSign rest
      if !digits.isEmpty && digits.all Char.isDigit then some (signed negative (digitsValue digits))
      else none
    else none

/-- The digits after the decimal point, and what follows them. Without a point there are none. -/
def fractionPart : List Char → List Char × List Char
  | '.' :: rest => (rest.takeWhile Char.isDigit, rest.dropWhile Char.isDigit)
  | rest => ([], rest)

/-- The value of a float literal. -/
def floatLiteral? (cs : List Char) : Option Float :=
  let (negative, body) := splitSign cs
  let whole := body.takeWhile Char.isDigit
  let (fraction, rest) := fractionPart (body.dropWhile Char.isDigit)
  if whole.isEmpty && fraction.isEmpty then none
  else
    (exponentPart? rest).map fun exponent ↦
      Binary64.ofDecimal negative (digitsValue (whole ++ fraction)) (exponent - fraction.length)

/-! ### Either kind -/

/-- The marks that make a literal a float. -/
def isFloatMark (c : Char) : Bool := c == '.' || c == 'e' || c == 'E'

/-- The number a literal stands for. -/
def ofLiteral? (text : String) : Option Number :=
  let cs := text.toList
  if cs.any isFloatMark then (floatLiteral? cs).map .float
  else (integerLiteral? cs).map ofInt

end MiniLisp.Number
