import MiniLisp.Number.Basic
import MiniLisp.Number.Shortest

/-!
# The text of a number

Integers are written in decimal. A float is written with the fewest digits that read back as the
same float, with a digit on both sides of a decimal point if its size is from `1e-4` up to below
`1e16`, and with an exponent otherwise. So a float that is written without an exponent always shows
its decimal point and reads back as a float.
-/

namespace MiniLisp.Number

/-- How floats are written. -/
structure FloatFormat where
  /-- The least exponent that is written out in full. -/
  leastPositional : Int
  /-- The first exponent that no longer is. -/
  firstScientific : Int
  notANumber : String
  infinity : String

/-- The format of floats: in full from `1e-4` up to below `1e16`. -/
def floatFormat : FloatFormat := ⟨-4, 16, "NaN", "inf"⟩

/-- The digits of a decimal written in full. -/
def positional (digits : List Char) (exponent : Int) : List Char :=
  if 0 ≤ exponent then digits ++ List.replicate exponent.toNat '0' ++ ['.', '0']
  else
    let places := (-exponent).toNat
    if places < digits.length then
      digits.take (digits.length - places) ++ '.' :: digits.drop (digits.length - places)
    else '0' :: '.' :: List.replicate (places - digits.length) '0' ++ digits

/-- The digits of a decimal written with an exponent: one before the point, which is left out when
no digit follows. -/
def scientific (digits : List Char) (exponent : Int) : List Char :=
  let mantissa := match digits with
    | first :: second :: rest => first :: '.' :: second :: rest
    | short => short
  mantissa ++ 'e' :: (toString exponent).toList

/-- The text of a non-negative finite float. -/
def finiteText (format : FloatFormat) (significand : Nat) (exponent : Int) : List Char :=
  if significand = 0 then ['0', '.', '0']
  else
    let d := Binary64.shortest significand exponent
    let digits := Nat.toDigits 10 d.digits
    let leading : Int := d.exponent + digits.length - 1
    if format.leastPositional ≤ leading ∧ leading < format.firstScientific then
      positional digits d.exponent
    else scientific digits leading

/-- The sign of a text, left out when it is a plus. -/
def signText (negative : Bool) : String := if negative then "-" else ""

/-- The text of a float. -/
def floatText (format : FloatFormat) (x : Float) : String :=
  match Binary64.parts x with
  | .notANumber => format.notANumber
  | .infinite negative => signText negative ++ format.infinity
  | .finite negative significand exponent =>
    signText negative ++ String.ofList (finiteText format significand exponent)

/-- The text of a number. -/
def text : Number → String
  | integer n => toString n.toInt
  | big n => toString n
  | float x => floatText floatFormat x

end MiniLisp.Number
