/-!
# Binary floating point

A finite 64-bit float is `± m · 2 ^ e` with `m < 2 ^ 53` and `-1074 ≤ e`. This module takes a float
apart into these integers and rounds an exact quotient of natural numbers to the nearest float, a
quotient halfway between two going to the one with even significand.

Rounding works on the bits. The pattern of `m · 2 ^ e` is `(e + 1074) · 2 ^ 52 + m`, for normal and
subnormal numbers alike, and a significand rounded up to `2 ^ 53` carries into the exponent by
itself.
-/

namespace MiniLisp.Binary64

/-- A float taken apart. -/
inductive Parts where
  /-- The number `± significand · 2 ^ exponent`. -/
  | finite (negative : Bool) (significand : Nat) (exponent : Int)
  | infinite (negative : Bool)
  | notANumber
deriving DecidableEq

/-- The least exponent of a finite float. -/
def minExponent : Int := -1074

/-- The parts of a float. -/
def parts (x : Float) : Parts :=
  let bits := x.toBits.toNat
  let negative := bits / Nat.pow 2 63 == 1
  let biased : Nat := bits / Nat.pow 2 52 % Nat.pow 2 11
  let fraction : Nat := bits % Nat.pow 2 52
  if biased = 2047 then
    if fraction = 0 then .infinite negative else .notANumber
  else if biased = 0 then .finite negative fraction minExponent
  else .finite negative (Nat.pow 2 52 + fraction) ((biased : Int) - 1075)

/-- The quotient of two natural numbers to the nearest integer, a half going to the even one. -/
def divNearest (num den : Nat) : Nat :=
  let q := num / den
  let r := num % den
  if den < 2 * r || (2 * r == den && q % 2 == 1) then q + 1 else q

/-- The numerator of `num / den / 2 ^ e`. -/
def scaledNum (num : Nat) (e : Int) : Nat := num * Nat.pow 2 (-e).toNat

/-- The denominator of `num / den / 2 ^ e`. -/
def scaledDen (den : Nat) (e : Int) : Nat := den * Nat.pow 2 e.toNat

/-- The exponent at which a quotient has a significand of 53 bits, or the least exponent if that is
larger. -/
def exponentOf (num den : Nat) : Int :=
  let guess : Int := max ((Nat.log2 num : Int) - Nat.log2 den - 53) minExponent
  if Nat.pow 2 53 ≤ scaledNum num guess / scaledDen den guess then guess + 1 else guess

/-- The pattern of positive infinity. -/
def infinityBits : Nat := 2047 * Nat.pow 2 52

/-- The pattern of the non-negative float nearest to a quotient. Beyond the largest finite float
this is infinity. -/
def quotientBits (num den : Nat) : Nat :=
  if num = 0 then 0
  else
    let e := exponentOf num den
    let bits := (e + 1074).toNat * Nat.pow 2 52 + divNearest (scaledNum num e) (scaledDen den e)
    min bits infinityBits

/-- The float with a sign and the pattern of a non-negative float. -/
def withSign (negative : Bool) (bits : Nat) : Float :=
  Float.ofBits (UInt64.ofNat (if negative then Nat.pow 2 63 + bits else bits))

/-- The float nearest to `± num / den`. -/
def ofQuotient (negative : Bool) (num den : Nat) : Float :=
  withSign negative (quotientBits num den)

/-- The float nearest to an integer. -/
def ofInt (n : Int) : Float :=
  ofQuotient (n < 0) n.natAbs 1

/-- The float nearest to `± digits · 10 ^ exponent`. Exponents far outside the range of floats are
answered without computing the power: `digits` has `Nat.log2 digits` bits, so the number is then
beyond the largest float or below half the smallest. -/
def ofDecimal (negative : Bool) (digits : Nat) (exponent : Int) : Float :=
  if digits = 0 then withSign negative 0
  else if 400 < exponent then withSign negative infinityBits
  else if exponent < -400 - Nat.log2 digits then withSign negative 0
  else if 0 ≤ exponent then ofQuotient negative (digits * Nat.pow 10 exponent.toNat) 1
  else ofQuotient negative digits (Nat.pow 10 (-exponent).toNat)

end MiniLisp.Binary64
