import MiniLisp.Number.Binary64

/-!
# The shortest decimal that reads back

A float `m · 2 ^ e` is what every number of an interval around it rounds to. Its ends lie halfway to
the two neighbouring floats and belong to it when `m` is even. Of the decimals in that interval we
want one with the fewest digits and, among those, the nearest to the float; of two equally near the
larger.

All comparisons are between natural numbers. The interval is given in units of `2 ^ (e - 2)`, in
which the float is `4 · m`, and for a decimal grid `10 ^ k` both sides are brought to integers by
the factors `floatScale` and `gridScale`. On each grid only the two neighbours of the float have to
be tried: if any point of the grid lies in the interval, one of them does.
-/

namespace MiniLisp.Binary64

/-- The numbers that round to a positive float, in units of `2 ^ unit`. -/
structure Interval where
  /-- The float itself. -/
  value : Nat
  /-- The lower end. -/
  low : Nat
  /-- The upper end. -/
  high : Nat
  /-- The ends belong to the interval. -/
  closed : Bool
  /-- The exponent of the unit. -/
  unit : Int

/-- The interval of `significand · 2 ^ exponent`. Just above a power of two the float below is half
as far away as the one above. -/
def Interval.of (significand : Nat) (exponent : Int) : Interval where
  value := 4 * significand
  low := if significand = Nat.pow 2 52 ∧ minExponent < exponent then 4 * significand - 1
    else 4 * significand - 2
  high := 4 * significand + 2
  closed := significand % 2 == 0
  unit := exponent - 2

/-- A decimal `digits · 10 ^ exponent`. -/
structure Decimal where
  digits : Nat
  exponent : Int
deriving DecidableEq

/-- The factor that makes a multiple of `2 ^ unit` comparable on the grid `10 ^ k`. -/
def floatScale (unit k : Int) : Nat := Nat.pow 2 unit.toNat * Nat.pow 10 (-k).toNat

/-- The factor that makes a multiple of `10 ^ k` comparable with multiples of `2 ^ unit`. -/
def gridScale (unit k : Int) : Nat := Nat.pow 10 k.toNat * Nat.pow 2 (-unit).toNat

/-- The decimal `c · 10 ^ k` lies in the interval. -/
def Interval.holds (i : Interval) (c : Nat) (k : Int) : Bool :=
  let point := c * gridScale i.unit k
  let low := i.low * floatScale i.unit k
  let high := i.high * floatScale i.unit k
  if i.closed then low ≤ point && point ≤ high else low < point && point < high

/-- The better of the two neighbours of the float on the grid `10 ^ k`, if one is in the interval.
-/
def Interval.onGrid? (i : Interval) (k : Int) : Option Decimal :=
  let value := i.value * floatScale i.unit k
  let grid := gridScale i.unit k
  let c := value / grid
  match i.holds c k, i.holds (c + 1) k with
  | true, true => some ⟨if 2 * (value % grid) < grid then c else c + 1, k⟩
  | true, false => some ⟨c, k⟩
  | false, true => some ⟨c + 1, k⟩
  | false, false => none

/-- The float is less than `10 ^ p`. -/
def Interval.below (i : Interval) (p : Int) : Bool :=
  i.value * floatScale i.unit p < gridScale i.unit p

/-- The least `p` from the given one on with the float below `10 ^ p`, tried at most `fuel` times.
-/
def Interval.magnitudeFrom (i : Interval) : Nat → Int → Int
  | 0, p => p
  | fuel + 1, p => if i.below p then p else i.magnitudeFrom fuel (p + 1)

/-- The number of digits before the decimal point, zero or negative for a float below one. The
search starts from the number of binary digits, `30103 / 100000` of which is about the number of
decimal ones. -/
def Interval.magnitude (i : Interval) : Int :=
  i.magnitudeFrom 5 ((((Nat.log2 i.value : Int) + i.unit) * 30103).fdiv 100000 - 1)

/-- The decimal found on the coarsest of the grids that begin with `10 ^ k`, each ten times finer
than the one before. -/
def Interval.searchFrom (i : Interval) : Nat → Int → Decimal
  | 0, k => ⟨i.value * floatScale i.unit k / gridScale i.unit k, k⟩
  | fuel + 1, k => match i.onGrid? k with
    | some d => d
    | none => i.searchFrom fuel (k - 1)

/-- The decimal without the zeros at its end. -/
def Decimal.strip : Nat → Decimal → Decimal
  | 0, d => d
  | fuel + 1, d =>
    if d.digits % 10 = 0 ∧ 0 < d.digits then strip fuel ⟨d.digits / 10, d.exponent + 1⟩ else d

/-- The shortest decimal that reads back as the float `significand · 2 ^ exponent`, which is not
zero. Seventeen digits are always enough. -/
def shortest (significand : Nat) (exponent : Int) : Decimal :=
  let i := Interval.of significand exponent
  (i.searchFrom 17 (i.magnitude - 1)).strip 20

end MiniLisp.Binary64
