namespace ActivityCatalog

/-!
# Doubles as a sign, a significand and a power of two

A finite double is `± significand * 2 ^ scale`.  In the normal form kept here
the significand is below `2 ^ 53`, and it is at least `2 ^ 52` unless the scale
is the least one, `-1074`; so each double has one representation, and zero has
two, told apart by their sign.

`Double.nearest?` rounds a quotient of naturals to the nearest double, a tie to
the even significand, in exact arithmetic; products and quotients are rounded
once through it.  Infinity is no value: an operation that would reach it gives
`none`.
-/

/-- A finite double `± significand * 2 ^ scale` in normal form. -/
structure Double where
  negative : Bool
  significand : Nat
  scale : Int
  deriving Repr, DecidableEq

namespace Double

/-- The least scale, the one of all doubles near zero. -/
def leastScale : Int :=
  -1074

/-- The greatest scale. -/
def greatestScale : Int :=
  971

/-- Zero with a sign. -/
def zero (negative : Bool) : Double :=
  ⟨negative, 0, leastScale⟩

/-- Whether the double is one of the two zeros. -/
def isZero (double : Double) : Bool :=
  double.significand == 0

/-- Equality of numbers: as `=`, except that the two zeros are equal. -/
def same (left right : Double) : Bool :=
  left == right || (left.isZero && right.isZero)

/-- The double of the same magnitude with the other sign. -/
def negate (double : Double) : Double :=
  { double with negative := !double.negative }

/-- The numerator of the magnitude over `denominator`. -/
def numerator (double : Double) : Nat :=
  double.significand <<< double.scale.toNat

/-- The power of two below the fraction bar of the magnitude. -/
def denominator (double : Double) : Nat :=
  1 <<< (-double.scale).toNat

/-- A quotient rounded to the nearest natural, a half to the even one. -/
def roundedQuotient (dividend divisor : Nat) : Nat :=
  let quotient := dividend / divisor
  let twice := 2 * (dividend % divisor)
  if twice < divisor then
    quotient
  else if divisor < twice then
    quotient + 1
  else if quotient % 2 = 0 then
    quotient
  else
    quotient + 1

/-- The greatest `e` with `2 ^ e ≤ dividend / divisor`. -/
def binaryExponent (dividend divisor : Nat) : Int :=
  let guess : Int := (dividend.log2 : Int) - divisor.log2
  if divisor <<< guess.toNat ≤ dividend <<< (-guess).toNat then
    guess
  else
    guess - 1

/--
The double nearest to a positive quotient with the given sign, or none where
that would be infinity.
-/
def nearest? (negative : Bool) (dividend divisor : Nat) : Option Double :=
  if dividend = 0 then
    some (zero negative)
  else
    let scale := max (binaryExponent dividend divisor - 52) leastScale
    let significand :=
      roundedQuotient (dividend <<< (-scale).toNat) (divisor <<< scale.toNat)
    let carried := significand = 1 <<< 53
    let scale := if carried then scale + 1 else scale
    let significand := if carried then 1 <<< 52 else significand
    if greatestScale < scale then
      none
    else
      some ⟨negative, significand, scale⟩

/-- The product rounded to a double. -/
def mul? (left right : Double) : Option Double :=
  nearest? (left.negative != right.negative)
    (left.numerator * right.numerator)
    (left.denominator * right.denominator)

/-- The quotient by a double that is not zero, rounded to a double. -/
def div? (left right : Double) : Option Double :=
  nearest? (left.negative != right.negative)
    (left.numerator * right.denominator)
    (left.denominator * right.numerator)

/-- The double nearest to a natural. -/
def ofNat? (value : Nat) : Option Double :=
  nearest? false value 1

/-- The double nearest to a power of ten. -/
def powerOfTen? (exponent : Nat) : Option Double :=
  ofNat? (Nat.pow 10 exponent)

end Double

end ActivityCatalog
