import ActivityCatalog.Number.Double

namespace ActivityCatalog.Shortest

/-!
# The shortest decimal that reads back

Every double is the nearest one to all reals of an interval around it, whose
ends belong to it when the significand is even.  Among the decimals in that
interval the one written is on the coarsest grid `10 ^ e` that has any, and is
the nearest to the double of those on that grid, a tie going to the even digit.

`Shortest.decimal` finds it in exact arithmetic by trying the two neighbours of
the double on each grid, from coarse to fine: if a grid has a point in the
interval, one of these two is such a point.
-/

/-- A decimal `digits * 10 ^ exponent`. -/
structure Decimal where
  digits : Nat
  exponent : Int
  deriving Repr, DecidableEq

/-- A double, its interval and a decimal grid, brought to one denominator. -/
structure Scaled where
  value : Nat
  below : Nat
  above : Nat
  unit : Nat
  closed : Bool

/-- Bring a positive double and the grid `10 ^ exponent` to one denominator. -/
def scaled (double : Double) (exponent : Int) : Scaled :=
  let weight := Nat.pow 10 (-exponent).toNat <<< double.scale.toNat
  let atBinadeStart :=
    double.significand = 1 <<< 52 ∧ Double.leastScale < double.scale
  { value := 4 * double.significand * weight
    below := if atBinadeStart then weight else 2 * weight
    above := 2 * weight
    unit := (4 * Nat.pow 10 exponent.toNat) <<< (-double.scale).toNat
    closed := double.significand % 2 = 0 }

/-- Whether a point of the grid lies in the interval of the double. -/
def Scaled.holds (frame : Scaled) (digits : Nat) : Bool :=
  let point := digits * frame.unit
  let low := frame.value - frame.below
  let high := frame.value + frame.above
  if frame.closed then
    low ≤ point && point ≤ high
  else
    low < point && point < high

/-- The better of the two grid points around the double, if one is in its interval. -/
def Scaled.choice? (frame : Scaled) : Option Nat :=
  let lower := frame.value / frame.unit
  let upper := lower + 1
  match frame.holds lower, frame.holds upper with
  | false, false => none
  | true, false => some lower
  | false, true => some upper
  | true, true =>
      let toLower := frame.value - lower * frame.unit
      let toUpper := upper * frame.unit - frame.value
      if toLower < toUpper then some lower
      else if toUpper < toLower then some upper
      else if lower % 2 = 0 then some lower
      else some upper

/-- Divide out the factors ten of the digits, at most the given number of them. -/
def stripped : Nat → Nat → Int → Decimal
  | 0, digits, exponent =>
      ⟨digits, exponent⟩
  | budget + 1, digits, exponent =>
      if digits ≠ 0 ∧ digits % 10 = 0 then
        stripped budget (digits / 10) (exponent + 1)
      else
        ⟨digits, exponent⟩

/-- Try grids from coarse to fine and stop at the first that has a point. -/
def search (double : Double) : Nat → Int → Decimal
  | 0, exponent =>
      ⟨(scaled double exponent).value / (scaled double exponent).unit, exponent⟩
  | budget + 1, exponent =>
      match (scaled double exponent).choice? with
      | some digits => stripped 20 digits exponent
      | none => search double budget (exponent - 1)

/-- An estimate of the decimal exponent, never too large by more than one. -/
def coarsestExponent (double : Double) : Int :=
  (double.scale + double.significand.log2) * 30103 / 100000 + 1

/-- The shortest decimal that reads back as the magnitude of a double. -/
def decimal (double : Double) : Decimal :=
  if double.isZero then
    ⟨0, 0⟩
  else
    search double 20 (coarsestExponent double)

end ActivityCatalog.Shortest
