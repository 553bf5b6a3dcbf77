import ActivityCatalog.Json.Value

namespace ActivityCatalog.Json

/-!
# Number lexemes

A number is written as an optional minus, whole digits without a leading zero,
an optional fraction and an optional exponent.  Whole digits alone that fit 64
bits are an integer; every other lexeme is a double.

A double is read in three steps, each of which may round.  Digits are taken into
a 64-bit significand as long as they fit, the first that does not fit and all
after it count only by their place; the significand becomes the nearest double;
and that is multiplied or divided once by the nearest double of the power of
ten.  A lexeme whose double would be infinite has no number.
-/

/-- The parts of a number as it is written. -/
structure Lexeme where
  negative : Bool
  whole : List Nat
  fraction : Option (List Nat)
  exponent : Option Int
  deriving Repr, DecidableEq

/-- The value of a decimal digit. -/
def digitValue (char : Char) : Nat :=
  char.toNat - '0'.toNat

/-- The number that a list of decimal digits writes. -/
def digitsValue (digits : List Nat) : Nat :=
  digits.foldl (fun value digit => value * 10 + digit) 0

/-- A run of digits at the start, at least one, and what follows it. -/
def takeDigits? (chars : List Char) : Option (List Nat × List Char) :=
  match chars.takeWhile Char.isDigit with
  | [] =>
      none
  | digits =>
      some (digits.map digitValue, chars.dropWhile Char.isDigit)

namespace Lexeme

/-- Read the exponent that ends a lexeme, after its mark. -/
def exponent? (chars : List Char) : Option Int :=
  let (negative, digits) :=
    match chars with
    | '+' :: rest => (false, rest)
    | '-' :: rest => (true, rest)
    | rest => (false, rest)
  match takeDigits? digits with
  | some (digits, []) =>
      some (if negative then -(digitsValue digits : Int) else digitsValue digits)
  | _ =>
      none

/-- Read what follows the whole digits and the fraction. -/
def withExponent? (negative : Bool) (whole : List Nat) (fraction : Option (List Nat)) :
    List Char → Option Lexeme
  | [] =>
      some ⟨negative, whole, fraction, none⟩
  | mark :: rest =>
      if mark = 'e' ∨ mark = 'E' then
        (exponent? rest).map fun exponent => ⟨negative, whole, fraction, some exponent⟩
      else
        none

/-- Read an unsigned lexeme. -/
def unsigned? (negative : Bool) (chars : List Char) : Option Lexeme :=
  match takeDigits? chars with
  | none =>
      none
  | some (whole, rest) =>
      if whole.head? = some 0 ∧ 1 < whole.length then
        none
      else
        match rest with
        | '.' :: afterPoint =>
            match takeDigits? afterPoint with
            | none => none
            | some (fraction, afterFraction) =>
                withExponent? negative whole (some fraction) afterFraction
        | _ =>
            withExponent? negative whole none rest

/-- Read a whole list of characters as a number lexeme. -/
def ofChars? : List Char → Option Lexeme
  | '-' :: rest =>
      unsigned? true rest
  | chars =>
      unsigned? false chars

/-- The greatest 64-bit significand. -/
def greatestSignificand : Nat :=
  0xffffffffffffffff

/--
Take digits into a significand while it fits; with it goes the number of digits
that were left out.
-/
def absorb (significand : Nat) : List Nat → Nat × Nat
  | [] =>
      (significand, 0)
  | digit :: rest =>
      if significand * 10 + digit ≤ greatestSignificand then
        absorb (significand * 10 + digit) rest
      else
        (significand, rest.length + 1)

/-- The significand and the power of ten of the digits that are kept. -/
def significand (lexeme : Lexeme) : Nat × Int :=
  let (significand, wholeLeft) := absorb 0 lexeme.whole
  let fraction := lexeme.fraction.getD []
  let (significand, fractionLeft) := absorb significand fraction
  let exponent := lexeme.exponent.getD 0
  (significand, exponent + wholeLeft - (fraction.length - fractionLeft : Nat))

/-- Scale by a power of ten, in steps of `10 ^ 308` where it is very negative. -/
def scale? : Nat → Double → Int → Option Double
  | 0, double, _ =>
      some double
  | budget + 1, double, exponent =>
      if 0 ≤ exponent then
        if exponent ≤ 308 then
          (Double.powerOfTen? exponent.toNat).bind double.mul?
        else if double.isZero then
          some double
        else
          none
      else if -308 ≤ exponent then
        (Double.powerOfTen? (-exponent).toNat).bind double.div?
      else if double.isZero then
        some double
      else
        match (Double.powerOfTen? 308).bind double.div? with
        | none => none
        | some smaller => scale? budget smaller (exponent + 308)

/-- The double of a lexeme, unless it is infinite. -/
def double? (lexeme : Lexeme) : Option Double :=
  let (significand, exponent) := lexeme.significand
  let magnitude := (Double.ofNat? significand).bind fun double => scale? 4 double exponent
  magnitude.map fun double => if lexeme.negative then double.negate else double

/-- The integer of a lexeme that has neither fraction nor exponent and fits 64 bits. -/
def integer? (lexeme : Lexeme) : Option Int :=
  if lexeme.fraction.isSome ∨ lexeme.exponent.isSome then
    none
  else
    let magnitude := digitsValue lexeme.whole
    if lexeme.negative then
      if 0 < magnitude ∧ magnitude ≤ 0x8000000000000000 then some (-(magnitude : Int)) else none
    else
      if magnitude ≤ greatestSignificand then some magnitude else none

/-- The number of a lexeme, unless it is infinite. -/
def number? (lexeme : Lexeme) : Option Number :=
  match lexeme.integer? with
  | some value => some (.integer value)
  | none => lexeme.double?.map .double

end Lexeme

end ActivityCatalog.Json
