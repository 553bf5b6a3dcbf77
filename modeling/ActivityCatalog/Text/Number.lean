namespace ActivityCatalog.Text

/-!
# Naturals in arguments and settings

A natural is written in decimal digits, with an optional plus before them.
-/

/-- The digits after an optional plus. -/
def unsignedDigits : List Char → List Char
  | '+' :: rest =>
      rest
  | chars =>
      chars

/-- Why a text is no natural up to a bound. -/
inductive NumberFault where
  | empty
  | invalidDigit
  | tooLarge
  deriving Repr, DecidableEq

/-- The text of a fault. -/
def NumberFault.message : NumberFault → String
  | .empty => "cannot parse integer from empty string"
  | .invalidDigit => "invalid digit found in string"
  | .tooLarge => "number too large to fit in target type"

/-- Read the digits of a natural up to a bound, from left to right. -/
def readDigits (greatest : Nat) : List Char → Nat → Except NumberFault Nat
  | [], value =>
      .ok value
  | char :: rest, value =>
      if char.isDigit then
        let next := value * 10 + (char.toNat - '0'.toNat)
        if next ≤ greatest then
          readDigits greatest rest next
        else
          .error .tooLarge
      else
        .error .invalidDigit

/-- Read a natural up to a bound. -/
def readNatural (greatest : Nat) (text : String) : Except NumberFault Nat :=
  match text.toList with
  | [] => .error .empty
  | chars =>
      match unsignedDigits chars with
      | [] => .error .invalidDigit
      | digits => readDigits greatest digits 0

/-- Read a natural within bounds, both included. -/
def naturalWithin? (least greatest : Nat) (text : String) : Option Nat :=
  match readNatural greatest text with
  | .ok value => if least ≤ value then some value else none
  | .error _ => none

/-- The greatest 16-bit number. -/
def greatestShort : Nat :=
  0xffff

/-- The greatest 64-bit number. -/
def greatestLong : Nat :=
  0xffffffffffffffff

end ActivityCatalog.Text
