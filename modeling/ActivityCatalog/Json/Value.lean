import ActivityCatalog.Dictionary
import ActivityCatalog.Number.Double

namespace ActivityCatalog.Json

/-!
# JSON values

A value holds integers and doubles apart: `1` and `1.0` are different values,
while the two zeros among the doubles are equal.  The members of an object are
listed in an order of their own, so that one type serves both for a record
about to be written, whose members stand in the order of its fields, and for a
value that was read, whose members are a `Dictionary`.

`Value.canonical` turns the first kind into the second.
-/

/-- A number: an integer or a double. -/
inductive Number where
  | integer (value : Int)
  | double (value : Double)
  deriving Repr, DecidableEq

/-- Equality of numbers; an integer never equals a double. -/
def Number.same : Number → Number → Bool
  | .integer left, .integer right =>
      left == right
  | .double left, .double right =>
      left.same right
  | _, _ =>
      false

/-- A JSON value whose objects keep their members in a given order. -/
inductive Value where
  | null
  | bool (value : Bool)
  | number (value : Number)
  | string (text : String)
  | array (items : List Value)
  | object (members : List (String × Value))
  deriving Repr, BEq, Inhabited

namespace Value

/-- An integer as a value. -/
def ofInt (value : Int) : Value :=
  .number (.integer value)

/-- A natural as a value. -/
def ofNat (value : Nat) : Value :=
  ofInt value

/-- A text that may be absent as a value. -/
def ofText? : Option String → Value
  | none =>
      .null
  | some text =>
      .string text

mutual

/-- Equality of values, comparing numbers as numbers. -/
def same : Value → Value → Bool
  | .null, .null =>
      true
  | .bool left, .bool right =>
      left == right
  | .number left, .number right =>
      left.same right
  | .string left, .string right =>
      left == right
  | .array left, .array right =>
      sameItems left right
  | .object left, .object right =>
      sameMembers left right
  | _, _ =>
      false

/-- Equality of two lists of values. -/
def sameItems : List Value → List Value → Bool
  | [], [] =>
      true
  | left :: leftRest, right :: rightRest =>
      left.same right && sameItems leftRest rightRest
  | _, _ =>
      false

/-- Equality of two lists of members. -/
def sameMembers : List (String × Value) → List (String × Value) → Bool
  | [], [] =>
      true
  | (leftName, left) :: leftRest, (rightName, right) :: rightRest =>
      leftName == rightName && left.same right && sameMembers leftRest rightRest
  | _, _ =>
      false

end

mutual

/-- How many containers stand inside one another, counting the outermost. -/
def depth : Value → Nat
  | .array items =>
      depthItems items + 1
  | .object members =>
      depthMembers members + 1
  | _ =>
      0

/-- The greatest depth in a list of values. -/
def depthItems : List Value → Nat
  | [] =>
      0
  | item :: rest =>
      max item.depth (depthItems rest)

/-- The greatest depth in a list of members. -/
def depthMembers : List (String × Value) → Nat
  | [] =>
      0
  | (_, value) :: rest =>
      max value.depth (depthMembers rest)

end

mutual

/-- The value whose objects are dictionaries; the last member of a name wins. -/
def canonical : Value → Value
  | .array items =>
      .array (canonicalItems items)
  | .object members =>
      .object (Dictionary.ofList (canonicalMembers members))
  | value =>
      value

/-- The canonical form of each item. -/
def canonicalItems : List Value → List Value
  | [] =>
      []
  | item :: rest =>
      item.canonical :: canonicalItems rest

/-- The canonical form of each member's value. -/
def canonicalMembers : List (String × Value) → List (String × Value)
  | [] =>
      []
  | (name, value) :: rest =>
      (name, value.canonical) :: canonicalMembers rest

end

/-- The member of an object with a name. -/
def member? (name : String) : Value → Option Value
  | .object members =>
      Dictionary.get? name members
  | _ =>
      none

/-- The text of a string value. -/
def text? : Value → Option String
  | .string text =>
      some text
  | _ =>
      none

/-- Whether the value is null. -/
def isNull : Value → Bool
  | .null =>
      true
  | _ =>
      false

end Value

end ActivityCatalog.Json
