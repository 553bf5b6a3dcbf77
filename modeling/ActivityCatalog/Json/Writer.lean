import ActivityCatalog.Json.Value
import ActivityCatalog.Number.Shortest

namespace ActivityCatalog.Json

/-!
# Writing JSON

`Value.text` writes a value without blanks, `Value.prettyText` with one member
or item a line and two spaces of indentation for each container.  Members are
written in the order in which the value lists them.

A string escapes quotes, backslashes and control characters below U+0020 only.
A double has its shortest digits: positional where its first digit stands for
`10 ^ -5` to `10 ^ 15`, always with a fraction, and with an exponent elsewhere.
-/

/-- The bounds and marks of a written double. -/
structure DoubleFormat where
  leastPositional : Int
  greatestPositional : Int
  positiveExponentMark : String
  wholeMark : String

/-- Doubles are positional from `10 ^ -5` to below `10 ^ 16`. -/
def doubleFormat : DoubleFormat where
  leastPositional := -5
  greatestPositional := 15
  positiveExponentMark := "e+"
  wholeMark := ".0"

/-- A run of zeros. -/
def zeros (count : Nat) : String :=
  String.ofList (List.replicate count '0')

/-- Digits with a point after the first of them, if there are more. -/
def pointedDigits : List Char → String
  | [] =>
      ""
  | [digit] =>
      String.ofList [digit]
  | digit :: rest =>
      String.ofList (digit :: '.' :: rest)

/-- The text of a positive decimal in a format. -/
def decimalText (format : DoubleFormat) (decimal : Shortest.Decimal) : String :=
  let digits := Nat.toDigits 10 decimal.digits
  let leading := decimal.exponent + digits.length - 1
  if leading < format.leastPositional ∨ format.greatestPositional < leading then
    let mark := if 0 ≤ leading then format.positiveExponentMark else "e-"
    pointedDigits digits ++ mark ++ toString leading.natAbs
  else if 0 ≤ decimal.exponent then
    String.ofList digits ++ zeros decimal.exponent.toNat ++ format.wholeMark
  else
    let places := decimal.exponent.natAbs
    if places < digits.length then
      let whole := digits.length - places
      String.ofList (digits.take whole) ++ "." ++ String.ofList (digits.drop whole)
    else
      "0." ++ zeros (places - digits.length) ++ String.ofList digits

/-- The text of a double. -/
def doubleText (double : Double) : String :=
  (if double.negative then "-" else "") ++
    decimalText doubleFormat (Shortest.decimal double)

/-- The text of a number. -/
def Number.text : Number → String
  | .integer value =>
      toString value
  | .double value =>
      doubleText value

/-- The hexadecimal digit of a number below sixteen. -/
def hexDigit (value : Nat) : Char :=
  if value < 10 then Char.ofNat (48 + value) else Char.ofNat (87 + value)

/-- A character as it stands inside a written string. -/
def escapedChar (char : Char) : List Char :=
  match char with
  | '"' => ['\\', '"']
  | '\\' => ['\\', '\\']
  | '\x08' => ['\\', 'b']
  | '\x0c' => ['\\', 'f']
  | '\n' => ['\\', 'n']
  | '\r' => ['\\', 'r']
  | '\t' => ['\\', 't']
  | _ =>
      if char.toNat < 0x20 then
        ['\\', 'u', '0', '0', hexDigit (char.toNat / 16), hexDigit (char.toNat % 16)]
      else
        [char]

/-- A string between quotes. -/
def quotedText (text : String) : String :=
  "\"" ++ String.ofList (text.toList.flatMap escapedChar) ++ "\""

namespace Value

mutual

/-- The text of a value without blanks. -/
def text : Value → String
  | .null => "null"
  | .bool true => "true"
  | .bool false => "false"
  | .number value => value.text
  | .string text => quotedText text
  | .array items => "[" ++ ",".intercalate (itemTexts items) ++ "]"
  | .object members => "\x7b" ++ ",".intercalate (memberTexts members) ++ "\x7d"

/-- The text of each item. -/
def itemTexts : List Value → List String
  | [] =>
      []
  | item :: rest =>
      item.text :: itemTexts rest

/-- The text of each member. -/
def memberTexts : List (String × Value) → List String
  | [] =>
      []
  | (name, value) :: rest =>
      (quotedText name ++ ":" ++ value.text) :: memberTexts rest

end

/-- The start of a line at an indentation. -/
def lineStart (indentation : Nat) : String :=
  "\n" ++ String.ofList (List.replicate (2 * indentation) ' ')

/-- Lines between two brackets; without lines the brackets stand side by side. -/
def bracketed (opening closing : String) (indentation : Nat) : List String → String
  | [] =>
      opening ++ closing
  | lines =>
      opening ++ ",".intercalate (lines.map (lineStart (indentation + 1) ++ ·)) ++
        lineStart indentation ++ closing

mutual

/-- The text of a value at an indentation. -/
def prettyTextAt (indentation : Nat) : Value → String
  | .array items =>
      bracketed "[" "]" indentation (prettyItems (indentation + 1) items)
  | .object members =>
      bracketed "\x7b" "\x7d" indentation (prettyMembers (indentation + 1) members)
  | value =>
      value.text

/-- The text of each item at an indentation. -/
def prettyItems (indentation : Nat) : List Value → List String
  | [] =>
      []
  | item :: rest =>
      prettyTextAt indentation item :: prettyItems indentation rest

/-- The text of each member at an indentation. -/
def prettyMembers (indentation : Nat) : List (String × Value) → List String
  | [] =>
      []
  | (name, value) :: rest =>
      (quotedText name ++ ": " ++ prettyTextAt indentation value) ::
        prettyMembers indentation rest

end

/-- The text of a value with a member or an item a line. -/
def prettyText (value : Value) : String :=
  prettyTextAt 0 value

end Value

end ActivityCatalog.Json
