namespace ActivityCatalog.Base64

/-!
# Base64 texts

Three bytes are written as four symbols of the standard alphabet, the last group
padded with `=` to four.  Reading accepts exactly the written texts: padding is
required and the bits that carry nothing are zero.

`decode` names the first fault of a text: a byte that is no symbol, the length
of a group with a lone symbol, missing padding, or a last symbol whose unused
bits are set.
-/

/-- What is wrong with a text that is not base64. -/
inductive Fault where
  | invalidSymbol (byte : UInt8) (offset : Nat)
  | invalidLength (length : Nat)
  | invalidLastSymbol (byte : UInt8) (offset : Nat)
  | invalidPadding
  deriving Repr, DecidableEq

/-- The text of a fault. -/
def Fault.message : Fault → String
  | .invalidSymbol byte offset =>
      s!"Invalid symbol {byte}, offset {offset}."
  | .invalidLength length =>
      s!"Invalid input length: {length}"
  | .invalidLastSymbol byte offset =>
      s!"Invalid last symbol {byte}, offset {offset}."
  | .invalidPadding =>
      "Invalid padding"

/-- The byte that pads the last group. -/
def padding : UInt8 :=
  61

/-- The symbol of a number below sixty-four. -/
def symbol (value : Nat) : Char :=
  if value < 26 then Char.ofNat (65 + value)
  else if value < 52 then Char.ofNat (71 + value)
  else if value < 62 then Char.ofNat (value - 4)
  else if value = 62 then '+'
  else '/'

/-- The number of a symbol. -/
def symbolValue? (byte : UInt8) : Option Nat :=
  let code := byte.toNat
  if 65 ≤ code ∧ code ≤ 90 then some (code - 65)
  else if 97 ≤ code ∧ code ≤ 122 then some (code - 71)
  else if 48 ≤ code ∧ code ≤ 57 then some (code + 4)
  else if code = 43 then some 62
  else if code = 47 then some 63
  else none

/-- The symbols of bytes, three bytes a group. -/
def encodeChars : List UInt8 → List Char
  | [] =>
      []
  | [first] =>
      let bits := first.toNat * 16
      [symbol (bits / 64), symbol (bits % 64), '=', '=']
  | [first, second] =>
      let bits := (first.toNat * 256 + second.toNat) * 4
      [symbol (bits / 4096), symbol (bits / 64 % 64), symbol (bits % 64), '=']
  | first :: second :: third :: rest =>
      let bits := (first.toNat * 256 + second.toNat) * 256 + third.toNat
      symbol (bits / 262144) :: symbol (bits / 4096 % 64) :: symbol (bits / 64 % 64) ::
        symbol (bits % 64) :: encodeChars rest

/-- The base64 text of bytes. -/
def encode (bytes : List UInt8) : String :=
  String.ofList (encodeChars bytes)

/-- The three bytes of four symbol values. -/
def groupBytes (first second third fourth : Nat) : List UInt8 :=
  let bits := ((first * 64 + second) * 64 + third) * 64 + fourth
  [UInt8.ofNat (bits / 65536), UInt8.ofNat (bits / 256 % 256), UInt8.ofNat (bits % 256)]

/-- The value of the symbol at an offset. -/
def valueAt (byte : UInt8) (offset : Nat) : Except Fault Nat :=
  match symbolValue? byte with
  | some value => .ok value
  | none => .error (.invalidSymbol byte offset)

/-- The symbols of the last group and how much padding follows them. -/
structure LastGroup where
  values : List Nat
  lastByte : UInt8
  padded : Nat
  deriving Repr, DecidableEq

/-- Read the last group byte by byte; padding may stand at its third and fourth places only. -/
def readLast (offset : Nat) : List UInt8 → LastGroup → Except Fault LastGroup
  | [], group =>
      .ok group
  | byte :: rest, group =>
      let place := group.values.length + group.padded
      if byte = padding then
        if place < 2 then
          .error (.invalidSymbol byte (offset + place))
        else
          readLast offset rest { group with padded := group.padded + 1 }
      else if 0 < group.padded then
        .error (.invalidSymbol padding (offset + group.values.length))
      else
        match valueAt byte (offset + place) with
        | .error fault => .error fault
        | .ok value =>
            readLast offset rest
              { group with values := group.values ++ [value], lastByte := byte }

/-- The bytes of the last group, which starts at an offset. -/
def decodeLast (offset : Nat) (bytes : List UInt8) : Except Fault (List UInt8) := do
  let group ← readLast offset bytes ⟨[], 0, 0⟩
  if group.values = [] then
    pure []
  else if group.values.length = 1 then
    throw (.invalidLength (offset + bytes.length))
  else if group.values.length + group.padded ≠ 4 then
    throw .invalidPadding
  else
    let lastOffset := offset + group.values.length - 1
    match group.values with
    | [first, second] =>
        if second % 16 ≠ 0 then
          throw (.invalidLastSymbol group.lastByte lastOffset)
        else
          pure ((groupBytes first second 0 0).take 1)
    | [first, second, third] =>
        if third % 4 ≠ 0 then
          throw (.invalidLastSymbol group.lastByte lastOffset)
        else
          pure ((groupBytes first second third 0).take 2)
    | [first, second, third, fourth] =>
        pure (groupBytes first second third fourth)
    | _ =>
        throw .invalidPadding

/-- The bytes of a text that starts at an offset, group by group. -/
def decodeFrom (offset : Nat) : List UInt8 → Except Fault (List UInt8)
  | first :: second :: third :: fourth :: next :: rest => do
      let group := groupBytes (← valueAt first offset) (← valueAt second (offset + 1))
        (← valueAt third (offset + 2)) (← valueAt fourth (offset + 3))
      let following ← decodeFrom (offset + 4) (next :: rest)
      pure (group ++ following)
  | last =>
      decodeLast offset last

/-- The bytes of a base64 text given as bytes. -/
def decodeBytes (bytes : List UInt8) : Except Fault (List UInt8) :=
  match bytes.getLast? with
  | some last =>
      if bytes.length % 4 = 1 ∧ last ≠ padding ∧ symbolValue? last = none then
        .error (.invalidSymbol last (bytes.length - 1))
      else
        decodeFrom 0 bytes
  | none =>
      .ok []

/-- The bytes of a base64 text. -/
def decode (text : String) : Except Fault (List UInt8) :=
  decodeBytes text.toUTF8.toList

end ActivityCatalog.Base64
