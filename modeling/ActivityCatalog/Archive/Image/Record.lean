import ActivityCatalog.Archive.Cell
import ActivityCatalog.Text.Utf8

namespace ActivityCatalog.Image

/-!
# Records of an image

Numbers are written with their highest byte first.  A number of varying length has
seven bits in each byte but the ninth, and goes on while the highest bit is set.

A record says the kinds of its cells first and then what they hold.  Texts are in one
of three encodings.
-/

/-- How texts are written. -/
inductive Encoding where
  | utf8
  | utf16Low
  | utf16High
  deriving Repr, DecidableEq

/-- The number of bytes. -/
def number (bytes : List UInt8) : Nat :=
  bytes.foldl (fun value byte => value * 256 + byte.toNat) 0

/-- The number of bytes in a place. -/
def numberAt (bytes : List UInt8) (offset length : Nat) : Nat :=
  number ((bytes.drop offset).take length)

/-- The number of bytes whose highest bit is a sign. -/
def signed (bytes : List UInt8) : Int :=
  let value := number bytes
  let bound := 1 <<< (8 * bytes.length)
  if 2 * value < bound then value else (value : Int) - bound

/-- Read a number of at most so many more bytes, after what was read of it. -/
def readVarying (read : Nat) : Nat → List UInt8 → Option (Nat × List UInt8)
  | 0, byte :: rest =>
      some (read * 256 + byte.toNat, rest)
  | budget + 1, byte :: rest =>
      let value := read * 128 + byte.toNat % 128
      if byte.toNat < 128 then some (value, rest) else readVarying value budget rest
  | _, [] =>
      none

/-- Read a number of varying length. -/
def varying? (bytes : List UInt8) : Option (Nat × List UInt8) :=
  readVarying 0 8 bytes

/-- The pairs of bytes, each as a number. -/
def unitsOf (isLowFirst : Bool) : List UInt8 → List Nat
  | first :: second :: rest =>
      (if isLowFirst then number [second, first] else number [first, second]) ::
        unitsOf isLowFirst rest
  | _ =>
      []

/-- Whether a unit is the first of two that tell a character. -/
def isLead (unit : Nat) : Bool :=
  0xD800 ≤ unit && unit < 0xDC00

/-- Whether a unit is the second of two that tell a character. -/
def isTrail (unit : Nat) : Bool :=
  0xDC00 ≤ unit && unit < 0xE000

/-- The characters of units, with the replacement character for a half of one. -/
def charactersOf : List Nat → List Char
  | first :: second :: rest =>
      if isLead first && isTrail second then
        Char.ofNat (0x10000 + (first - 0xD800) * 0x400 + (second - 0xDC00)) :: charactersOf rest
      else
        (if isLead first || isTrail first then Text.Utf8.replacement else Char.ofNat first) ::
          charactersOf (second :: rest)
  | [unit] =>
      [if isLead unit || isTrail unit then Text.Utf8.replacement else Char.ofNat unit]
  | [] =>
      []

/-- The text of bytes. -/
def Encoding.decode (encoding : Encoding) (bytes : List UInt8) : String :=
  match encoding with
  | .utf8 => Text.Utf8.decodeLossy bytes
  | .utf16Low => String.ofList (charactersOf (unitsOf true bytes))
  | .utf16High => String.ofList (charactersOf (unitsOf false bytes))

/-- How many bytes a cell of a kind takes. -/
def sizeOf (kind : Nat) : Nat :=
  match kind with
  | 1 | 2 | 3 | 4 => kind
  | 5 => 6
  | 6 | 7 => 8
  | _ => if kind < 12 then 0 else (kind - 12) / 2

/-- The cell of a kind. -/
def cellOf (encoding : Encoding) (kind : Nat) (bytes : List UInt8) : Cell :=
  match kind with
  | 0 | 10 | 11 => .null
  | 7 => .real (UInt64.ofNat (number bytes))
  | 8 => .integer 0
  | 9 => .integer 1
  | _ =>
      if kind < 12 then .integer (signed bytes)
      else if kind % 2 = 0 then .bytes bytes
      else .text (encoding.decode bytes)

/-- Read the kinds of cells, each of which has a byte at least. -/
def readKinds : Nat → List UInt8 → Option (List Nat)
  | _, [] =>
      some []
  | 0, _ =>
      none
  | budget + 1, bytes => do
      let (kind, rest) ← varying? bytes
      let kinds ← readKinds budget rest
      pure (kind :: kinds)

/-- Read the cells of kinds. -/
def readCells (encoding : Encoding) : List Nat → List UInt8 → Option (List Cell)
  | [], _ =>
      some []
  | kind :: kinds, bytes =>
      if bytes.length < sizeOf kind then
        none
      else do
        let cells ← readCells encoding kinds (bytes.drop (sizeOf kind))
        pure (cellOf encoding kind (bytes.take (sizeOf kind)) :: cells)

/-- Read a record; an empty one has no cells. -/
def record? (encoding : Encoding) (bytes : List UInt8) : Option (List Cell) := do
  let (length, rest) := (varying? bytes).getD (0, [])
  let before := bytes.length - rest.length
  if bytes.length < length then
    none
  else
    let kinds ← readKinds length (rest.take (length - before))
    readCells encoding kinds (bytes.drop length)

end ActivityCatalog.Image
