import ActivityCatalog.Json.Token

namespace ActivityCatalog.Http

/-!
# Hosts

A server listens at a host, which is told by an address or by a name.

An address of four bytes has up to four numbers between points; the last one fills the
bytes that the others leave.  A number is hexadecimal after `0x`, octal after `0` and
decimal otherwise.  An address of sixteen bytes has eight groups of hexadecimal digits
between colons, and may stand in brackets; `::` stands for groups of zero, and the last
two groups may be told by four decimal numbers.  After `%` it has a zone, which is told
by a number; that of the machine itself also has a name, which is known outside of
brackets where addresses are those of a zone.

Of the names only `localhost` is known.  A machine has no addresses but those that lead
to itself and those of groups of four bytes, and no zone but its own; no listener is at
hand for these, so that `Host.fault` tells for every host why a server cannot be bound
to it.
-/

/-- The address of a host. -/
inductive Address where
  | fourBytes (value : Nat)
  | sixteenBytes (value zone : Nat)
  deriving Repr, DecidableEq

/-- Why a server cannot be bound to a host. -/
inductive HostFault where
  | containsNul
  | notName
  | unknownName
  | foreign
  | noZone
  | unusable
  | noListener
  deriving Repr, DecidableEq

/-- The text of a fault. -/
def HostFault.message : HostFault → String
  | .containsNul => "file name contained an unexpected NUL byte"
  | .notName => "failed to lookup address information: Name or service not known"
  | .unknownName => "failed to lookup address information: Temporary failure in name resolution"
  | .foreign => "Cannot assign requested address (os error 99)"
  | .noZone => "No such device (os error 19)"
  | .unusable => "Invalid argument (os error 22)"
  | .noListener => "Operation not supported (os error 95)"

namespace Address

/-- The number that digits write in a base. -/
def number? (base : Nat) (digits : List Char) : Option Nat :=
  digits.foldlM
    (fun value char => do
      let digit ← Json.hexValue? char
      if digit < base then some (value * base + digit) else none)
    0

/-- The number of a piece of an address of four bytes. -/
def pieceNumber? : List Char → Option Nat
  | [] =>
      none
  | '0' :: marker :: digits =>
      if (marker = 'x' ∨ marker = 'X') ∧ digits ≠ [] then
        number? 16 digits
      else
        number? 8 (marker :: digits)
  | digits =>
      number? 10 digits

/-- Numbers below a base in their order, as one number. -/
def joined (base : Nat) (numbers : List Nat) : Nat :=
  numbers.foldl (fun value number => value * base + number) 0

/-- The four bytes of the numbers before the last one, and of the last one. -/
def ofNumbers? (leading : List Nat) (last : Nat) : Option Nat :=
  let left := 4 - leading.length
  let bound := 1 <<< (8 * left)
  if leading.length ≤ 3 ∧ leading.all (· < 256) ∧ last < bound then
    some (joined 256 leading * bound + last)
  else
    none

/-- The address of four bytes that a text tells. -/
def fourBytes? (text : String) : Option Nat := do
  let numbers ← (text.splitOn ".").mapM fun piece => pieceNumber? piece.toList
  let last ← numbers.getLast?
  ofNumbers? numbers.dropLast last

/-- Whether a piece is a decimal number without a zero before it. -/
def isPlainDecimal (piece : String) : Bool :=
  piece.toList.all Char.isDigit && (piece.length == 1 || !piece.startsWith "0")

/-- The two groups that four decimal numbers tell. -/
def dottedGroups? (text : String) : Option (List Nat) :=
  let pieces := text.splitOn "."
  if pieces.length = 4 ∧ pieces.all isPlainDecimal then
    (fourBytes? text).map fun value => [value >>> 16, value % 0x10000]
  else
    none

/-- The group that up to four hexadecimal digits tell. -/
def group? (text : String) : Option Nat :=
  if text ≠ "" ∧ text.length ≤ 4 then number? 16 text.toList else none

/-- The groups of texts; the last one may be four decimal numbers. -/
def groupsOf? : List String → Option (List Nat)
  | [] =>
      some []
  | [last] =>
      dottedGroups? last <|> (group? last).map fun group => [group]
  | text :: rest => do
      let group ← group? text
      let groups ← groupsOf? rest
      pure (group :: groups)

/-- The groups of a text, which has none if it is empty. -/
def groups? (text : String) : Option (List Nat) :=
  if text = "" then some [] else groupsOf? (text.splitOn ":")

/-- The address of sixteen bytes that a text tells. -/
def sixteenBytes? (text : String) : Option Nat :=
  match text.splitOn "::" with
  | [whole] => do
      let groups ← groups? whole
      if groups.length = 8 then some (joined 0x10000 groups) else none
  | [left, right] => do
      let before ← (if left = "" then some [] else (left.splitOn ":").mapM group?)
      let behind ← groups? right
      let given := before.length + behind.length
      if given < 8 then
        some (joined 0x10000 (before ++ List.replicate (8 - given) 0 ++ behind))
      else
        none
  | _ =>
      none

/-- The zone of the machine itself. -/
def ownZone : Nat :=
  1

/-- What the zone of the machine itself is called. -/
def ownZoneName : String :=
  "lo"

/-- No zone has a greater number. -/
def greatestZone : Nat :=
  0xffffffff

/-- Whether an address is that of one link. -/
def isOfLink (value : Nat) : Bool :=
  value >>> 118 == 0x3fa

/-- Whether an address is that of a group. -/
def isOfGroup (value : Nat) : Bool :=
  value >>> 120 == 0xff

/-- Whether an address is that of a zone, which a name may tell. -/
def isOfZone (value : Nat) : Bool :=
  isOfLink value || (isOfGroup value && [1, 2].contains ((value >>> 112) % 16))

/-- The zone of a number. -/
def zoneNumber? (text : String) : Option Nat :=
  if text ≠ "" ∧ text.toList.all Char.isDigit then
    (number? 10 text.toList).filter fun zone => zone ≤ greatestZone
  else
    none

/-- The zone of a number, or of a name if an address may have one. -/
def zone? (mayBeNamed : Bool) (text : String) : Option Nat :=
  if mayBeNamed && text == ownZoneName then some ownZone else zoneNumber? text

/-- The address of sixteen bytes that a text tells, whose zone may have a name or not. -/
def zoned? (mayBeNamed : Bool) (text : String) : Option Address :=
  match text.splitOn "%" with
  | [] =>
      none
  | [whole] =>
      (sixteenBytes? whole).map fun value => .sixteenBytes value 0
  | whole :: zones => do
      let value ← sixteenBytes? whole
      let zone ← zone? (mayBeNamed && isOfZone value) ("%".intercalate zones)
      pure (.sixteenBytes value zone)

/-- The text between brackets. -/
def bracketed? (text : String) : Option String :=
  match text.toList with
  | '[' :: rest => if rest.getLast? = some ']' then some (String.ofList rest.dropLast) else none
  | _ => none

/-- The address that a text tells. -/
def ofText? (text : String) : Option Address :=
  match bracketed? text with
  | some inner => zoned? false inner
  | none => (fourBytes? text).map .fourBytes <|> zoned? true text

/-- Why a server cannot be bound to four bytes: those of all addresses, of the machine
itself, of a group and of all machines are its own. -/
def fourBytesFault (value : Nat) : HostFault :=
  if value = 0 ∨ value >>> 24 = 127 ∨ value >>> 28 = 14 ∨ value = 0xffffffff then
    .noListener
  else
    .foreign

/-- Why a server cannot be bound to sixteen bytes: those of one link need a zone, and
those of a group are not for listening. -/
def sixteenBytesFault (value zone : Nat) : HostFault :=
  if value ≤ 1 then
    .noListener
  else if value >>> 32 = 0xffff then
    fourBytesFault (value % 0x100000000)
  else if isOfGroup value || (isOfLink value && zone == 0) then
    .unusable
  else if isOfLink value && zone != ownZone then
    .noZone
  else
    .foreign

/-- Why a server cannot be bound to an address. -/
def fault : Address → HostFault
  | .fourBytes value => fourBytesFault value
  | .sixteenBytes value zone => sixteenBytesFault value zone

end Address

namespace Host

/-- Whether a character may be part of a name. -/
def isNameChar (char : Char) : Bool :=
  char.isAlphanum || char == '-' || char == '_'

/-- Whether a text is a label of a name. -/
def isLabel (text : String) : Bool :=
  text ≠ "" && text.length ≤ 63 && text.toList.all isNameChar

/-- The labels of a name, which a point may end. -/
def labels (text : String) : List String :=
  match (text.splitOn ".").reverse with
  | "" :: before => before.reverse
  | whole => whole.reverse

/-- Whether a text is a name; a point alone is the name of the root. -/
def isName (text : String) : Bool :=
  let labels := labels text
  text == "." ||
    (labels ≠ [] && labels.all isLabel && (".".intercalate labels).length ≤ 253 &&
      !text.startsWith "-")

/-- Why a server cannot be bound to a host. -/
def fault (text : String) : HostFault :=
  if text.toList.contains '\x00' then
    .containsNul
  else
    match Address.ofText? text with
    | some address =>
        address.fault
    | none =>
        if text.toLower = "localhost" then
          .noListener
        else if isName text then
          .unknownName
        else
          .notName

end Host

end ActivityCatalog.Http
