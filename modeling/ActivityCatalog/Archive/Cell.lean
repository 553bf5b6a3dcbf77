namespace ActivityCatalog

/-!
# Cells

A cell of an archive holds a number, a text, bytes or nothing.  The type that is told
of a column gives it an affinity, by which numbers that are stored in it may become
texts or fractions.
-/

/-- What kind of thing a cell holds. -/
inductive CellKind where
  | null
  | integer
  | real
  | text
  | bytes
  deriving Repr, DecidableEq

/-- A cell; a fraction is told by the bits of its double. -/
inductive Cell where
  | null
  | integer (value : Int)
  | real (bits : UInt64)
  | text (text : String)
  | bytes (bytes : List UInt8)
  deriving Repr, DecidableEq

/-- What a column makes of numbers. -/
inductive Affinity where
  | integer
  | text
  | real
  | none
  deriving Repr, DecidableEq

/-- What a kind is called. -/
def CellKind.name : CellKind → String
  | .null => "Null"
  | .integer => "Integer"
  | .real => "Real"
  | .text => "Text"
  | .bytes => "Blob"

namespace Cell

/-- The kind of a cell. -/
def kind (cell : Cell) : CellKind :=
  match cell with
  | .null => .null
  | .integer _ => .integer
  | .real _ => .real
  | .text _ => .text
  | .bytes _ => .bytes

/-- The whole number of a cell. -/
def integer? : Cell → Option Int
  | .integer value => some value
  | _ => none

/-- The text of a cell. -/
def text? : Cell → Option String
  | .text content => some content
  | _ => none

/-- Whether a cell holds the number one. -/
def isOne : Cell → Bool
  | .integer value => value == 1
  | .real bits => bits == (Float.ofInt 1).toBits
  | _ => false

end Cell

namespace Affinity

/-- The affinity of a column by the type that is told of it. -/
def ofType (type : String) : Affinity :=
  let capitals := type.toUpper
  let mentions (part : String) : Bool := 1 < (capitals.splitOn part).length
  if mentions "INT" then .integer
  else if ["CHAR", "CLOB", "TEXT"].any mentions then .text
  else if mentions "BLOB" || capitals.isEmpty then .none
  else if ["REAL", "FLOA", "DOUB"].any mentions then .real
  else .integer

/-- What a cell holds after a whole number is stored in it. -/
def stored (affinity : Affinity) (value : Int) : Cell :=
  match affinity with
  | .integer | .none => .integer value
  | .text => .text (toString value)
  | .real => .real (Float.ofInt value).toBits

/-- Whether a cell holds the number one, which may stand as a text. -/
def isOne (affinity : Affinity) (cell : Cell) : Bool :=
  match affinity, cell with
  | .text, .text content => content == toString (1 : Nat)
  | _, held => held.isOne

/-- What is read from a cell, where a whole number may stand for a fraction. -/
def read (affinity : Affinity) (cell : Cell) : Cell :=
  match affinity, cell with
  | .real, .integer value => .real (Float.ofInt value).toBits
  | _, held => held

end Affinity

end ActivityCatalog
