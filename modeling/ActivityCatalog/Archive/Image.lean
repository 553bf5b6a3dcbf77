import ActivityCatalog.Archive.Image.Definition
import ActivityCatalog.Archive.Image.Page
import ActivityCatalog.Archive.Kept

namespace ActivityCatalog

/-!
# Images of archives

The first tree of an image lists what is laid out: each object with its kind, its name,
the first page of its tree and the text that defines it.  An archive is read from the
trees of its two tables; a column that is missing in a row is null.
-/

/-- An object as an image lists it, with the first page of its tree. -/
structure ListedObject where
  object : LaidObject
  root : Nat
  deriving Repr, DecidableEq

namespace Image

/-- The kind of an object that is told by a text. -/
def kindOf? : String → Option ObjectKind
  | "table" => some .table
  | "index" => some .index
  | "view" => some .view
  | _ => none

/-- Whether a text defines an object. -/
def isDefinition (text : String) : Bool :=
  "cr".toList.isPrefixOf (text.toLower).toList

/-- The first page of a tree that a cell tells, where only some objects have none. -/
def rootOf? (image : Image) (mayBeNone : Bool) (cell : Cell) : Option Nat :=
  let least := if mayBeNone then 0 else 2
  let told := cell.integer?.filter fun root => 0 ≤ root
  (told.map Int.toNat).filter fun root => least ≤ root && root ≤ image.pageCount

/-- The listed object of a row, unless it is of a kind that does not matter. -/
def listedOf (image : Image) (cells : List Cell) :
    Except StorageFailure (Option ListedObject) :=
  let textAt (index : Nat) : Option String := cells[index]?.bind Cell.text?
  let cell := cells[3]?.getD .null
  let name := (textAt 1).getD "?"
  let definition := (textAt 4).getD ""
  if cell == .null || (definition != "" && !isDefinition definition) then
    .error (.malformedLayout name none)
  else
    match image.rootOf? (definition != "") cell with
    | none =>
        .error (.malformedLayout name (some "invalid rootpage"))
    | some root =>
        let kind := (textAt 0).bind kindOf?
        let columns := if kind == some .table then Definition.columnsOf definition else []
        .ok (kind.map fun kind => ⟨⟨kind, name, columns⟩, root⟩)

/-- The objects that an image lists. -/
def listed (image : Image) : Except StorageFailure (List ListedObject) :=
  match image.rows? 1 with
  | none =>
      .error .malformed
  | some rows => do
      let objects ← rows.mapM fun row => image.listedOf row.2
      pure (objects.filterMap id)

/-- The cell of a row in the column of a name. -/
def cellIn (columns : List Column) (row : NumberedRow) (name : String) : Cell :=
  let placed := columns.zipIdx.find? fun column => Layout.isSame column.1.name name
  match placed with
  | none =>
      .null
  | some (column, index) =>
      match column.isRowNumber, row.2[index]?.getD .null with
      | true, .null => .integer row.1
      | _, cell => column.affinity.read cell

/-- Whether a row is marked in the column of a name. -/
def isMarkedIn (columns : List Column) (row : NumberedRow) (name : String) : Bool :=
  let column := columns.find? fun column => Layout.isSame column.name name
  column.any fun column => column.affinity.isOne (cellIn columns row name)

/-- The row of an archive that a row of its table tells. -/
def archiveRowOf (columns : List Column) (row : NumberedRow) : Row :=
  let textIn (name : String) := (cellIn columns row name).text?.getD ""
  { key := ⟨textIn "id", textIn "version"⟩,
    payload := cellIn columns row "payload",
    isRoot := isMarkedIn columns row "is_root" }

/-- Read what every row of a table tells; a table that is not there has no rows. -/
def readTable {Result : Type} (image : Image) (objects : List ListedObject) (name : String)
    (read : List Column → NumberedRow → Result) : Except StorageFailure (List Result) :=
  let found := objects.find? fun listed =>
    listed.object.kind == .table && Layout.isSame listed.object.name name
  match found with
  | none =>
      .ok []
  | some listed =>
      match image.rows? listed.root with
      | none => .error .malformed
      | some rows => .ok (rows.map (read listed.object.columns))

/-- Read the archive of an image. -/
def archive (image : Image) : Except StorageFailure KeptArchive := do
  let objects ← image.listed
  let rows ← image.readTable objects Layout.rowTable archiveRowOf
  let schemaVersions ← image.readTable objects Layout.versionTable
    fun columns row => cellIn columns row Layout.versionColumn
  pure
    { archive := ⟨rows, schemaVersions⟩,
      layout := objects.map ListedObject.object,
      keepsLog := image.keepsLog,
      isSealed := image.isSealed,
      canGrow := image.canGrow }

end Image

/-- Read the archive that bytes are an image of. -/
def KeptArchive.ofBytes (bytes : List UInt8) : Except StorageFailure KeptArchive := do
  let image ← Image.ofBytes bytes
  image.archive

end ActivityCatalog
