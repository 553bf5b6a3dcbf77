import ActivityCatalog.Archive.Cell
import ActivityCatalog.Archive.Location
import ActivityCatalog.Fault
import ActivityCatalog.FileTree

namespace ActivityCatalog

/-!
# Faults of archives

An archive is opened, prepared, laid out and marked with its schema version, and used
afterwards; what fails about its files is told with the stage.

To the directory that has its listing from an archive, a record that is not stored is
not found, a conflict is a version stored twice, unusable records are malformed, and in
all other cases the source is unavailable.
-/

/-- What is done with an archive. -/
inductive ArchiveStage where
  | opening
  | preparation
  | layout
  | marking
  | use
  deriving Repr, DecidableEq

/-- Why the files of an archive do not serve. -/
inductive StorageFailure where
  | notArchive
  | malformed
  | malformedLayout (name : String) (detail : Option String)
  | unknownFormat
  | locked
  | cannotOpen
  | diskFailure
  | readOnly
  | noTable (name : String)
  | noColumn (column statements : String) (offset : Nat)
  | noColumnToFill (table column : String)
  | nullRefused (table column : String)
  | nameOfIndex (name : String)
  | nameOfTable (name : String)
  | indexedView
  | changedView (name : String)
  deriving Repr, DecidableEq

/-- Why an operation on an archive fails. -/
inductive ArchiveFault where
  | newerSchema (version supported : Int)
  | badLocation (fault : LocationFault)
  | cannotOpen (path : String)
  | storage (stage : ArchiveStage) (failure : StorageFailure)
  | cannotMakeFolder (fault : FileFault)
  | mistyped (column : String) (kind : CellKind)
  | noRows
  | notStored (id : String)
  | conflict (key : Key)
  | missingId
  | corruptPayload (error : Json.ReadError)
  | mistypedPayload (kind : CellKind)
  deriving Repr, DecidableEq

/-- What is said of a stage in front of its faults. -/
def ArchiveStage.heading : ArchiveStage → String
  | .preparation => "pragmas: "
  | .layout => "schema: "
  | .marking => "schema version: "
  | .opening | .use => ""

/-- The text of a failure. -/
def StorageFailure.message : StorageFailure → String
  | .notArchive =>
      "file is not a database"
  | .malformed =>
      "database disk image is malformed"
  | .malformedLayout name detail =>
      "malformed database schema (" ++ name ++ ")" ++ detail.elim "" (" - " ++ ·)
  | .unknownFormat =>
      "unsupported file format"
  | .locked =>
      "database is locked"
  | .cannotOpen =>
      "unable to open database file"
  | .diskFailure =>
      "disk I/O error"
  | .readOnly =>
      "attempt to write a readonly database"
  | .noTable name =>
      "no such table: " ++ name
  | .noColumn column statements offset =>
      "no such column: " ++ column ++ " in " ++ statements ++ " at offset " ++ toString offset
  | .noColumnToFill table column =>
      "table " ++ table ++ " has no column named " ++ column
  | .nullRefused table column =>
      "NOT NULL constraint failed: " ++ table ++ "." ++ column
  | .nameOfIndex name =>
      "there is already an index named " ++ name
  | .nameOfTable name =>
      "there is already a table named " ++ name
  | .indexedView =>
      "views may not be indexed"
  | .changedView name =>
      "cannot modify " ++ name ++ " because it is a view"

namespace ArchiveFault

/-- What is said of a cell of another kind than expected. -/
def mistypedDetail (column : String) (kind : CellKind) : String :=
  "Invalid column type " ++ kind.name ++ " at index: 0, name: " ++ column

/-- The text of a fault. -/
def message : ArchiveFault → String
  | .newerSchema version supported =>
      "database error: schema version " ++ toString version ++
        " is newer than supported " ++ toString supported
  | .badLocation fault =>
      "database error: " ++ fault.message
  | .cannotOpen path =>
      "database error: unable to open database file: " ++ path
  | .storage stage failure =>
      "database error: " ++ stage.heading ++ failure.message
  | .cannotMakeFolder fault =>
      "IO error: create dir: " ++ fault.message
  | .mistyped column kind =>
      "database error: " ++ mistypedDetail column kind
  | .noRows =>
      "database error: Query returned no rows"
  | .notStored id =>
      "not found: activity " ++ id
  | .conflict key =>
      "conflict: activity " ++ key.text ++ " already stored with different content"
  | .missingId =>
      "invalid record: activity has no id"
  | .corruptPayload error =>
      "corrupt row in activity_versions.payload: invalid activity JSON: " ++ error.message
  | .mistypedPayload kind =>
      "corrupt row in activity_versions.payload: " ++ mistypedDetail "payload" kind

/-- The fault of the directory whose source has the fault. -/
def toDirectoryFault (fault : ArchiveFault) : DirectoryFault :=
  match fault with
  | .notStored id => .noActivity id
  | .conflict key => .invalid (.duplicateVersion key)
  | .missingId | .corruptPayload _ | .mistypedPayload _ =>
      .invalid (.malformed fault.message)
  | .newerSchema _ _ | .badLocation _ | .cannotOpen _ | .storage _ _ | .cannotMakeFolder _
  | .mistyped _ _ | .noRows =>
      .unavailable fault.message

end ArchiveFault

end ActivityCatalog
