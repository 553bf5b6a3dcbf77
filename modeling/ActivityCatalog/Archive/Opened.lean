import ActivityCatalog.Archive.Query
import ActivityCatalog.Files

namespace ActivityCatalog

/-!
# Open archives

An open archive is changed at once where it is held, and kept in its files besides.
Where there is an obstacle, each change is refused with it, but not to store a record
again.  What is only read refuses also to change nothing at all.

What was read once from a log is known from then on, whatever becomes of the log.

An archive that is opened at the location of another, in a memory or a cache that both
share, is the same archive.
-/

/--
How much of an archive is read: its schema versions, how many rows there are and which
is the main one, all rows, or also all by which rows are found, be it to look for some or
to change them.
-/
inductive ArchiveReading where
  | versions
  | summary
  | rows
  | keys
  | changes
  deriving Repr, DecidableEq

namespace ArchiveReading

/-- Everything that is read less than with another reading is read with that too. -/
def depth : ArchiveReading → Nat
  | .versions => 0
  | .summary => 1
  | .rows => 2
  | .keys | .changes => 3

/-- The table that is read. -/
def table : ArchiveReading → String
  | .versions => Layout.versionTable
  | .summary | .rows | .keys | .changes => Layout.rowTable

/-- The query that reads, if there is one that may fail. -/
def query? : ArchiveReading → Option Query
  | .summary => some .marked
  | .rows => some .all
  | .keys => some .keyed
  | .versions | .changes => none

end ArchiveReading

/-- The log of an open archive. -/
structure OpenLog where
  generation : Nat
  hasEntries : Bool
  isWhole : Bool
  isReadOnly : Bool
  hasIndex : Bool
  known : ArchiveReading
  deriving Repr, DecidableEq

/-- An archive that is open, the file that keeps it and the log that takes its changes. -/
structure OpenArchive where
  kept : KeptArchive
  location : ArchiveLocation
  place : Option Place
  generation : Nat
  log : Option OpenLog
  obstacle : Option ArchiveFault
  deriving Repr, DecidableEq

namespace OpenArchive

/-- The archive that is open. -/
def archive (opened : OpenArchive) : Archive :=
  opened.kept.archive

/-- A new archive in no file. -/
def transient (location : ArchiveLocation) : OpenArchive :=
  ⟨.fresh false, location, none, 0, none, none⟩

/-- How much is read of an archive at least, since the main activity is told by its row. -/
def effective (opened : OpenArchive) (reading : ArchiveReading) : ArchiveReading :=
  if reading == .summary && opened.archive.root?.isSome then .rows else reading

/-- The open archive with another content, as a file holds it. -/
def withKept (opened : OpenArchive) (kept : KeptArchive) : OpenArchive :=
  { opened with kept }

/-- The open archive with another content. -/
def withArchive (opened : OpenArchive) (archive : Archive) : OpenArchive :=
  { opened with kept := { opened.kept with archive } }

/-- Whether an archive is only read. -/
def isFixed (opened : OpenArchive) : Bool :=
  opened.location.isReadOnly || opened.kept.isSealed || opened.log.any OpenLog.isReadOnly

/-- Refuse what touches rows or not where there is an obstacle. -/
def checkWritable (opened : OpenArchive) (touches : Bool) : Except ArchiveFault Unit :=
  match opened.obstacle with
  | some obstacle => if touches || opened.isFixed then .error obstacle else .ok ()
  | none => .ok ()

/-- Refuse to store a row. -/
def checkFilled (opened : OpenArchive) : Except ArchiveFault Unit := do
  opened.kept.layout.checkFilled.mapError (.storage .use)
  opened.checkWritable true
  (opened.kept.layout.checkRequired Layout.rowTable Layout.filledColumns).mapError (.storage .use)

/-- Put a row after all others, taking away the one that had its key. -/
def putRow (opened : OpenArchive) (row : Row) : Except ArchiveFault OpenArchive := do
  opened.checkFilled
  pure (opened.withArchive (opened.archive.putRow row))

/-- The first schema version. -/
def firstVersion (opened : OpenArchive) : Except ArchiveFault Int :=
  match opened.archive.schemaVersions with
  | [] => .error .noRows
  | .integer version :: _ => .ok version
  | other :: _ =>
      let column := opened.kept.layout.versionColumnOf.toOption
      .error (.mistyped (column.elim Layout.versionColumn Column.name) other.kind)

/--
Set every schema version, or take all away for a negative one; with the archive goes how many
there were.
-/
def setSchemaVersion (opened : OpenArchive) (version : Int) :
    Except ArchiveFault (OpenArchive × Nat) := do
  let (archive, count) := opened.archive.setSchemaVersion version
  opened.checkWritable (archive != opened.archive)
  pure ({ opened with kept := opened.kept.withVersionsOf archive }, count)

/-- Take away every schema version; with the archive goes how many there were. -/
def dropSchemaVersion (opened : OpenArchive) : Except ArchiveFault (OpenArchive × Nat) := do
  let (archive, count) := opened.archive.dropSchemaVersion
  opened.checkWritable (archive != opened.archive)
  pure (opened.withArchive archive, count)

/-- Store a record, which is no change if its key is stored; with the archive goes the key. -/
def insert (opened : OpenArchive) (activity : Activity) :
    Except ArchiveFault (OpenArchive × Key) := do
  let (archive, key) ← opened.archive.insert activity
  if (opened.archive.row? key).isNone then
    opened.checkFilled
  pure (opened.withArchive archive, key)

/-- Whether designating the main activity touches rows. -/
def touchesRoot (opened : OpenArchive) (id : String) : Bool :=
  opened.archive.rows.any fun row => row.isRoot || row.key.id == id

/-- Designate the main activity. -/
def setRoot (opened : OpenArchive) (id : String) : Except ArchiveFault OpenArchive := do
  opened.checkWritable (opened.touchesRoot id)
  let archive ← opened.archive.setRoot id
  pure (opened.withArchive archive)

/-- Designate the main activity, if there is one to designate. -/
def setRoot? (opened : OpenArchive) : Option String → Except ArchiveFault OpenArchive
  | none =>
      .ok opened
  | some id =>
      opened.setRoot id

/-- Store a listing and designate its main activity; with the archive goes how many records. -/
def importListing (opened : OpenArchive) (listing : Listing) :
    Except ArchiveFault (OpenArchive × Nat) := do
  let stored ← listing.activities.foldlM
    (fun held activity => (held.insert activity).map Prod.fst) opened
  let designated ← stored.setRoot? listing.root
  pure (designated, listing.activities.length)

end OpenArchive

end ActivityCatalog
