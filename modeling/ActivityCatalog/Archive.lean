import ActivityCatalog.Archive.Fault
import ActivityCatalog.Listing

namespace ActivityCatalog

/-!
# Archives

An archive keeps records as JSON texts, one row under each key, in the order in
which they were stored.  Storing a record again changes nothing if it equals the
stored one and is a conflict otherwise.  The main activity is designated by a
flag on all rows of its id.

An operation gives the archive after it, or a fault and thereby no change: a
listing is stored as a whole or not at all.
-/

/-- A row of an archive. -/
structure Row where
  key : Key
  payload : Cell
  isRoot : Bool
  deriving Repr, DecidableEq

/-- Rows in the order in which they were stored, and the versions of their schema. -/
structure Archive where
  rows : List Row
  schemaVersions : List Cell
  deriving Repr, DecidableEq

namespace Archive

/-- The schema version of the archives made here. -/
def currentSchema : Int :=
  1

/-- The greatest number that is read as a schema version. -/
def greatestSchema : Int :=
  0xffffffff

/-- The archive without rows. -/
def empty : Archive :=
  ⟨[], []⟩

/-- The schema version of the first row that tells one, if it can be read. -/
def schemaVersion? (archive : Archive) : Option Int :=
  (archive.schemaVersions.head?.bind Cell.integer?).filter fun version =>
    0 ≤ version && version ≤ greatestSchema

/-- Open an archive: a schema version that is not there is added, a newer one refused. -/
def opened (archive : Archive) : Except ArchiveFault Archive :=
  match archive.schemaVersion? with
  | none =>
      .ok { archive with schemaVersions := archive.schemaVersions ++ [.integer currentSchema] }
  | some version =>
      if currentSchema < version then .error (.newerSchema version currentSchema) else .ok archive

/-- A new archive, opened. -/
def fresh : Archive :=
  ⟨[], [.integer currentSchema]⟩

/-- Take away every schema version; with the archive goes how many there were. -/
def dropSchemaVersion (archive : Archive) : Archive × Nat :=
  ({ archive with schemaVersions := [] }, archive.schemaVersions.length)

/--
Set every schema version; with the archive goes how many there were.  A negative number is no
schema version that could be set, and takes them away.
-/
def setSchemaVersion (archive : Archive) (version : Int) : Archive × Nat :=
  if version < 0 then
    archive.dropSchemaVersion
  else
    ({ archive with schemaVersions := archive.schemaVersions.map fun _ => .integer version },
      archive.schemaVersions.length)

/-- The row under a key. -/
def row? (archive : Archive) (key : Key) : Option Row :=
  archive.rows.find? fun row => row.key == key

/-- The number of rows. -/
def count (archive : Archive) : Nat :=
  archive.rows.length

/-- Put a row after all others, taking away the one that had its key. -/
def putRow (archive : Archive) (row : Row) : Archive :=
  { archive with rows := archive.rows.filter (fun held => held.key != row.key) ++ [row] }

/-- The record of a text that is stored. -/
def readText (text : String) : Except ArchiveFault Activity :=
  (Activity.ofText text).mapError .corruptPayload

/-- The record of a row. -/
def readRow (row : Row) : Except ArchiveFault Activity :=
  match row.payload with
  | .text text => readText text
  | other => .error (.mistypedPayload other.kind)

/-- Store a record; with the archive goes its key. -/
def insert (archive : Archive) (activity : Activity) : Except ArchiveFault (Archive × Key) :=
  match activity.key? with
  | none => .error .missingId
  | some key =>
      match (archive.row? key).map Row.payload with
      | none =>
          let row : Row := ⟨key, .text activity.text, false⟩
          .ok ({ archive with rows := archive.rows ++ [row] }, key)
      | some (.text text) => do
          let stored ← readText text
          if stored.same activity then
            pure (archive, key)
          else
            throw (.conflict key)
      | some other =>
          .error (.mistyped "payload" other.kind)

/-- Designate the main activity, all of whose rows are flagged then and no others. -/
def setRoot (archive : Archive) (id : String) : Except ArchiveFault Archive :=
  if archive.rows.any fun row => row.key.id == id then
    .ok { archive with rows := archive.rows.map fun row =>
      { row with isRoot := row.key.id == id } }
  else
    .error (.notStored id)

/-- Designate the main activity, if there is one to designate. -/
def setRoot? (archive : Archive) : Option String → Except ArchiveFault Archive
  | none =>
      .ok archive
  | some id =>
      archive.setRoot id

/-- Store a listing and designate its main activity; with the archive goes how many records. -/
def importListing (archive : Archive) (listing : Listing) :
    Except ArchiveFault (Archive × Nat) := do
  let stored ← listing.activities.foldlM
    (fun held activity => (held.insert activity).map Prod.fst) archive
  let designated ← stored.setRoot? listing.root
  pure (designated, listing.activities.length)

/-- The id of the main activity. -/
def root? (archive : Archive) : Option String :=
  (archive.rows.find? Row.isRoot).map fun row => row.key.id

/-- All records in the order in which they were stored. -/
def list (archive : Archive) : Except ArchiveFault (List Activity) :=
  archive.rows.mapM readRow

/-- All records and the id of the main activity. -/
def listing (archive : Archive) : Except ArchiveFault Listing := do
  let activities ← archive.list
  pure ⟨archive.root?, activities⟩

end Archive

end ActivityCatalog
