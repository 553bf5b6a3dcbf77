import ActivityCatalog.Archive
import ActivityCatalog.Archive.Layout

namespace ActivityCatalog

/-!
# Archives in files

A file that holds an archive says besides what is laid out in it, whether changes go to
a log beside it first, whether it may not be changed at all, and whether anything can be
added to what is laid out.
-/

/-- An archive as a file holds it. -/
structure KeptArchive where
  archive : Archive
  layout : Layout
  keepsLog : Bool
  isSealed : Bool
  canGrow : Bool
  deriving Repr, DecidableEq

namespace KeptArchive

/-- An archive in which nothing is laid out yet. -/
def blank (keepsLog : Bool) : KeptArchive :=
  ⟨.empty, [], keepsLog, false, true⟩

/-- A new archive, opened. -/
def fresh (keepsLog : Bool) : KeptArchive :=
  ⟨.fresh, Layout.standard, keepsLog, false, true⟩

/-- The archive with other schema versions, stored as their column has them. -/
def withVersionsOf (kept : KeptArchive) (archive : Archive) : KeptArchive :=
  let schemaVersions := kept.layout.storedVersions archive.schemaVersions
  { kept with archive := { archive with schemaVersions } }

/-- Why nothing can be laid out, if so. -/
def refusal? (isReadOnly : Bool) (kept : KeptArchive) : Option StorageFailure :=
  if isReadOnly then some .readOnly
  else if kept.canGrow then none
  else some .malformed

/-- Lay out what is missing. -/
def laidOut (isReadOnly : Bool) (kept : KeptArchive) : Except ArchiveFault KeptArchive := do
  let refusal := kept.refusal? isReadOnly
  let layout ← (kept.layout.completed refusal).mapError (.storage .layout)
  pure { kept with layout }

/-- Mark an archive with a schema version, unless it tells one that is no newer. -/
def marked (isReadOnly : Bool) (kept : KeptArchive) : Except ArchiveFault KeptArchive := do
  let archive ← kept.archive.opened
  if archive == kept.archive then
    pure kept
  else
    let _ ← kept.layout.versionColumnOf.mapError (.storage .marking)
    if isReadOnly then
      throw (.storage .marking .readOnly)
    (kept.layout.checkRequired Layout.versionTable [Layout.versionColumn]).mapError
      (.storage .marking)
    pure (kept.withVersionsOf archive)

/-- Lay out and mark an archive. -/
def opened (isReadOnly : Bool) (kept : KeptArchive) : Except ArchiveFault KeptArchive := do
  let laidOut ← kept.laidOut isReadOnly
  laidOut.marked isReadOnly

end KeptArchive

end ActivityCatalog
