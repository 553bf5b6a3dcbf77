import ActivityCatalog.Archive.Opened

namespace ActivityCatalog

/-!
# Files beside archives

Beside an archive may stand a journal, which holds what was before a change, a log, which
takes changes before the archive does, the index of that log, and a lock.  All are named
for the archive.  An empty file is as good as none.

A journal that was left behind is taken away when the archive is used next, since
nothing is restored from it here; one that begins with a zero is no such journal.
-/

/-- What is done on files, which also a failure leaves changed. -/
abbrev Attempt :=
  ExceptT ArchiveFault (StateM Files)

namespace Attempt

/-- Fail in a stage. -/
def fail {Result : Type} (stage : ArchiveStage) (failure : StorageFailure) : Attempt Result :=
  throw (.storage stage failure)

/-- What was found, or a failure in a stage. -/
def found {Result : Type} (stage : ArchiveStage) :
    Except StorageFailure Result → Attempt Result
  | .ok result => pure result
  | .error failure => fail stage failure

/-- What was found, or a fault. -/
def checked {Result : Type} : Except ArchiveFault Result → Attempt Result
  | .ok result => pure result
  | .error fault => throw fault

/-- What was done, and the files after it. -/
def on {Result : Type} (attempt : Attempt Result) (files : Files) :
    Except ArchiveFault Result × Files :=
  attempt.run.run files

end Attempt

namespace Files

/-- What the name of a journal has after that of its archive. -/
def journalEnding : String :=
  "-journal"

/-- What the name of a log has after that of its archive. -/
def logEnding : String :=
  "-wal"

/-- What the name of the index of a log has after that of its archive. -/
def indexEnding : String :=
  "-shm"

/-- What the name of a lock has after that of its archive. -/
def lockEnding : String :=
  ".lock"

/-- Whether the name of a file beside an archive would be too long. -/
def isTooLong (place : Place) (ending : String) : Bool :=
  FileTree.greatestName < (place.beside ending).name.length

/-- What stands beside an archive, if it is no empty file. -/
def beside? (files : Files) (place : Place) (ending : String) : Option (FileNode StoredFile) :=
  match files.node? (place.beside ending) with
  | some (.file content) => if content.isEmpty then none else some (.file content)
  | other => other

/-- Whether a folder stands beside an archive. -/
def hasFolderBeside (files : Files) (place : Place) (ending : String) : Bool :=
  files.node? (place.beside ending) == some .folder

/-- Put a file beside an archive. -/
def putBeside (files : Files) (place : Place) (ending : String) (content : StoredFile) : Files :=
  files.put (place.beside ending) (.file content)

/-- Take away the file beside an archive, if there is one. -/
def dropBeside (files : Files) (place : Place) (ending : String) : Files :=
  match files.node? (place.beside ending) with
  | some (.file _) => files.vacate (place.beside ending)
  | _ => files

/-- The first byte of a file that has one. -/
def firstByte? : StoredFile → Option UInt8
  | .bytes content => content.head?
  | .archive _ | .log _ _ | .index | .sink => none

end Files

/-- An archive that is used: where it is, its place, and the others that are open. -/
structure ArchiveUse where
  location : ArchiveLocation
  place : Place
  others : List OpenArchive
  deriving Repr, DecidableEq

namespace ArchiveUse

/-- Whether an archive is only read. -/
def isRead (use : ArchiveUse) : Bool :=
  use.location.access == .read

/-- Another that has the same file open, and holds it by a log. -/
def rival? (use : ArchiveUse) (files : Files) : Option OpenArchive :=
  use.others.find? fun other =>
    other.place == some use.place && other.generation == files.generation use.place &&
      other.log.isSome

/-- Whether a journal cannot be written. -/
def lacksJournal (use : ArchiveUse) (files : Files) : Bool :=
  Files.isTooLong use.place Files.journalEnding ||
    files.hasFolderBeside use.place Files.journalEnding

/-- Whether something stands where the lock of an archive would. -/
def hasLock (use : ArchiveUse) (files : Files) : Bool :=
  (files.node? (use.place.beside Files.lockEnding)).isSome

/-- Whether a journal is taken for that of another use, which holds the lock. -/
def leavesJournal (use : ArchiveUse) (files : Files) : Bool :=
  use.location.isLockedBeside || (use.location.hasLockFile && use.hasLock files)

/-- Whether the journal of an archive that holds nothing is taken away. -/
def dropsJournal (use : ArchiveUse) (files : Files) : Bool :=
  (!use.isRead || use.location.isUnlocked) && !use.leavesJournal files &&
    (files.beside? use.place Files.journalEnding).isSome

/-- Refuse an archive that is locked by what stands beside it, or cannot be locked so. -/
def checkLock (use : ArchiveUse) (stage : ArchiveStage) : Attempt Unit := do
  if use.location.isLockedBeside then
    if Files.isTooLong use.place Files.lockEnding then
      Attempt.fail stage .diskFailure
    if use.hasLock (← get) then
      Attempt.fail stage .locked

/-- Settle the journal of an archive that holds something. -/
def settleJournal (use : ArchiveUse) (stage : ArchiveStage) : Attempt Unit := do
  let files ← get
  if !use.leavesJournal files then
    match files.beside? use.place Files.journalEnding with
    | none =>
        pure ()
    | some .folder =>
        Attempt.fail stage .diskFailure
    | some (.file content) =>
        if (files.node? use.place).isNone then
          Attempt.fail stage .diskFailure
        else if Files.firstByte? content == some 0 then
          pure ()
        else if use.isRead then
          Attempt.fail stage .readOnly
        else if (use.rival? files).isSome then
          Attempt.fail stage .locked
        else
          set (files.dropBeside use.place Files.journalEnding)

/-- Take away the journal and the log of an archive that holds nothing. -/
def dropLeftovers (use : ArchiveUse) (stage : ArchiveStage) : Attempt Unit := do
  let files ← get
  let settled :=
    if use.dropsJournal files then files.dropBeside use.place Files.journalEnding else files
  match settled.beside? use.place Files.logEnding with
  | none =>
      set settled
  | some .folder =>
      set settled
      Attempt.fail stage .diskFailure
  | some (.file _) =>
      set (settled.dropBeside use.place Files.logEnding)

/-- Whether an archive that holds something has a log, which only some may have. -/
def checkLog (use : ArchiveUse) (stage : ArchiveStage) (content : StoredFile) :
    Attempt Bool := do
  let files ← get
  let node := files.beside? use.place Files.logEnding
  if node.isNone && !content.keepsLog then
    pure false
  else if !use.location.allowsLog || node == some .folder then
    Attempt.fail stage .cannotOpen
  else
    pure true

end ArchiveUse

end ActivityCatalog
