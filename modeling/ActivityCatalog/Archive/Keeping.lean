import ActivityCatalog.Archive.Beside

namespace ActivityCatalog

/-!
# Keeping archives

A change of an archive is kept in its log, or without one in its file.  What is taken
away while an archive is open is lost to it: nothing is kept in a file that stands there
instead.  When an archive is closed that is open nowhere else, all that is in its log
goes to its file, and the log is taken away with its index.

The file of an archive without a log is read again each time the archive is used.
-/

namespace StoredFile

/-- The least length of a log from which an archive can be looked for. -/
def leastLog : Nat :=
  45352

/-- A log after entries were added at the end that it was left with. -/
def withEntries (file : StoredFile) (log : OpenLog) (kept : KeptArchive) : StoredFile :=
  match file with
  | .bytes content =>
      if log.hasEntries then
        .bytes (content ++ List.replicate (leastLog - content.length) 0)
      else
        .log kept log.isWhole
  | .log _ _ | .archive _ | .index | .sink =>
      .log kept log.isWhole

end StoredFile

namespace Files

/-- Keep an archive in its log. -/
def keepInLog (files : Files) (place : Place) (log : OpenLog) (kept : KeptArchive) : Files :=
  let logPlace := place.beside logEnding
  match files.nodeOf? logPlace log.generation with
  | some (.file content) =>
      files.putOf logPlace log.generation (.file (content.withEntries log kept))
  | _ =>
      files

/-- Keep an archive in its file, which settles its journal. -/
def keepInFile (files : Files) (place : Place) (generation : Nat) (kept : KeptArchive) : Files :=
  (files.dropBeside place journalEnding).putOf place generation (.file (.archive kept))

/-- Close the log of an archive. -/
def closeLog (files : Files) (place : Place) (log : OpenLog) : Files :=
  if log.isReadOnly then
    files
  else
    let filled : Files :=
      match files.node? (place.beside logEnding) with
      | some (.file (.log kept _)) => files.put place (.file (.archive kept))
      | _ => files
    let emptied := filled.dropBeside place logEnding
    if log.hasIndex then emptied.dropBeside place indexEnding else emptied

end Files

namespace OpenArchive

/-- Keep an archive that was changed; with it go the files afterwards. -/
def keep (opened : OpenArchive) (files : Files) : OpenArchive × Files :=
  match opened.place, opened.log with
  | none, _ =>
      (opened, files)
  | some place, none =>
      (opened, files.keepInFile place opened.generation opened.kept)
  | some place, some log =>
      ({ opened with log := some { log with hasEntries := true } },
        files.keepInLog place log opened.kept)

/-- Keep an archive if it is not as it was before. -/
def keepAfter (opened before : OpenArchive) (files : Files) : OpenArchive × Files :=
  if opened.kept == before.kept then (opened, files) else opened.keep files

/-- Close an archive that is open nowhere else. -/
def close (opened : OpenArchive) (files : Files) : Files :=
  match opened.place, opened.log with
  | some place, some log => files.closeLog place log
  | _, _ => files

end OpenArchive

namespace ArchiveUse

/-- The obstacle to changes of an archive that has no log, whose file was taken away or not. -/
def obstacle? (use : ArchiveUse) (kept : KeptArchive) (isLost : Bool) (files : Files) :
    Option ArchiveFault :=
  if use.location.isReadOnly || kept.isSealed || (isLost && use.location.isTracked) then
    some (.storage .use .readOnly)
  else if (files.node? use.place).isNone then
    some (.storage .use .diskFailure)
  else if use.lacksJournal files then
    some (.storage .use .cannotOpen)
  else
    none

/-- Read the file of an archive that has no log. -/
def readFile (use : ArchiveUse) (stage : ArchiveStage) (content : StoredFile) :
    Attempt KeptArchive := do
  use.checkLock stage
  if content.isBlank then
    use.dropLeftovers stage
  else
    use.settleJournal stage
    discard (use.checkLog stage content)
  Attempt.found stage content.kept

end ArchiveUse

namespace OpenArchive

/-- Read the file of an archive again, unless a log keeps it or the file never changes. -/
def readAgain (opened : OpenArchive) (stage : ArchiveStage) : Attempt OpenArchive := do
  match opened.place, opened.log.isSome || opened.location.isImmutable with
  | some place, false =>
      let use : ArchiveUse := ⟨opened.location, place, []⟩
      let isLost := opened.generation != (← get).generation place
      match (← get).nodeOf? place opened.generation with
      | some (.file content) =>
          let kept ← use.readFile stage content
          let obstacle := use.obstacle? kept isLost (← get)
          pure { opened with kept, obstacle }
      | _ =>
          pure opened
  | _, _ =>
      pure opened

/-- Read the log of an archive where it was not read before; what was written over it is lost. -/
def readLog (opened : OpenArchive) (reading : ArchiveReading) : Attempt OpenArchive := do
  match opened.place, opened.log with
  | some place, some log =>
      if !log.hasEntries || reading.depth ≤ log.known.depth then
        pure opened
      else
        match (← get).nodeOf? (place.beside Files.logEnding) log.generation with
        | some (.file (.bytes _)) =>
            Attempt.fail .use .diskFailure
        | _ =>
            pure { opened with log := some { log with known := reading } }
  | _, _ =>
      pure opened

/-- Reach an open archive to read of it. -/
def reach (opened : OpenArchive) (reading : ArchiveReading) : Attempt OpenArchive := do
  let reached ← opened.readAgain .use
  let layout := reached.kept.layout
  if (layout.table? reading.table).isNone then
    Attempt.fail .use (.noTable reading.table)
  Attempt.found .use ((reading.query?.map (·.check layout)).getD (.ok ()))
  reached.readLog (reached.effective reading)

end OpenArchive

end ActivityCatalog
