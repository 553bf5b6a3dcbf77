import ActivityCatalog.Archive.Keeping

namespace ActivityCatalog

/-!
# Opening archives

An archive is opened under a path or an address, after the folders that lead to the
path are made.  The way to its file is read by name alone: `..` takes the name before
it away, whatever stands there.  A file that is missing, or has at most one byte, is a
new archive.

Wherever a log may take the changes of an archive, one is begun, and the file is marked
with it.  What a log holds counts, and not what stands in the file besides.  While
another has the file open, its entries of the log are all that counts.
-/

namespace ArchiveUse

/-- Whether the index of the log can be used but not changed, or why it cannot be used. -/
def checkIndex (use : ArchiveUse) (stage : ArchiveStage) : Attempt Bool := do
  let files ← get
  if !use.location.hasIndexFile then
    pure false
  else
    match files.node? (use.place.beside Files.indexEnding), use.location.isIndexReadOnly with
    | none, true =>
        Attempt.fail stage .cannotOpen
    | some (.file _), true | some .folder, _ =>
        pure true
    | some (.file _), false | none, false =>
        set (files.putBeside use.place Files.indexEnding .index)
        pure false

/-- Begin the log of an archive. -/
def beginLog (use : ArchiveUse) (stage : ArchiveStage) : Attempt OpenLog := do
  let files ← get
  if Files.isTooLong use.place Files.logEnding then
    Attempt.fail stage .cannotOpen
  if (files.node? (use.place.beside Files.logEnding)).isNone then
    set (files.putBeside use.place Files.logEnding (.bytes []))
  let generation := files.generation (use.place.beside Files.logEnding)
  match (use.rival? files).bind OpenArchive.log with
  | some log =>
      pure { log with generation, known := .versions }
  | none =>
      let isFixed ← use.checkIndex stage
      let hasIndex := use.location.hasIndexFile
      pure ⟨generation, false, false, use.isRead || isFixed, hasIndex, .versions⟩

/-- What the log and the file of an archive hold, and the log that holds it. -/
def readLogged (use : ArchiveUse) (log : OpenLog) (content : StoredFile) :
    Attempt (KeptArchive × OpenLog) := do
  let files ← get
  match files.node? (use.place.beside Files.logEnding), log.hasEntries with
  | some (.file (.log kept isWhole)), _ =>
      if !isWhole then
        discard (Attempt.found .preparation content.kept)
      pure (kept, { log with hasEntries := true, isWhole })
  | some (.file (.bytes entries)), true =>
      let isShort := entries.length < StoredFile.leastLog
      Attempt.fail .preparation (if isShort then .diskFailure else .notArchive)
  | _, _ =>
      let kept ← Attempt.found .preparation content.kept
      let isNew := kept == .blank true
      pure (kept, { log with isWhole := isNew, known := if isNew then .keys else log.known })

/-- Open what is kept of an archive, and keep what had to be added. -/
def openKept (use : ArchiveUse) (kept : KeptArchive) (log : Option OpenLog) :
    Attempt OpenArchive := do
  let files ← get
  let isFixed := use.location.isReadOnly || kept.isSealed || log.any OpenLog.isReadOnly
  let opened ← Attempt.checked (kept.opened isFixed)
  let obstacle :=
    if isFixed then some (.storage .use .readOnly)
    else if log.isSome then none
    else use.obstacle? kept false files
  let before : OpenArchive :=
    ⟨kept, use.location, some use.place, files.generation use.place, log, obstacle⟩
  if opened != kept && log.isNone && use.lacksJournal files then
    Attempt.fail .layout .cannotOpen
  let (archive, kept) := (before.withKept opened).keepAfter before files
  set kept
  pure archive

/-- Open an archive whose changes go to a log. -/
def openLogged (use : ArchiveUse) (stage : ArchiveStage) (content : StoredFile) :
    Attempt OpenArchive := do
  let hasRival := (use.rival? (← get)).isSome
  let log ← use.beginLog stage
  tryCatch
    (do
      let (kept, log) ← use.readLogged log content
      use.openKept kept (some log))
    fun fault => do
      if !hasRival then
        modify fun files => files.closeLog use.place log
      throw fault

/-- Mark the file of an archive whose changes will go to a log. -/
def markLogged (use : ArchiveUse) (kept : KeptArchive) : Attempt OpenArchive := do
  let files ← get
  if use.isRead || kept.isSealed then
    Attempt.fail .preparation .readOnly
  if (use.rival? files).isSome then
    Attempt.fail .preparation .locked
  if use.lacksJournal files then
    Attempt.fail .preparation .cannotOpen
  let marked := { kept with keepsLog := true }
  set (files.keepInFile use.place (files.generation use.place) marked)
  use.openLogged .layout (.archive marked)

/-- Open an archive whose changes may go to a log. -/
def openForLog (use : ArchiveUse) (content : StoredFile) : Attempt OpenArchive := do
  if content.isBlank then
    use.dropLeftovers .preparation
    use.markLogged (.blank false)
  else
    use.settleJournal .preparation
    if ← use.checkLog .preparation content then
      use.openLogged .preparation content
    else
      use.markLogged (← Attempt.found .preparation content.kept)

/-- Open the archive that a file holds. -/
def openFile (use : ArchiveUse) (content : StoredFile) : Attempt OpenArchive := do
  if use.location.isImmutable then
    use.openKept (← Attempt.found .preparation content.kept) none
  else if use.location.allowsLog then
    use.openForLog content
  else
    use.openKept (← use.readFile .preparation content) none

/-- Open a new archive in a sink, which fails at last since nothing is kept. -/
def openSink (use : ArchiveUse) : Attempt OpenArchive :=
  if use.location.isImmutable then
    Attempt.fail .layout .readOnly
  else
    Attempt.fail .preparation (if use.isRead then .readOnly else .diskFailure)

/-- Refuse a file whose mode should be that of one that is missing. -/
def checkModeFile (use : ArchiveUse) : Attempt Unit := do
  let files ← get
  if use.location.modeFile.any fun path => !files.contains path then
    Attempt.fail .opening .diskFailure

/-- Open the archive in a place; what it was called is told if there can be no file. -/
def openPlace (use : ArchiveUse) (text : String) : Attempt OpenArchive := do
  use.checkModeFile
  let files ← get
  match files.visit use.place with
  | .ok (.file .sink) =>
      use.openSink
  | .ok (.file content) =>
      use.openFile content
  | .ok .folder =>
      if use.isRead then
        Attempt.fail .opening .diskFailure
      else
        throw (.cannotOpen text)
  | .error .notFound =>
      match use.location.access, files.visit use.place.parent with
      | .create, .ok .folder =>
          set (files.put use.place (.file (.bytes [])))
          use.openFile (.bytes [])
      | _, _ =>
          throw (.cannotOpen text)
  | .error _ =>
      throw (.cannotOpen text)

end ArchiveUse

namespace Files

/-- No path of an archive has more bytes. -/
def greatestArchivePath : Nat :=
  480

/-- The place that one more piece names, unless a name before it is that of a file. -/
def nameNext? (files : Files) (place : Place) (piece : FileName) : Option Place :=
  let next := FilePath.goOn place piece
  match files.visit next with
  | .ok _ | .error .notFound => some next
  | .error _ => none

/-- The place that a path names, which is not the top. -/
def nameOf? (files : Files) (path : FilePath) : Option Place := do
  let place ← (FilePath.pieces path).foldlM files.nameNext? (FilePath.start path)
  if place == .top || greatestArchivePath < place.path.length then
    none
  else
    some place

end Files

namespace OpenArchive

/-- Open again an archive that is open. -/
def openAgain (opened : OpenArchive) : Attempt OpenArchive := do
  let reached ← opened.readAgain .preparation
  let kept ← Attempt.checked (reached.kept.opened reached.obstacle.isSome)
  let (archive, files) := (reached.withKept kept).keepAfter reached (← get)
  set files
  pure archive

/-- Open an archive that is forgotten when it is closed. -/
def openTransient (location : ArchiveLocation) : Attempt OpenArchive :=
  if location.isReadOnly then Attempt.fail .layout .readOnly else pure (.transient location)

/-- Open the archive at a location, where others are open. -/
def ofLocation (text : String) (location : ArchiveLocation) (others : List OpenArchive) :
    Attempt OpenArchive := do
  let files ← get
  let joined := others.find? fun other => location.joins other.location
  match location.isTransient, files.nameOf? location.path with
  | true, _ =>
      joined.elim (openTransient location) openAgain
  | false, none =>
      throw (.cannotOpen text)
  | false, some place =>
      joined.elim ((⟨location, place, others⟩ : ArchiveUse).openPlace text) openAgain

/-- Open the archive that a text tells, and make the folders that lead there first. -/
def ofText (text : String) (others : List OpenArchive) : Attempt OpenArchive := do
  let (made, files) := (← get).makeParents (FilePath.ofText text)
  set files
  Attempt.checked (made.mapError .cannotMakeFolder)
  let location ← Attempt.checked ((ArchiveLocation.ofText text).mapError .badLocation)
  ofLocation text location others

end OpenArchive

end ActivityCatalog
