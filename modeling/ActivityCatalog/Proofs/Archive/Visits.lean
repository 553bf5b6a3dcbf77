import ActivityCatalog.Proofs.Archive.AtRest

namespace ActivityCatalog

/-!
# Opening and closing an archive keeps its rows

Whatever stands in the file of an archive that is not open, be it laid out or not, sealed, marked
for a log or no archive at all, its rows are the same after it was opened and closed again.  What
opening adds goes to the log that is begun, and closing puts it from there into the file.  Where
opening fails, the log is taken away again.
-/

namespace Attempt

variable
  {Result Next : Type}
  {attempt : Attempt Result}
  {files after : Files}
  {fault : ArchiveFault}

theorem on_bind_error
    {next : Result → Attempt Next}
    (failed : attempt.on files = (.error fault, after)) :
    (attempt >>= next).on files = (.error fault, after) :=
  run_bind_error failed

theorem on_tryCatch_error
    {handle : ArchiveFault → Attempt Result}
    (failed : attempt.on files = (.error fault, after)) :
    (tryCatch attempt handle : Attempt Result).on files = (handle fault).on after := by
  simp only [Attempt.on] at failed ⊢
  rw [ExceptT.run_tryCatch, StateT.run_bind, failed]
  rfl

end Attempt

namespace KeptArchive

variable
  {kept after : KeptArchive}
  {isReadOnly : Bool}

/-- Only what is laid out and the schema versions may change when an archive is opened. -/
theorem exists_of_opened (opens : kept.opened isReadOnly = .ok after) :
    ∃ layout schemaVersions,
      after = { kept with archive := ⟨kept.archive.rows, schemaVersions⟩, layout } := by
  obtain ⟨laidOut, isLaidOut, isMarked⟩ := bind_eq_ok.mp opens
  obtain ⟨layout, -, finished⟩ := bind_eq_ok.mp isLaidOut
  cases finished
  obtain ⟨archive, archiveOpened, rest⟩ := bind_eq_ok.mp isMarked
  have sameRows : archive.rows = kept.archive.rows := by
    unfold Archive.opened at archiveOpened
    split at archiveOpened
    · cases archiveOpened
      rfl
    · split at archiveOpened
      · cases archiveOpened
      · cases archiveOpened
        rfl
  split at rest
  · cases rest
    exact ⟨layout, kept.archive.schemaVersions, rfl⟩
  · obtain ⟨_, -, rest⟩ := bind_eq_ok.mp rest
    cases isReadOnly with
    | true =>
        cases rest
    | false =>
        obtain ⟨_, -, finished⟩ := bind_eq_ok.mp rest
        cases finished
        rw [← sameRows]
        exact ⟨layout, _, rfl⟩

/-- What is laid out and marked in an archive that is opened leaves its rows. -/
theorem rows_of_opened (opens : kept.opened isReadOnly = .ok after) :
    after.archive.rows = kept.archive.rows := by
  obtain ⟨layout, schemaVersions, rfl⟩ := exists_of_opened opens
  rfl

/-- An archive is marked for a log as before when it was opened. -/
theorem keepsLog_of_opened (opens : kept.opened isReadOnly = .ok after) :
    after.keepsLog = kept.keepsLog := by
  obtain ⟨layout, schemaVersions, rfl⟩ := exists_of_opened opens
  rfl

end KeptArchive

/-- The rows of a file as an archive, none if it holds no archive. -/
def StoredFile.rows (file : StoredFile) : List Row :=
  match file.kept with
  | .ok kept => kept.archive.rows
  | .error _ => []

/-- The rows of an archive that is not open, none if there is no such archive. -/
def storedRows (files : Files) (text : String) : List Row :=
  match files.node? [FilePath.ofText text] with
  | some (.file content) => content.rows
  | _ => []

/-- Nothing stands beside an archive, so that all of it is in its file. -/
structure IsClosed (files : Files) (text : String) : Prop where
  noJournal : files.node? (Place.beside [FilePath.ofText text] Files.journalEnding) = none
  noLog : files.node? (Place.beside [FilePath.ofText text] Files.logEnding) = none
  noIndex : files.node? (Place.beside [FilePath.ofText text] Files.indexEnding) = none

theorem Rests.isClosed
    {files : Files}
    {text : String}
    {rows : List Row}
    (rests : Rests files text rows) :
    IsClosed files text :=
  ⟨rests.noJournal, rests.noLog, rests.noIndex⟩

theorem Rests.storedRows_eq
    {files : Files}
    {text : String}
    {rows : List Row}
    (rests : Rests files text rows) :
    storedRows files text = rows := by
  rw [storedRows, rests.inFile]
  rfl

/-- A log and its index stand beside an archive, which has some rows once its log is closed. -/
structure InUse (files : Files) (text : String) (rows : List Row) (log : OpenLog) : Prop where
  noJournal : files.node? (Place.beside [FilePath.ofText text] Files.journalEnding) = none
  hasLog : ∃ content,
    files.node? (Place.beside [FilePath.ofText text] Files.logEnding) = some (.file content)
  hasIndex : ∃ content,
    files.node? (Place.beside [FilePath.ofText text] Files.indexEnding) = some (.file content)
  filledRows : storedRows (filled files (FilePath.ofText text)) text = rows
  mayChange : log.isReadOnly = false
  withIndex : log.hasIndex = true

/-- What an attempt to open an archive has left, by which it keeps its rows. -/
def KeepsRows (text : String) (rows : List Row) : Except ArchiveFault OpenArchive × Files → Prop
  | (.error _, files) =>
      IsClosed files text ∧ storedRows files text = rows
  | (.ok opened, files) =>
      opened.place = some [FilePath.ofText text] ∧
        ∃ log, opened.log = some log ∧ InUse files text rows log

section Stages

variable
  {text : String}
  {files : Files}
  {rows : List Row}
  {content : StoredFile}
  {log : OpenLog}

theorem InUse.closes
    (names : NamesArchive text)
    (inUse : InUse files text rows log) :
    IsClosed (files.closeLog [FilePath.ofText text] log) text ∧
      storedRows (files.closeLog [FilePath.ofText text] log) text = rows := by
  obtain ⟨content, hasLog⟩ := inUse.hasLog
  obtain ⟨indexed, hasIndex⟩ := inUse.hasIndex
  have closed := @node?_closeLog files (FilePath.ofText text) log content indexed hasLog hasIndex
    inUse.mayChange inUse.withIndex
  refine ⟨⟨?_, ?_, ?_⟩, ?_⟩
  · rw [closed Files.isGiven_journal, if_neg (by simp), if_neg (by simp),
      node?_filled_of_ne Files.isGiven_journal (by simp), inUse.noJournal]
  · rw [closed Files.isGiven_log, if_neg (by simp), if_pos rfl]
  · rw [closed Files.isGiven_index, if_pos rfl]
  · rw [storedRows, closed names.notGiven, if_neg (by simp), if_neg (by simp)]
    exact inUse.filledRows

/-- A log was begun for an archive, and nothing went to it yet. -/
structure IsBegun (files : Files) (text : String) (log : OpenLog) : Prop where
  isCurrent : log.generation =
    (withLog files text).generation (Place.beside [FilePath.ofText text] Files.logEnding)
  noEntries : log.hasEntries = false
  mayChange : log.isReadOnly = false
  withIndex : log.hasIndex = true

theorem isBegun_begunLog (files : Files) (text : String) :
    IsBegun files text (begunLog files text) :=
  ⟨rfl, rfl, rfl, rfl⟩

/-- A log that was just begun has nothing that would go to the file of the archive. -/
theorem inUse_withLog
    (names : NamesArchive text)
    (isClosed : IsClosed files text)
    (isBegun : IsBegun files text log) :
    InUse (withLog files text) text (storedRows files text) log where
  noJournal := by
    rw [agreeBeside_withLog _ (by simp) (by simp) (by simp), isClosed.noJournal]
  hasLog := ⟨_, node?_withLog_log⟩
  hasIndex := ⟨_, node?_withLog_index⟩
  filledRows := by
    have notFilled : filled (withLog files text) (FilePath.ofText text) = withLog files text := by
      rw [filled, node?_withLog_log]
    rw [notFilled, storedRows, storedRows]
    simp [withLog, Files.putBeside, FileTree.node?_put, names.notGiven]
  mayChange := isBegun.mayChange
  withIndex := isBegun.withIndex

/-- Under a new log is read what the file holds. -/
theorem on_readLogged_begun
    (isBegun : IsBegun files text log)
    (content : StoredFile) :
    (∃ fault, ((useOf text).readLogged log content).on (withLog files text) =
        (.error fault, withLog files text)) ∨
      ∃ kept read, content.kept = .ok kept ∧ IsBegun files text read ∧
        ((useOf text).readLogged log content).on (withLog files text) =
          (.ok (kept, read), withLog files text) := by
  have isLog : (withLog files text).node? ((useOf text).place.beside Files.logEnding) =
      some (.file (.bytes [])) := node?_withLog_log
  unfold ArchiveUse.readLogged
  rw [Attempt.on_bind_ok Attempt.on_get]
  simp only [isLog, isBegun.noEntries]
  cases isKept : content.kept with
  | error failure =>
      exact .inl ⟨_, Attempt.on_bind_error rfl⟩
  | ok kept =>
      refine .inr ⟨kept, _, rfl, ?_, Attempt.on_bind_ok rfl⟩
      exact ⟨isBegun.isCurrent, rfl, isBegun.mayChange, isBegun.withIndex⟩

theorem keepInLog_keeps
    (names : NamesArchive text)
    (isClosed : IsClosed files text)
    (isBegun : IsBegun files text log)
    (kept : KeptArchive) :
    InUse ((withLog files text).keepInLog [FilePath.ofText text] log kept) text kept.archive.rows
      { log with hasEntries := true } := by
  let left : Files := (withLog files text).put
    (Place.beside [FilePath.ofText text] Files.logEnding) (.file (.log kept log.isWhole))
  have isLeft : (withLog files text).keepInLog [FilePath.ofText text] log kept = left := by
    rw [Files.keepInLog_eq isBegun.isCurrent node?_withLog_log, StoredFile.withEntries,
      isBegun.noEntries]
    rfl
  have hasLog : left.node? (Place.beside [FilePath.ofText text] Files.logEnding) =
      some (.file (.log kept log.isWhole)) := by
    simp [left, FileTree.node?_put]
  rw [isLeft]
  refine ⟨?_, ⟨_, hasLog⟩, ⟨.index, ?_⟩, ?_, isBegun.mayChange, isBegun.withIndex⟩
  · simp [left, FileTree.node?_put, (inUse_withLog names isClosed isBegun).noJournal]
  · simp [left, FileTree.node?_put, node?_withLog_index]
  · rw [filled, hasLog, storedRows, FileTree.node?_put _ _ names.notGiven, if_pos rfl]
    rfl

theorem keepAfter_keeps
    (names : NamesArchive text)
    (isClosed : IsClosed files text)
    (isBegun : IsBegun files text log)
    {before : OpenArchive}
    (isPlace : before.place = some [FilePath.ofText text])
    (isLog : before.log = some log)
    {kept : KeptArchive}
    (sameRows : kept.archive.rows = storedRows files text) :
    let made := (before.withKept kept).keepAfter before (withLog files text)
    KeepsRows text (storedRows files text) (.ok made.1, made.2) := by
  dsimp only
  unfold OpenArchive.keepAfter
  -- If opening added nothing, the log stays as it was begun; else all goes to it.
  split
  · exact ⟨isPlace, log, isLog, inUse_withLog names isClosed isBegun⟩
  · unfold OpenArchive.keep OpenArchive.withKept
    simp only [isPlace, isLog]
    exact ⟨rfl, _, rfl, sameRows ▸ keepInLog_keeps names isClosed isBegun kept⟩

theorem openKept_keeps
    (names : NamesArchive text)
    (isClosed : IsClosed files text)
    (isBegun : IsBegun files text log)
    {kept : KeptArchive}
    (sameRows : kept.archive.rows = storedRows files text) :
    (∃ fault, ((useOf text).openKept kept (some log)).on (withLog files text) =
        (.error fault, withLog files text)) ∨
      ∃ opened left, ((useOf text).openKept kept (some log)).on (withLog files text) =
          (.ok opened, left) ∧
        KeepsRows text (storedRows files text) (.ok opened, left) := by
  unfold ArchiveUse.openKept
  rw [Attempt.on_bind_ok Attempt.on_get]
  simp only [Option.isSome_some, Option.isNone_some, Bool.and_false, Bool.false_and,
    Bool.false_eq_true, ↓reduceIte]
  cases opens : kept.opened ((useOf text).location.isReadOnly || kept.isSealed ||
      (some log).any OpenLog.isReadOnly) with
  | error fault =>
      exact .inl ⟨fault, Attempt.on_bind_error rfl⟩
  | ok after =>
      have afterRows := (KeptArchive.rows_of_opened opens).trans sameRows
      have checked : (Attempt.checked (.ok after)).on (withLog files text) =
          (.ok after, withLog files text) := rfl
      refine .inr ⟨_, _, (Attempt.on_bind_ok checked).trans (Attempt.on_bind_ok Attempt.on_set),
        ?_⟩
      exact keepAfter_keeps names isClosed isBegun rfl rfl afterRows

theorem openLogged_keeps
    (names : NamesArchive text)
    (isClosed : IsClosed files text)
    (stands : files.node? [FilePath.ofText text] = some (.file content))
    (stage : ArchiveStage) :
    KeepsRows text (storedRows files text) (((useOf text).openLogged stage content).on files) := by
  have begins := on_beginLog names isClosed.noLog isClosed.noIndex stage
  have isBegun := isBegun_begunLog files text
  unfold ArchiveUse.openLogged
  rw [Attempt.on_bind_ok Attempt.on_get, Attempt.on_bind_ok begins]
  -- Whatever fails from here on is handled by closing the log that was begun.
  rcases on_readLogged_begun isBegun content with
    ⟨fault, failed⟩ | ⟨kept, read, isKept, readBegun, isRead⟩
  · rw [Attempt.on_tryCatch_error (Attempt.on_bind_error failed)]
    exact (inUse_withLog names isClosed isBegun).closes names
  · have keptRows : kept.archive.rows = storedRows files text := by
      rw [storedRows, stands]
      simp only [StoredFile.rows, isKept]
    rcases openKept_keeps names isClosed readBegun keptRows with
      ⟨fault, failed⟩ | ⟨opened, left, opens, keeps⟩
    · rw [Attempt.on_tryCatch_error ((Attempt.on_bind_ok isRead).trans failed)]
      exact (inUse_withLog names isClosed isBegun).closes names
    · rw [Attempt.on_tryCatch_ok ((Attempt.on_bind_ok isRead).trans opens)]
      exact keeps

theorem IsClosed.put
    (isClosed : IsClosed files text)
    (node : FileNode StoredFile) :
    IsClosed (files.put [FilePath.ofText text] node) text := by
  refine ⟨?_, ?_, ?_⟩
  · simp [FileTree.node?_put, isClosed.noJournal]
  · simp [FileTree.node?_put, isClosed.noLog]
  · simp [FileTree.node?_put, isClosed.noIndex]

theorem NamesArchive.parent_eq (names : NamesArchive text) :
    Place.parent [FilePath.ofText text] = Place.current := by
  simp [Place.parent, names.isNotTop, names.notAbove, Place.current]

/-- A journal can be written where nothing stands in its place and its name is not too long. -/
theorem lacksJournal_eq_false
    {use : ArchiveUse}
    (isShort : use.place.name.length + 8 ≤ FileTree.greatestName)
    (noJournal : files.node? (use.place.beside Files.journalEnding) = none) :
    use.lacksJournal files = false := by
  have fits : Files.isTooLong use.place Files.journalEnding = false :=
    isTooLong_eq_false isShort (by simp)
  rw [ArchiveUse.lacksJournal, Files.hasFolderBeside, fits, noJournal]
  rfl

theorem on_dropLeftovers
    {use : ArchiveUse}
    (noJournal : files.node? (use.place.beside Files.journalEnding) = none)
    (noEntries : files.beside? use.place Files.logEnding = none)
    (stage : ArchiveStage) :
    (use.dropLeftovers stage).on files = (.ok (), files) := by
  have noneBeside : files.beside? use.place Files.journalEnding = none := by
    rw [Files.beside?, noJournal]
  unfold ArchiveUse.dropLeftovers ArchiveUse.dropsJournal
  rw [Attempt.on_bind_ok Attempt.on_get]
  simp only [noneBeside, noEntries, Option.isSome_none, Bool.and_false, Bool.false_eq_true,
    ↓reduceIte]
  exact Attempt.on_set

theorem IsClosed.beside?_log (isClosed : IsClosed files text) :
    files.beside? (useOf text).place Files.logEnding = none := by
  rw [Files.beside?, useOf, isClosed.noLog]

theorem markLogged_keeps
    (names : NamesArchive text)
    (isClosed : IsClosed files text)
    {kept : KeptArchive}
    (sameRows : kept.archive.rows = storedRows files text) :
    KeepsRows text (storedRows files text) (((useOf text).markLogged kept).on files) := by
  have isChanged : (useOf text).isRead = false := rfl
  have noRival : ((useOf text).rival? files).isSome = false := rfl
  have hasJournal : (useOf text).lacksJournal files = false :=
    lacksJournal_eq_false names.isShort isClosed.noJournal
  unfold ArchiveUse.markLogged
  rw [Attempt.on_bind_ok Attempt.on_get]
  simp only [isChanged, noRival, hasJournal, Bool.false_or, Bool.false_eq_true, ↓reduceIte]
  -- A sealed archive is refused before its file is written.
  by_cases isSealed : kept.isSealed = true
  · rw [if_pos isSealed]
    exact ⟨isClosed, rfl⟩
  · rw [if_neg isSealed, Attempt.on_bind_ok Attempt.on_set]
    let marked : Files :=
      files.put [FilePath.ofText text] (.file (.archive { kept with keepsLog := true }))
    have isMarked : files.keepInFile (useOf text).place (files.generation (useOf text).place)
        { kept with keepsLog := true } = marked :=
      Files.keepInFile_eq isClosed.noJournal _
    have stands : marked.node? [FilePath.ofText text] =
        some (.file (.archive { kept with keepsLog := true })) := by
      simp [marked, FileTree.node?_put, names.notGiven]
    have markedRows : storedRows marked text = storedRows files text := by
      rw [storedRows, stands]
      exact sameRows
    rw [isMarked, ← markedRows]
    exact openLogged_keeps names (isClosed.put _) stands _

theorem openForLog_keeps
    (names : NamesArchive text)
    (isClosed : IsClosed files text)
    (stands : files.node? [FilePath.ofText text] = some (.file content)) :
    KeepsRows text (storedRows files text) (((useOf text).openForLog content).on files) := by
  have rows_eq : ∀ kept, content.kept = .ok kept → kept.archive.rows = storedRows files text := by
    intro kept isKept
    rw [storedRows, stands]
    simp only [StoredFile.rows, isKept]
  unfold ArchiveUse.openForLog
  by_cases isBlank : content.isBlank = true
  · have isKept : content.kept = .ok (.blank false) := by
      cases content with
      | bytes bytes =>
          exact if_pos isBlank
      | archive _ | log _ _ | index | sink =>
          cases isBlank
    rw [if_pos isBlank,
      Attempt.on_bind_ok (on_dropLeftovers isClosed.noJournal isClosed.beside?_log _)]
    exact markLogged_keeps names isClosed (rows_eq _ isKept)
  · rw [if_neg isBlank, Attempt.on_bind_ok (on_settleJournal _ isClosed.noJournal _),
      Attempt.on_bind_ok (on_checkLog rfl isClosed.beside?_log _ _)]
    by_cases keepsLog : content.keepsLog = true
    · rw [if_pos keepsLog]
      exact openLogged_keeps names isClosed stands _
    · rw [if_neg keepsLog]
      cases isKept : content.kept with
      | error failure =>
          exact ⟨isClosed, rfl⟩
      | ok kept =>
          have found : (Attempt.found .preparation (.ok kept)).on files = (.ok kept, files) := rfl
          rw [Attempt.on_bind_ok found]
          exact markLogged_keeps names isClosed (rows_eq kept isKept)

/-- A file that is made for an archive has as few rows as the missing one. -/
theorem openMade_keeps
    (names : NamesArchive text)
    (isClosed : IsClosed files text)
    (isMissing : files.node? [FilePath.ofText text] = none) :
    KeepsRows text (storedRows files text)
      (((useOf text).openForLog (.bytes [])).on
        (files.put [FilePath.ofText text] (.file (.bytes [])))) := by
  let made : Files := files.put [FilePath.ofText text] (.file (.bytes []))
  have isMade : made.node? [FilePath.ofText text] = some (.file (.bytes [])) := by
    simp [made, FileTree.node?_put, names.notGiven]
  have madeRows : storedRows made text = storedRows files text := by
    rw [storedRows, storedRows, isMade, isMissing]
    rfl
  rw [← madeRows]
  exact openForLog_keeps names (isClosed.put _) isMade

theorem openPlace_keeps
    (names : NamesArchive text)
    (isClosed : IsClosed files text)
    (told : String) :
    KeepsRows text (storedRows files text) (((useOf text).openPlace told).on files) := by
  have noModeFile : (useOf text).checkModeFile.on files = (.ok (), files) := rfl
  have visited : files.visit (useOf text).place = _ := names.visit_eq files
  unfold ArchiveUse.openPlace
  rw [Attempt.on_bind_ok noModeFile, Attempt.on_bind_ok Attempt.on_get, visited]
  cases stands : files.node? [FilePath.ofText text] with
  | none =>
      have canCreate : (useOf text).location.access = .create := rfl
      have hasFolder : files.visit (useOf text).place.parent = .ok .folder := by
        rw [useOf, names.parent_eq]
        rfl
      simp only [Option.elim_none, canCreate, hasFolder]
      rw [Attempt.on_bind_ok Attempt.on_set]
      exact openMade_keeps names isClosed stands
  | some node =>
      cases node with
      | folder =>
          exact ⟨isClosed, rfl⟩
      | file content =>
          -- Any file but a sink, which is refused, may turn out to be an archive.
          have opensFile : KeepsRows text (storedRows files text)
              (((useOf text).openFile content).on files) :=
            openForLog_keeps names isClosed stands
          cases content with
          | sink =>
              exact ⟨isClosed, rfl⟩
          | bytes _ | archive _ | log _ _ | index =>
              exact opensFile

/-- An archive that is not open keeps its rows when it is opened. -/
theorem ofText_keeps
    (names : NamesArchive text)
    (isClosed : IsClosed files text) :
    KeepsRows text (storedRows files text) ((OpenArchive.ofText text []).on files) := by
  rw [OpenArchive.on_ofText names.location names.isKept (names.makeParents files)
    (names.nameOf? files)]
  exact openPlace_keeps names isClosed text

end Stages

namespace OpenArchive

/-- The files after an open archive was kept as it is now, and closed. -/
def settled (opened stored : OpenArchive) (files : Files) : Files :=
  let (kept, files) := stored.keepAfter opened files
  kept.close files

/-- The files after an archive was opened, and closed again. -/
def visited (text : String) (files : Files) : Files :=
  match (ofText text []).on files with
  | (.ok opened, files) => settled opened opened files
  | (.error _, files) => files

theorem settled_self (opened : OpenArchive) (files : Files) :
    settled opened opened files = opened.close files := by
  rw [settled, keepAfter, beq_self_eq_true, if_pos rfl]

/-- Opening and closing an archive leaves its rows as they were, and nothing beside it. -/
theorem visited_keeps
    {text : String}
    {files : Files}
    (names : NamesArchive text)
    (isClosed : IsClosed files text) :
    IsClosed (visited text files) text ∧
      storedRows (visited text files) text = storedRows files text := by
  have keeps := ofText_keeps names isClosed
  unfold visited
  rcases attempt : (ofText text []).on files with ⟨_ | opened, left⟩
  · rw [attempt] at keeps
    exact keeps
  · rw [attempt] at keeps
    obtain ⟨isPlace, log, isLog, inUse⟩ := keeps
    dsimp only
    rw [settled_self, close, isPlace, isLog]
    exact inUse.closes names

end OpenArchive

end ActivityCatalog
