import ActivityCatalog.Proofs.Archive.Handles
import ActivityCatalog.Proofs.Archive.Marking

namespace ActivityCatalog

/-!
# Opening an archive that others may have open

An archive that is kept in a place is opened by what is kept of it, be it in its file or in a log
that was left beside it or is used by others.  A log is begun, or joined if there are others.  What
opening adds goes to the log.  Where opening fails, the log is closed again unless others use it.
-/

namespace Image

theorem magic_eq :
    magic = [83, 81, 76, 105, 116, 101, 32, 102, 111, 114, 109, 97, 116, 32, 51, 0] := by
  decide +kernel

/-- What has one byte at most is no image. -/
theorem asksForLog_of_short
    {content : List UInt8}
    (isShort : content.length ≤ 1) :
    asksForLog content = false := by
  have notMagic : magic.isPrefixOf (headerOf content) = false := by
    match content, isShort with
    | [], _ =>
        rw [magic_eq]
        rfl
    | [first], _ =>
        have padded : headerOf [first] = first :: 0 :: List.replicate 98 0 := rfl
        rw [padded, magic_eq]
        simp [List.isPrefixOf]
  rw [asksForLog, notMagic]
  rfl

theorem keepsLog_of_archive
    {image : Image}
    {kept : KeptArchive}
    (isKept : image.archive = .ok kept) :
    kept.keepsLog = image.keepsLog := by
  obtain ⟨objects, -, rest⟩ := bind_eq_ok.mp isKept
  obtain ⟨rows, -, rest⟩ := bind_eq_ok.mp rest
  obtain ⟨versions, -, finished⟩ := bind_eq_ok.mp rest
  cases finished
  rfl

theorem keepsLog_of_ofBytes
    {content : List UInt8}
    {image : Image}
    (isRead : ofBytes content = .ok image) :
    image.keepsLog = asksForLog content := by
  unfold ofBytes at isRead
  dsimp only at isRead
  split at isRead
  · cases isRead
  · rename_i isMagic
    iterate 4 (split at isRead; · cases isRead)
    cases isRead
    rw [Bool.or_eq_true, not_or, Bool.not_eq_true', Bool.not_eq_false] at isMagic
    rw [asksForLog, isMagic.1, Bool.true_and]

end Image

namespace StoredFile

variable
  {file : StoredFile}
  {kept : KeptArchive}

/-- A file and what is kept in it alike say whether changes go to a log. -/
theorem keepsLog_of_kept (isKept : file.kept = .ok kept) : kept.keepsLog = file.keepsLog := by
  cases file with
  | archive held =>
      cases isKept
      rfl
  | log _ _ | index | sink =>
      cases isKept
  | bytes content =>
      unfold StoredFile.kept at isKept
      dsimp only at isKept
      split at isKept
      · rename_i isBlank
        cases isKept
        exact (Image.asksForLog_of_short (of_decide_eq_true isBlank)).symm
      · obtain ⟨image, isRead, isArchive⟩ := bind_eq_ok.mp isKept
        exact (Image.keepsLog_of_archive isArchive).trans (Image.keepsLog_of_ofBytes isRead)

/-- What has one byte at most holds an archive in which nothing is laid out. -/
theorem kept_of_isBlank (isBlank : file.isBlank = true) : file.kept = .ok (.blank false) := by
  cases file with
  | bytes content =>
      exact if_pos isBlank
  | archive _ | log _ _ | index | sink =>
      cases isBlank

end StoredFile

/-- How an archive in a place is used where others are open. -/
def useAmong (path : FilePath) (place : Place) (openings : List OpenArchive) : ArchiveUse :=
  ⟨.ofFile path, place, openings⟩

/-- The files with an empty log beside an archive that has none. -/
def withSomeLog (files : Files) (place : Place) : Files :=
  if (files.node? (place.beside Files.logEnding)).isNone then
    files.putBeside place Files.logEnding (.bytes [])
  else
    files

/-- A log stands beside an archive that is kept in a place by its file and by what is logged. -/
structure HasLog (place : Place) (openings : List OpenArchive) (files : Files)
    (kept : KeptArchive) (content : StoredFile) : Prop where
  isKept : KeptAt place openings files kept
  keepsLog : kept.keepsLog = true
  stands : files.node? place = some (.file content)
  isLog : ∃ entries, files.node? (place.beside Files.logEnding) = some (.file entries) ∧
    content.HoldsWith (some (.file entries)) kept

/-- A log was begun for an archive, to which changes can go. -/
structure Begun (place : Place) (openings : List OpenArchive) (files : Files)
    (kept : KeptArchive) (content : StoredFile) (log : OpenLog) : Prop
    extends HasLog place openings files kept content where
  fits : log.Fits place files
  isCurrent : log.generation = files.generation (place.beside Files.logEnding)

/-- An archive that was to be opened shows what came of it, and that is kept in its place. -/
structure Opens (place : Place) (openings : List OpenArchive) (files : Files)
    (outcome : Except ArchiveFault Unit × KeptArchive)
    (result : Except ArchiveFault OpenArchive × Files) : Prop where
  shows : result.1.map OpenArchive.kept = outcome.1.map fun _ => outcome.2
  isKept : KeptAt place (result.1.toOption.toList ++ openings) result.2 outcome.2
  agree : AgreeAround place result.2 files

/-- The folders on a path are there, and what stands in a place is found under it. -/
structure FollowsTo (files : Files) (path : FilePath) (place : Place) : Prop where
  hasParents : files.makeParents path = (.ok (), files)
  isNamed : files.nameOf? path = some place
  isVisited : ∀ {node}, files.node? place = some node → files.visit place = .ok node

/-- A text names the archive in a place, whatever becomes of the archive there. -/
structure LeadsToArchive (text : String) (place : Place) (files : Files) : Prop where
  location : ArchiveLocation.ofText text = .ok (.ofFile (FilePath.ofText text))
  isKept : (ArchiveLocation.ofFile (FilePath.ofText text)).isTransient = false
  notGiven : place.isGiven = false
  isShort : place.name.length + 8 ≤ FileTree.greatestName
  follows : ∀ after, AgreeAround place after files → FollowsTo after (FilePath.ofText text) place

section Logging

variable
  {place : Place}
  (path : FilePath)
  {openings : List OpenArchive}
  {files : Files}
  {kept now : KeptArchive}
  {log : OpenLog}
  {content : StoredFile}

/-- Whoever has an archive open in a place is a rival there. -/
theorem rival?_cons
    {first : OpenArchive}
    (isHeld : first.HeldAt place files)
    (others : List OpenArchive) :
    (useAmong path place (first :: others)).rival? files = some first := by
  obtain ⟨log, isLog, -⟩ := isHeld.hasLog
  refine List.find?_cons_of_pos ?_
  simp [isHeld.isPlace, isHeld.isCurrent, isLog, useAmong]

theorem on_withSomeLog
    {Result : Type}
    (files : Files)
    (place : Place)
    (next : Attempt Result) :
    (if (files.node? (place.beside Files.logEnding)).isNone then do
        set (files.putBeside place Files.logEnding (.bytes []))
        next
      else next : Attempt Result).on files = next.on (withSomeLog files place) := by
  unfold withSomeLog
  split
  · exact Attempt.on_bind_ok Attempt.on_set
  · rfl

theorem generation_withSomeLog (files : Files) (place : Place) :
    (withSomeLog files place).generation = files.generation := by
  unfold withSomeLog
  split <;> rfl

/-- An archive has a log, and is kept as it was, when an empty one is put beside it. -/
theorem KeptAt.hasLog_withSomeLog
    (notGiven : place.isGiven = false)
    (isKept : KeptAt place openings files kept)
    (keepsLog : kept.keepsLog = true)
    (stands : files.node? place = some (.file content)) :
    HasLog place openings (withSomeLog files place) kept content ∧
      AgreeAround place (withSomeLog files place) files := by
  have noLogFolder := isKept.noLogFolder
  obtain ⟨file, isFile, holds⟩ := isKept.inPlace
  cases isFile.symm.trans stands
  unfold withSomeLog
  cases isLog : files.node? (place.beside Files.logEnding) with
  | none =>
      let after := files.putBeside place Files.logEnding (.bytes [])
      have sameFile : after.node? place = some (.file content) := by
        simp [after, Files.putBeside, FileTree.node?_put, notGiven, stands]
      have hasLog : after.node? (place.beside Files.logEnding) = some (.file (.bytes [])) := by
        simp [after, Files.putBeside, FileTree.node?_put]
      have stillHolds : content.HoldsWith (some (.file (.bytes []))) kept := by
        rw [isLog] at holds
        cases holds with
        | inFile _ inFile =>
            exact .inFile (.inr rfl) inFile
      have isKeptThen : KeptAt place openings after kept :=
        isKept.put (.inr (.inl rfl)) ⟨content, sameFile, hasLog ▸ stillHolds⟩
          (fun _ => .inl isLog) isKept.keepsLog
      exact ⟨⟨isKeptThen, keepsLog, sameFile, _, hasLog, stillHolds⟩,
        .put (.inr (.inl rfl)) _ files⟩
  | some node =>
      cases node with
      | folder =>
          exact absurd isLog noLogFolder
      | file entries =>
          exact ⟨⟨isKept, keepsLog, stands, entries, isLog, isLog ▸ holds⟩, .refl place files⟩

/-- An archive has its log also when an index of that is put beside it. -/
theorem HasLog.putIndex
    (notGiven : place.isGiven = false)
    (hasLog : HasLog place openings files kept content) :
    HasLog place openings (files.putBeside place Files.indexEnding .index) kept content := by
  obtain ⟨entries, isLog, holds⟩ := hasLog.isLog
  let after := files.putBeside place Files.indexEnding .index
  have sameFile : after.node? place = some (.file content) := by
    simp [after, Files.putBeside, FileTree.node?_put, notGiven, hasLog.stands]
  have sameLog : after.node? (place.beside Files.logEnding) =
      files.node? (place.beside Files.logEnding) := by
    simp [after, Files.putBeside, FileTree.node?_put]
  have stillHolds : content.HoldsWith (after.node? (place.beside Files.logEnding)) kept := by
    rw [sameLog, isLog]
    exact holds
  have isKeptThen : KeptAt place openings after kept :=
    hasLog.isKept.put (.inr (.inr rfl)) ⟨content, sameFile, stillHolds⟩
      (fun none => sameLog ▸ none) hasLog.isKept.keepsLog
  exact ⟨isKeptThen, hasLog.keepsLog, sameFile, entries, sameLog.trans isLog, holds⟩

/-- The log of those who have an archive open is joined; if there are none, one is begun. -/
theorem KeptAt.beginLog
    (notGiven : place.isGiven = false)
    (isShort : place.name.length + 8 ≤ FileTree.greatestName)
    (isKept : KeptAt place openings files kept)
    (keepsLog : kept.keepsLog = true)
    (stands : files.node? place = some (.file content))
    (stage : ArchiveStage) :
    ∃ log after,
      ((useAmong path place openings).beginLog stage).on files = (.ok log, after) ∧
        Begun place openings after kept content log ∧ AgreeAround place after files := by
  have nameFits : Files.isTooLong (useAmong path place openings).place Files.logEnding = false :=
    isTooLong_eq_false isShort (by simp)
  have sameGeneration := congrFun (generation_withSomeLog files place)
    (place.beside Files.logEnding)
  obtain ⟨hasLog, agree⟩ := isKept.hasLog_withSomeLog notGiven keepsLog stands
  unfold ArchiveUse.beginLog
  rw [Attempt.on_bind_ok Attempt.on_get]
  simp only [nameFits, Bool.false_eq_true, ↓reduceIte]
  cases openings with
  | nil =>
      have noRival : (useAmong path place []).rival? files = none := rfl
      have indexes :=
        @on_checkIndex _ (useAmong path place []) rfl rfl hasLog.isKept.noFolder stage
      have agreeThen : AgreeAround place
          ((withSomeLog files place).putBeside place Files.indexEnding .index) files :=
        (AgreeAround.put (.inr (.inr rfl)) _ _).trans agree
      simp only [noRival, Option.bind_none]
      refine ⟨_, _, (on_withSomeLog files place _).trans (Attempt.on_bind_ok indexes), ?_,
        agreeThen⟩
      exact ⟨hasLog.putIndex notGiven, ⟨rfl, rfl, fun _ => rfl⟩, sameGeneration.symm⟩
  | cons first others =>
      have isOpen : first ∈ first :: others := List.mem_cons_self
      have hasRival := rival?_cons path (isKept.areHeld first isOpen) others
      obtain ⟨log, isOpenLog, fits⟩ := (hasLog.isKept.areHeld first isOpen).hasLog
      simp only [hasRival, Option.bind_some, isOpenLog]
      refine ⟨_, _, on_withSomeLog files place _, ?_, agree⟩
      exact ⟨hasLog, ⟨fits.mayChange, fits.withIndex, fits.noEntries⟩, sameGeneration.symm⟩

namespace Begun

/-- What is kept by the file and the log is read, and the log stays begun. -/
theorem readLogged (begun : Begun place openings files kept content log) :
    ∃ read, ((useAmong path place openings).readLogged log content).on files =
        (.ok (kept, read), files) ∧
      Begun place openings files kept content read := by
  obtain ⟨entries, isLog, holds⟩ := begun.isLog
  have isLogThere : files.node? ((useAmong path place openings).place.beside Files.logEnding) =
      some (.file entries) := isLog
  unfold ArchiveUse.readLogged
  rw [Attempt.on_bind_ok Attempt.on_get]
  simp only [isLogThere]
  cases holds with
  | inFile noEntries isKept =>
      obtain rfl : entries = .bytes [] := by
        simpa [HasNoEntries] using noEntries
      have hasNone := begun.fits.noEntries (.inr isLog)
      have found : (Attempt.found .preparation content.kept).on files = (.ok kept, files) := by
        rw [isKept]
        rfl
      simp only [hasNone]
      exact ⟨_, Attempt.on_bind_ok found, { begun with
        fits := ⟨begun.fits.mayChange, begun.fits.withIndex, fun _ => rfl⟩ }⟩
  | @inLog _ before isWhole isKept isMarked keepsLog =>
      have found : (Attempt.found .preparation content.kept).on files = (.ok before, files) := by
        rw [isKept]
        rfl
      have hasEntries : ¬HasNoEntries (files.node? (place.beside Files.logEnding)) := by
        simp [HasNoEntries, isLog]
      have stillBegun : Begun place openings files kept content
          { log with hasEntries := true, isWhole } :=
        { begun with
          fits := ⟨begun.fits.mayChange, begun.fits.withIndex,
            fun none => absurd none hasEntries⟩ }
      cases isWhole with
      | true =>
          exact ⟨_, rfl, stillBegun⟩
      | false =>
          exact ⟨_, Attempt.on_bind_ok (Attempt.on_bind_ok found), stillBegun⟩

/-- The file of an archive for which a log was begun is marked for a log. -/
theorem fileKeepsLog (begun : Begun place openings files kept content log) :
    ∃ before, content.kept = .ok before ∧ before.keepsLog = true := by
  obtain ⟨entries, -, holds⟩ := begun.isLog
  cases holds with
  | inFile _ isKept =>
      exact ⟨kept, isKept, begun.keepsLog⟩
  | @inLog _ before _ isKept isMarked _ =>
      exact ⟨before, isKept, isMarked⟩

/-- What an archive is from now on goes to the log that was begun. -/
theorem keepInLog
    (notGiven : place.isGiven = false)
    (begun : Begun place openings files kept content log)
    (keepsLog : now.keepsLog = true) :
    let after := files.keepInLog place log now
    KeptAt place openings after now ∧ AgreeAround place after files ∧
      ({ log with hasEntries := true } : OpenLog).Fits place after ∧
        after.generation = files.generation := by
  obtain ⟨entries, isLog, holds⟩ := begun.isLog
  obtain ⟨before, isKept, isMarked⟩ := begun.fileKeepsLog
  have isAdded : entries.withEntries log now = .log now log.isWhole := by
    cases holds with
    | inFile noEntries _ =>
        obtain rfl : entries = .bytes [] := by
          simpa [HasNoEntries] using noEntries
        rw [StoredFile.withEntries, begun.fits.noEntries (.inr isLog)]
        rfl
    | inLog _ _ _ =>
        rfl
  let left := files.put (place.beside Files.logEnding) (.file (.log now log.isWhole))
  have isLeft : files.keepInLog place log now = left := by
    rw [Files.keepInLog_eq begun.isCurrent isLog, isAdded]
  have hasLog : left.node? (place.beside Files.logEnding) =
      some (.file (.log now log.isWhole)) := by
    simp [left, FileTree.node?_put]
  have hasEntries : ¬HasNoEntries (left.node? (place.beside Files.logEnding)) := by
    simp [HasNoEntries, hasLog]
  have sameFile : left.node? place = some (.file content) := by
    simp [left, FileTree.node?_put, notGiven, begun.stands]
  rw [isLeft]
  refine ⟨?_, .put (.inr (.inl rfl)) _ _, ?_, rfl⟩
  · refine begun.isKept.put (.inr (.inl rfl)) ⟨content, sameFile, ?_⟩
      (fun none => absurd none hasEntries) (fun _ => keepsLog)
    exact hasLog ▸ .inLog isKept isMarked keepsLog
  · exact ⟨begun.fits.mayChange, begun.fits.withIndex, fun none => absurd none hasEntries⟩

theorem keepAfter
    (notGiven : place.isGiven = false)
    (begun : Begun place openings files kept content log)
    (keepsLog : now.keepsLog = true)
    {before : OpenArchive}
    (wasKept : before.kept = kept)
    (isPlace : before.place = some place)
    (isCurrent : before.generation = files.generation place)
    (isLog : before.log = some log) :
    let made := (before.withKept now).keepAfter before files
    Opens place openings files (.ok (), now) (.ok made.1, made.2) := by
  dsimp only
  unfold OpenArchive.keepAfter
  -- If nothing was added, the log stays as it was begun; else all goes to it.
  split
  · rename_i isSame
    obtain rfl : now = kept := (beq_iff_eq.mp isSame).trans wasKept
    exact ⟨rfl, begun.isKept.joins keepsLog ⟨isPlace, isCurrent, log, isLog, begun.fits⟩,
      .refl place files⟩
  · obtain ⟨isKept, agree, fits, sameGeneration⟩ := begun.keepInLog notGiven keepsLog
    unfold OpenArchive.keep OpenArchive.withKept
    simp only [isPlace, isLog]
    refine ⟨rfl, isKept.joins keepsLog ⟨rfl, ?_, _, rfl, fits⟩, agree⟩
    rw [sameGeneration]
    exact isCurrent

theorem isFixed_eq (begun : Begun place openings files kept content log) :
    ((useAmong path place openings).location.isReadOnly || kept.isSealed ||
      (some log).any OpenLog.isReadOnly) = kept.isSealed := by
  rw [Option.any_some, begun.fits.mayChange, Bool.or_false]
  rfl

theorem openKept_error
    {fault : ArchiveFault}
    (begun : Begun place openings files kept content log)
    (fails : kept.opened kept.isSealed = .error fault) :
    ((useAmong path place openings).openKept kept (some log)).on files =
      (.error fault, files) := by
  unfold ArchiveUse.openKept
  rw [Attempt.on_bind_ok Attempt.on_get]
  simp only [begun.isFixed_eq path, fails]
  exact Attempt.on_bind_error rfl

theorem openKept_ok
    (notGiven : place.isGiven = false)
    (begun : Begun place openings files kept content log)
    (opens : kept.opened kept.isSealed = .ok now) :
    ∃ opened after, ((useAmong path place openings).openKept kept (some log)).on files =
        (.ok opened, after) ∧
      Opens place openings files (.ok (), now) (.ok opened, after) := by
  have keepsLog : now.keepsLog = true :=
    (KeptArchive.keepsLog_of_opened opens).trans begun.keepsLog
  have checked : (Attempt.checked (.ok now)).on files = (.ok now, files) := rfl
  unfold ArchiveUse.openKept
  rw [Attempt.on_bind_ok Attempt.on_get]
  simp only [begun.isFixed_eq path, opens, Option.isSome_some, Option.isNone_some, Bool.and_false,
    Bool.false_and, Bool.false_eq_true, ↓reduceIte]
  refine ⟨_, _, (Attempt.on_bind_ok checked).trans (Attempt.on_bind_ok Attempt.on_set), ?_⟩
  exact begun.keepAfter notGiven keepsLog rfl rfl rfl rfl

end Begun

end Logging

namespace KeptAt

variable
  {place : Place}
  (path : FilePath)
  {openings : List OpenArchive}
  {files : Files}
  {kept : KeptArchive}
  {content : StoredFile}

/-- Another archive can be put in the file of one that is not open and has no log. -/
theorem keepInFile
    (notGiven : place.isGiven = false)
    (isKept : KeptAt place [] files kept)
    (noLog : kept.keepsLog = false)
    (now : KeptArchive) :
    let after := files.keepInFile place (files.generation place) now
    KeptAt place [] after now ∧ AgreeAround place after files ∧
      after.node? place = some (.file (.archive now)) := by
  let left := files.put place (.file (.archive now))
  have isLeft : files.keepInFile place (files.generation place) now = left :=
    Files.keepInFile_eq isKept.noJournal now
  have stands : left.node? place = some (.file (.archive now)) := by
    simp [left, FileTree.node?_put, notGiven]
  have sameLog : left.node? (place.beside Files.logEnding) =
      files.node? (place.beside Files.logEnding) := by
    simp [left, FileTree.node?_put]
  have noEntries : HasNoEntries (files.node? (place.beside Files.logEnding)) := by
    obtain ⟨file, -, holds⟩ := isKept.inPlace
    generalize files.node? (place.beside Files.logEnding) = log at holds ⊢
    cases holds with
    | inFile noEntries _ =>
        exact noEntries
    | inLog _ _ keepsLog =>
        exact absurd (noLog.symm.trans keepsLog) Bool.false_ne_true
  rw [isLeft]
  refine ⟨?_, .put (.inl rfl) _ _, stands⟩
  exact isKept.put (.inl rfl) ⟨_, stands, .inFile (sameLog ▸ noEntries) rfl⟩
    (fun _ => noEntries) (fun areSome => absurd rfl areSome)

section Room

variable
  (notGiven : place.isGiven = false)
  (isShort : place.name.length + 8 ≤ FileTree.greatestName)

include notGiven isShort

theorem openLogged
    (isKept : KeptAt place openings files kept)
    (keepsLog : kept.keepsLog = true)
    (stands : files.node? place = some (.file content))
    (stage : ArchiveStage) :
    Opens place openings files kept.openedInPlace
      (((useAmong path place openings).openLogged stage content).on files) := by
  obtain ⟨log, begunFiles, begins, begun, agree⟩ :=
    isKept.beginLog path notGiven isShort keepsLog stands stage
  obtain ⟨read, isRead, begunRead⟩ := begun.readLogged path
  unfold ArchiveUse.openLogged
  rw [Attempt.on_bind_ok Attempt.on_get, Attempt.on_bind_ok begins, KeptArchive.openedInPlace,
    KeptArchive.logged_of_keepsLog keepsLog]
  dsimp only
  cases opens : kept.opened kept.isSealed with
  | ok now =>
      obtain ⟨opened, left, isOpened, opensThere⟩ :=
        begunRead.openKept_ok path notGiven opens
      rw [Attempt.on_tryCatch_ok ((Attempt.on_bind_ok isRead).trans isOpened)]
      exact ⟨opensThere.shows, opensThere.isKept, opensThere.agree.trans agree⟩
  | error fault =>
      have failed := begunRead.openKept_error path opens
      rw [Attempt.on_tryCatch_error ((Attempt.on_bind_ok isRead).trans failed)]
      -- The log is left to others who have it open, and closed if there are none.
      cases openings with
      | nil =>
          have closed := begun.isKept.closeLog notGiven begun.fits.mayChange begun.fits.withIndex
          exact ⟨rfl, closed.1, closed.2.trans agree⟩
      | cons first others =>
          have hasRival := rival?_cons path
            (isKept.areHeld first List.mem_cons_self) others
          rw [hasRival]
          exact ⟨rfl, begun.isKept, agree⟩

theorem markLogged
    (isKept : KeptAt place openings files kept)
    (noLog : kept.keepsLog = false) :
    Opens place openings files kept.openedInPlace
      (((useAmong path place openings).markLogged kept).on files) := by
  have isChanged : (useAmong path place openings).isRead = false := rfl
  have hasJournal : (useAmong path place openings).lacksJournal files = false :=
    lacksJournal_eq_false isShort isKept.noJournal
  -- Whoever had it open would have marked it.
  obtain rfl : openings = [] := by
    by_contra areSome
    exact Bool.false_ne_true (noLog.symm.trans (isKept.keepsLog areSome))
  have noRival : ((useAmong path place []).rival? files).isSome = false := rfl
  unfold ArchiveUse.markLogged
  rw [Attempt.on_bind_ok Attempt.on_get]
  simp only [isChanged, noRival, hasJournal, Bool.false_or, Bool.false_eq_true, ↓reduceIte]
  by_cases isSealed : kept.isSealed = true
  · have refused : kept.openedInPlace = (.error (.storage .preparation .readOnly), kept) := by
      rw [KeptArchive.openedInPlace, KeptArchive.logged, noLog, isSealed]
      rfl
    rw [if_pos isSealed, refused]
    exact ⟨rfl, isKept, .refl place files⟩
  · have isMarked : kept.logged = .ok { kept with keepsLog := true } := by
      rw [KeptArchive.logged, noLog, if_neg Bool.false_ne_true, if_neg isSealed]
    obtain ⟨isKeptThen, agree, stands⟩ :=
      isKept.keepInFile notGiven noLog { kept with keepsLog := true }
    have opens := isKeptThen.openLogged path notGiven isShort rfl stands .layout
    rw [KeptArchive.openedInPlace_logged isMarked] at opens
    rw [if_neg isSealed, Attempt.on_bind_ok Attempt.on_set]
    exact ⟨opens.shows, opens.isKept, opens.agree.trans agree⟩

/-- Without entries in its log, an archive is opened as its file holds it. -/
theorem openForLog_inFile
    (isKept : KeptAt place openings files kept)
    (stands : files.node? place = some (.file content))
    (noEntries : HasNoEntries (files.node? (place.beside Files.logEnding)))
    (inFile : content.kept = .ok kept) :
    Opens place openings files kept.openedInPlace
      (((useAmong path place openings).openForLog content).on files) := by
  have noneBeside : files.beside? place Files.logEnding = none := by
    rw [Files.beside?]
    rcases noEntries with noLog | isEmpty
    · rw [noLog]
    · rw [isEmpty]
      rfl
  have sameMark := StoredFile.keepsLog_of_kept inFile
  unfold ArchiveUse.openForLog
  cases isBlank : content.isBlank with
  | true =>
      cases inFile.symm.trans (StoredFile.kept_of_isBlank isBlank)
      rw [if_pos rfl, Attempt.on_bind_ok (on_dropLeftovers isKept.noJournal noneBeside _)]
      exact isKept.markLogged path notGiven isShort rfl
  | false =>
      rw [if_neg Bool.false_ne_true, Attempt.on_bind_ok (on_settleJournal _ isKept.noJournal _),
        Attempt.on_bind_ok (on_checkLog rfl noneBeside _ _)]
      cases keepsLog : content.keepsLog with
      | true =>
          exact isKept.openLogged path notGiven isShort (sameMark.trans keepsLog) stands _
      | false =>
          have found : (Attempt.found .preparation content.kept).on files = (.ok kept, files) := by
            rw [inFile]
            rfl
          rw [if_neg Bool.false_ne_true, Attempt.on_bind_ok found]
          exact isKept.markLogged path notGiven isShort (sameMark.trans keepsLog)

/-- With entries in its log, an archive is opened as they hold it. -/
theorem openForLog_inLog
    (isKept : KeptAt place openings files kept)
    (stands : files.node? place = some (.file content))
    {isWhole : Bool}
    (isLog : files.node? (place.beside Files.logEnding) = some (.file (.log kept isWhole)))
    {before : KeptArchive}
    (inFile : content.kept = .ok before)
    (isMarked : before.keepsLog = true)
    (keepsLog : kept.keepsLog = true) :
    Opens place openings files kept.openedInPlace
      (((useAmong path place openings).openForLog content).on files) := by
  have notBlank : content.isBlank = false := by
    by_contra isBlank
    cases inFile.symm.trans (StoredFile.kept_of_isBlank (Bool.not_eq_false _ ▸ isBlank))
    cases isMarked
  have isLogThere : files.node? ((useAmong path place openings).place.beside
      Files.logEnding) = some (.file (.log kept isWhole)) := isLog
  have hasLog : ((useAmong path place openings).checkLog .preparation content).on files =
      (.ok true, files) := by
    unfold ArchiveUse.checkLog
    rw [Attempt.on_bind_ok Attempt.on_get, Files.beside?, isLogThere]
    rfl
  unfold ArchiveUse.openForLog
  rw [notBlank, if_neg Bool.false_ne_true,
    Attempt.on_bind_ok (on_settleJournal _ isKept.noJournal _), Attempt.on_bind_ok hasLog]
  exact isKept.openLogged path notGiven isShort keepsLog stands _

theorem openForLog
    (isKept : KeptAt place openings files kept)
    (stands : files.node? place = some (.file content)) :
    Opens place openings files kept.openedInPlace
      (((useAmong path place openings).openForLog content).on files) := by
  obtain ⟨file, isFile, holds⟩ := isKept.inPlace
  cases isFile.symm.trans stands
  generalize isLog : files.node? (place.beside Files.logEnding) = log at holds
  cases holds with
  | inFile noEntries inFile =>
      exact isKept.openForLog_inFile path notGiven isShort stands (isLog ▸ noEntries) inFile
  | inLog inFile isMarked keepsLog =>
      exact isKept.openForLog_inLog path notGiven isShort stands isLog inFile isMarked keepsLog

theorem openPlace
    (isKept : KeptAt place openings files kept)
    (follows : FollowsTo files path place)
    (told : String) :
    Opens place openings files kept.openedInPlace
      (((useAmong path place openings).openPlace told).on files) := by
  obtain ⟨content, stands, holds⟩ := isKept.inPlace
  have noModeFile : (useAmong path place openings).checkModeFile.on files = (.ok (), files) := rfl
  have visited : files.visit (useAmong path place openings).place = .ok (.file content) :=
    follows.isVisited stands
  have opens := isKept.openForLog path notGiven isShort stands
  unfold ArchiveUse.openPlace
  rw [Attempt.on_bind_ok noModeFile, Attempt.on_bind_ok Attempt.on_get, visited]
  cases content with
  | sink =>
      -- Nothing is kept in a sink.
      generalize files.node? (place.beside Files.logEnding) = log at holds
      cases holds with
      | inFile _ inFile =>
          cases inFile
      | inLog inFile _ _ =>
          cases inFile
  | bytes _ | archive _ | log _ _ | index =>
      exact opens

end Room

end KeptAt

section Opening

variable
  {text : String}
  {place : Place}
  {openings : List OpenArchive}
  {files : Files}
  {kept : KeptArchive}

theorem LeadsToArchive.of_agree
    {after : Files}
    (leads : LeadsToArchive text place files)
    (agree : AgreeAround place after files) :
    LeadsToArchive text place after :=
  { leads with follows := fun later agreeLater => leads.follows later (agreeLater.trans agree) }

/-- The name of an archive leads to it from the current folder, whatever else is there. -/
theorem NamesArchive.leads (names : NamesArchive text) (files : Files) :
    LeadsToArchive text [FilePath.ofText text] files where
  location := names.location
  isKept := names.isKept
  notGiven := names.notGiven
  isShort := names.isShort
  follows after _ := ⟨names.makeParents after, names.nameOf? after, names.visit⟩

/-- An archive is opened where it is kept, whoever has it open there. -/
theorem LeadsToArchive.opens
    (leads : LeadsToArchive text place files)
    (isKept : KeptAt place openings files kept) :
    Opens place openings files kept.openedInPlace
      ((OpenArchive.ofText text openings).on files) := by
  have follows := leads.follows files (.refl place files)
  rw [OpenArchive.on_ofText leads.location leads.isKept follows.hasParents follows.isNamed]
  exact isKept.openPlace _ leads.notGiven leads.isShort follows text

end Opening

end ActivityCatalog
