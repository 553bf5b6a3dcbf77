import ActivityCatalog.Proofs.Archive.Visits

namespace ActivityCatalog

/-!
# Archives that are open more than once

An archive is kept in a place by its file and by the log beside it, whoever has it open: what the
log holds counts, or the file if there are no entries in the log.  Nobody who has it open hinders
another to open it.  Closing it where it is open elsewhere leaves the files alone, and closing it
at last puts what the log holds into the file.
-/

/-- A log that is missing or empty has no entries. -/
def HasNoEntries (log : Option (FileNode StoredFile)) : Prop :=
  log = none ∨ log = some (.file (.bytes []))

/-- What is kept by a file and the log beside it. -/
inductive StoredFile.HoldsWith (file : StoredFile) :
    Option (FileNode StoredFile) → KeptArchive → Prop where
  | inFile
      {log : Option (FileNode StoredFile)}
      {kept : KeptArchive}
      (noEntries : HasNoEntries log)
      (isKept : file.kept = .ok kept) :
      HoldsWith file log kept
  | inLog
      {kept before : KeptArchive}
      {isWhole : Bool}
      (isKept : file.kept = .ok before)
      (isMarked : before.keepsLog = true)
      (keepsLog : kept.keepsLog = true) :
      HoldsWith file (some (.file (.log kept isWhole))) kept

/-- The log of an archive that is open in a place, as those that may change it have it. -/
structure OpenLog.Fits (log : OpenLog) (place : Place) (files : Files) : Prop where
  mayChange : log.isReadOnly = false
  withIndex : log.hasIndex = true
  noEntries : HasNoEntries (files.node? (place.beside Files.logEnding)) → log.hasEntries = false

/-- An archive that is open in a place, by its log. -/
structure OpenArchive.HeldAt (opened : OpenArchive) (place : Place) (files : Files) : Prop where
  isPlace : opened.place = some place
  isCurrent : opened.generation = files.generation place
  hasLog : ∃ log, opened.log = some log ∧ log.Fits place files

/-- An archive that is kept in a place, for those who have it open there. -/
structure KeptAt (place : Place) (openings : List OpenArchive) (files : Files)
    (kept : KeptArchive) : Prop where
  noJournal : files.node? (place.beside Files.journalEnding) = none
  noFolder : files.node? (place.beside Files.indexEnding) ≠ some .folder
  inPlace : ∃ file, files.node? place = some (.file file) ∧
    file.HoldsWith (files.node? (place.beside Files.logEnding)) kept
  areHeld : ∀ opened ∈ openings, opened.HeldAt place files
  keepsLog : openings ≠ [] → kept.keepsLog = true

/-- An archive stays open while its file is not taken away and its log keeps its entries. -/
theorem OpenArchive.HeldAt.stays
    {opened : OpenArchive}
    {place : Place}
    {files after : Files}
    (isHeld : opened.HeldAt place files)
    (sameGeneration : after.generation place = files.generation place)
    (noEntries : HasNoEntries (after.node? (place.beside Files.logEnding)) →
      HasNoEntries (files.node? (place.beside Files.logEnding))) :
    opened.HeldAt place after := by
  obtain ⟨log, isLog, fits⟩ := isHeld.hasLog
  refine ⟨isHeld.isPlace, isHeld.isCurrent.trans sameGeneration.symm, log, isLog, ?_⟩
  exact ⟨fits.mayChange, fits.withIndex, fun none => fits.noEntries (noEntries none)⟩

namespace KeptAt

variable
  {place touched : Place}
  {openings : List OpenArchive}
  {files : Files}
  {kept now : KeptArchive}
  {content : StoredFile}

theorem subset
    {fewer : List OpenArchive}
    (isKept : KeptAt place openings files kept)
    (areOpen : fewer ⊆ openings) :
    KeptAt place fewer files kept :=
  { isKept with
    areHeld := fun opened isOpen => isKept.areHeld opened (areOpen isOpen)
    keepsLog := fun areSome =>
      isKept.keepsLog (List.ne_nil_of_mem (areOpen (List.head_mem areSome))) }

/-- Whoever opens an archive in a place joins those who have it open there. -/
theorem joins
    {opened : OpenArchive}
    (isKept : KeptAt place openings files kept)
    (keepsLog : kept.keepsLog = true)
    (isHeld : opened.HeldAt place files) :
    KeptAt place (opened :: openings) files kept :=
  { isKept with
    areHeld := List.forall_mem_cons.mpr ⟨isHeld, isKept.areHeld⟩
    keepsLog := fun _ => keepsLog }

theorem noLogFolder (isKept : KeptAt place openings files kept) :
    files.node? (place.beside Files.logEnding) ≠ some .folder := by
  obtain ⟨file, -, holds⟩ := isKept.inPlace
  intro isFolder
  rw [isFolder] at holds
  cases holds with
  | inFile noEntries _ =>
      simp [HasNoEntries] at noEntries

/-- Those who have an archive open go on with it when its file, log or index is written. -/
theorem put
    (isKept : KeptAt place openings files kept)
    (isAround : IsAround place touched)
    {written : StoredFile}
    (inPlace : ∃ file,
      (files.put touched (.file written)).node? place = some (.file file) ∧
        file.HoldsWith
          ((files.put touched (.file written)).node? (place.beside Files.logEnding)) now)
    (noEntries :
      HasNoEntries ((files.put touched (.file written)).node? (place.beside Files.logEnding)) →
        HasNoEntries (files.node? (place.beside Files.logEnding)))
    (keepsLog : openings ≠ [] → now.keepsLog = true) :
    KeptAt place openings (files.put touched (.file written)) now where
  noJournal := (AgreeAround.put isAround _ files).noJournal isKept.noJournal
  noFolder := by
    rw [FileTree.node?_put _ _ Files.isGiven_index]
    split
    · simp
    · exact isKept.noFolder
  inPlace := inPlace
  areHeld opened isOpen := (isKept.areHeld opened isOpen).stays rfl noEntries
  keepsLog := keepsLog

/-- An archive that is kept in its file alone is left there when its log is taken away. -/
theorem of_withoutLog
    (notGiven : place.isGiven = false)
    (stands : files.node? place = some (.file content))
    (isKept : content.kept = .ok kept)
    (noJournal : files.node? (place.beside Files.journalEnding) = none)
    (noLogFolder : files.node? (place.beside Files.logEnding) ≠ some .folder)
    (noFolder : files.node? (place.beside Files.indexEnding) ≠ some .folder) :
    KeptAt place [] (withoutLog files place) kept ∧
      AgreeAround place (withoutLog files place) files := by
  have agree := AgreeAround.withoutLog noLogFolder noFolder
  have dropped := @node?_withoutLog files place noLogFolder noFolder
  have noIndex : (withoutLog files place).node? (place.beside Files.indexEnding) = none := by
    rw [dropped Files.isGiven_index, if_pos rfl]
  have noLog : (withoutLog files place).node? (place.beside Files.logEnding) = none := by
    rw [dropped Files.isGiven_log, if_neg (by simp), if_pos rfl]
  have stillStands : (withoutLog files place).node? place = some (.file content) := by
    rw [dropped notGiven, if_neg (by simp), if_neg (by simp), stands]
  exact ⟨{
    noJournal := agree.noJournal noJournal
    noFolder := by simp [noIndex]
    inPlace := ⟨content, stillStands, .inFile (.inl noLog) isKept⟩
    areHeld := by simp
    keepsLog := fun areSome => absurd rfl areSome }, agree⟩

/-- An archive is kept as it was when it is open no longer and its log is closed. -/
theorem closeLog
    (notGiven : place.isGiven = false)
    (isKept : KeptAt place openings files kept)
    {log : OpenLog}
    (mayChange : log.isReadOnly = false)
    (withIndex : log.hasIndex = true) :
    KeptAt place [] (files.closeLog place log) kept ∧
      AgreeAround place (files.closeLog place log) files := by
  have noLogFolder := isKept.noLogFolder
  obtain ⟨content, stands, holds⟩ := isKept.inPlace
  unfold Files.closeLog
  simp only [mayChange, withIndex, Bool.false_eq_true, ↓reduceIte]
  generalize isLog : files.node? (place.beside Files.logEnding) = held at holds
  cases holds with
  | inFile noEntries inFile =>
      have dropped :=
        of_withoutLog notGiven stands inFile isKept.noJournal noLogFolder isKept.noFolder
      rcases noEntries with rfl | rfl
      · exact dropped
      · exact dropped
  | inLog _ _ _ =>
      -- What the log holds goes to the file first.
      let filled := files.put place (.file (.archive kept))
      have isFilled : AgreeAround place filled files := .put (.inl rfl) _ files
      have inFile : filled.node? place = some (.file (.archive kept)) := by
        simp [filled, FileTree.node?_put, notGiven]
      have sameLog : filled.node? (place.beside Files.logEnding) =
          files.node? (place.beside Files.logEnding) := by
        simp [filled, FileTree.node?_put]
      have sameIndex : filled.node? (place.beside Files.indexEnding) =
          files.node? (place.beside Files.indexEnding) := by
        simp [filled, FileTree.node?_put]
      have dropped := of_withoutLog notGiven inFile rfl (isFilled.noJournal isKept.noJournal)
        (sameLog ▸ noLogFolder) (sameIndex ▸ isKept.noFolder)
      exact ⟨dropped.1, dropped.2.trans isFilled⟩

/-- An archive is kept as it was when the last who has it open closes it. -/
theorem close
    (notGiven : place.isGiven = false)
    (isKept : KeptAt place openings files kept)
    {opened : OpenArchive}
    (isOpen : opened ∈ openings) :
    KeptAt place [] (opened.close files) kept ∧ AgreeAround place (opened.close files) files := by
  have isHeld := isKept.areHeld opened isOpen
  obtain ⟨log, isLog, fits⟩ := isHeld.hasLog
  rw [OpenArchive.close, isHeld.isPlace, isLog]
  exact isKept.closeLog notGiven fits.mayChange fits.withIndex

end KeptAt

end ActivityCatalog
