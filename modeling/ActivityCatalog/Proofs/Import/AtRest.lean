import ActivityCatalog.Proofs.Archive.AtRest
import ActivityCatalog.Proofs.Import.Runs

namespace ActivityCatalog.Import

/-!
# Imports into an archive that rests in a file

A run finds the rows of an archive that rests in its file.  Whatever comes of the run, the
archive rests again with the rows that the run left, and no other file has changed.  So runs
that find the archive where the one before left it are runs that find its rows.
-/

section Store

variable
  {opened stored : OpenArchive}
  {listing : Listing}

theorem exists_rows_of_importListing
    {count : Nat}
    (imported : opened.importListing listing = .ok (stored, count)) :
    ∃ rows, stored = opened.withArchive { opened.archive with rows } := by
  obtain ⟨archiveImported, isStored⟩ := OpenArchive.importListing_eq_ok imported
  refine ⟨stored.archive.rows, isStored.trans (congrArg opened.withArchive ?_)⟩
  exact congrArg (Archive.mk stored.archive.rows)
    (Archive.schemaVersions_of_importListing archiveImported)

theorem exists_rows_of_setRoot
    {id : String}
    (designated : opened.setRoot id = .ok stored) :
    ∃ rows, stored = opened.withArchive { opened.archive with rows } := by
  obtain ⟨marked, isStored⟩ := OpenArchive.setRoot_eq_ok designated
  refine ⟨stored.archive.rows, isStored.trans (congrArg opened.withArchive ?_)⟩
  obtain ⟨-, isMarked⟩ := Archive.setRoot_eq_ok.mp marked
  rw [isMarked]

/-- Storing a listing where nothing hinders it depends on nothing but the archive that is open. -/
theorem storeIn_of_unhindered
    {other : OpenArchive}
    (unhindered : opened.Unhindered)
    (otherUnhindered : other.Unhindered)
    (sameArchive : opened.archive = other.archive)
    (listing : Listing)
    (root : Option String) :
    storeIn opened listing root =
      ((storeIn other listing root).1,
        opened.withArchive (storeIn other listing root).2.archive) := by
  rw [storeIn, storeIn, OpenArchive.importListing_of_unhindered unhindered,
    OpenArchive.importListing_of_unhindered otherUnhindered, sameArchive]
  cases other.archive.importListing listing with
  | error fault =>
      exact Prod.ext rfl (congrArg opened.withArchive sameArchive)
  | ok made =>
      cases root with
      | none =>
          rfl
      | some id =>
          dsimp only [Except.map]
          rw [OpenArchive.setRoot_of_obstacle (unhindered.withArchive made.1).noObstacle,
            OpenArchive.setRoot_of_obstacle (otherUnhindered.withArchive made.1).noObstacle,
            OpenArchive.archive_withArchive, OpenArchive.archive_withArchive]
          cases made.1.setRoot id <;> rfl

/-- Whatever comes of storing a listing, an open archive is changed in its rows alone. -/
theorem exists_rows_of_storeIn
    (opened : OpenArchive)
    (listing : Listing)
    (root : Option String) :
    ∃ rows, (storeIn opened listing root).2 =
      opened.withArchive { opened.archive with rows } := by
  unfold storeIn
  cases imported : opened.importListing listing with
  | error fault =>
      exact ⟨opened.archive.rows, rfl⟩
  | ok made =>
      obtain ⟨rows, isStored⟩ := exists_rows_of_importListing imported
      cases root with
      | none =>
          exact ⟨rows, isStored⟩
      | some id =>
          dsimp only
          cases designated : made.1.setRoot id with
          | error fault =>
              exact ⟨rows, isStored⟩
          | ok after =>
              obtain ⟨flagged, isDesignated⟩ := exists_rows_of_setRoot designated
              exact ⟨flagged, by rw [isDesignated, isStored]; rfl⟩

end Store

/-- What comes of storing a listing in an archive that rested does not depend on other files. -/
theorem storeIn_openedAs
    (files other : Files)
    (text : String)
    (rows : List Row)
    (listing : Listing)
    (root : Option String) :
    storeIn (openedAs files text rows) listing root =
      ((storeIn (openedAs other text rows) listing root).1,
        (openedAs files text rows).withArchive
          (storeIn (openedAs other text rows) listing root).2.archive) := by
  have unhindered : ∀ files, (openedAs files text rows).Unhindered := fun _ => ⟨rfl, rfl⟩
  exact storeIn_of_unhindered (unhindered files) (unhindered other) rfl listing root

/-- Whether a file can be imported depends only on what is read of it. -/
theorem readChecked_congr
    {files other : Files}
    {file : String}
    (sameFile : files.read (FilePath.ofText file) = other.read (FilePath.ofText file)) :
    readChecked files file = readChecked other file := by
  rw [readChecked, readChecked, Files.readListing, Files.readListing, Files.readText,
    Files.readText, sameFile]

section Run

variable
  {archive : String}
  {rows : List Row}
  {run : Run}

/-- A run that cannot read its file leaves all files as they are. -/
theorem Run.files_of_unread
    {fault : Fault}
    (notRead : readChecked run.files run.file = .error fault) :
    run.opened? archive = none ∧ (run.perform archive).2 = run.files := by
  constructor
  · rw [Run.opened?, notRead]
    rfl
  · rw [Run.perform, Import.run, notRead]

/-- A run that can read its file opens an archive that rests, which rests again afterwards. -/
theorem Run.rests_of_read
    (names : NamesArchive archive)
    (rests : Rests run.files archive rows)
    {listing : Listing}
    (isRead : readChecked run.files run.file = .ok listing) :
    run.opened? archive = some (listing, openedAs run.files archive rows) ∧
      Rests (run.perform archive).2 archive
        (storeIn (openedAs run.files archive rows) listing run.root).2.archive.rows ∧
      AgreeBeside archive (run.perform archive).2 run.files := by
  have opens := rests.opens names
  refine ⟨Run.opened?_eq_some.mpr ⟨isRead, congrArg Prod.fst opens⟩, ?_⟩
  obtain ⟨after, isStored⟩ :=
    exists_rows_of_storeIn (openedAs run.files archive rows) listing run.root
  have closes := rests.closes names isStored
  rw [Run.perform, Import.run, isRead]
  simp only [opens]
  rw [isStored] at closes ⊢
  exact closes

end Run

/-- Files in which an archive and what is beside it stand as in others. -/
def AgreeAt (archive : String) (files other : Files) : Prop :=
  ∀ rows, Rests files archive rows → Rests other archive rows

/--
Runs of imports of which each finds the archive where the one before left it, from the files
at the beginning to those at the end.
-/
inductive Chained (archive : String) (start : Files) : List Run → Files → Prop where
  | start : Chained archive start [] start
  | next
      {runs : List Run}
      {run : Run}
      {files : Files}
      (before : Chained archive start runs files)
      (agree : AgreeAt archive files run.files) :
      Chained archive start (runs ++ [run]) (run.perform archive).2

/-- Runs that find an archive where it was left find the rows that were left. -/
theorem Chained.imported
    {archive : String}
    {start files : Files}
    {runs : List Run}
    (names : NamesArchive archive)
    (rests : Rests start archive [])
    (chained : Chained archive start runs files) :
    ∃ held main, Imported archive runs held main ∧ Rests files archive held.rows := by
  induction chained with
  | start =>
      exact ⟨.empty, none, .start rfl, rests⟩
  | @next runs run files before agree inductionHypothesis =>
      obtain ⟨held, main, imported, restsBefore⟩ := inductionHypothesis
      have restsHere := agree held.rows restsBefore
      cases isRead : readChecked run.files run.file with
      | error fault =>
          have ⟨isApart, sameFiles⟩ := @Run.files_of_unread archive run fault isRead
          exact ⟨held, main, imported.apart isApart, sameFiles ▸ restsHere⟩
      | ok listing =>
          obtain ⟨isOpened, restsAfter, -⟩ := Run.rests_of_read names restsHere isRead
          exact ⟨_, _, imported.reached isOpened rfl, restsAfter⟩

end ActivityCatalog.Import
