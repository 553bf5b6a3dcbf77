import ActivityCatalog.Import
import ActivityCatalog.Proofs.Archive.Opened
import ActivityCatalog.Proofs.Archive.Rows
import ActivityCatalog.Proofs.Catalog.Building
import ActivityCatalog.Proofs.Listing

namespace ActivityCatalog

/-!
# Imports into one archive, run after run

A run of an import comes to nothing where the file or the archive cannot be opened.  Otherwise
it stores the listing of the file and perhaps designates a main activity besides, or stores it
and then fails for the main activity that is asked for, or leaves the archive as it was.

Each listing makes a catalog, so all records in it are valid.  What an archive holds after any
number of runs are records of those listings, with different keys.  The main activity that a
run designated is stored, and it stays the main one until another run designates another.
-/

namespace Import

/-- A run of an import: the files at its start, the file, and the main activity asked for. -/
structure Run where
  files : Files
  file : String
  root : Option String

namespace Run

/-- Whether a run into an archive fails, and the files after it. -/
def perform (run : Run) (archive : String) : Except Fault Report × Files :=
  Import.run run.file archive run.root run.files

/-- The listing that a run stores and the archive that it opens for it, if it gets there. -/
def opened? (run : Run) (archive : String) : Option (Listing × OpenArchive) := do
  let listing ← (readChecked run.files run.file).toOption
  let opened ← ((OpenArchive.ofText archive []).on run.files).1.toOption
  pure (listing, opened)

/-- The texts of all records that a run stores keep the numbers in them. -/
def AllKept (run : Run) (archive : String) : Prop :=
  ∀ listing opened, run.opened? archive = some (listing, opened) →
    ∀ activity ∈ listing.activities, activity.written.Kept

end Run

/-- The main activity that an import designates, given what it reports. -/
def designated? (listing : Listing) (root : Option String) :
    Except Fault Report → Option String
  | .ok _ => root.or listing.root
  | .error (.noSuchRoot _ _) => listing.root
  | .error _ => none

/--
What runs of imports into an archive without rows leave of it, and the main activity that was
designated last.  Each run that opens the archive finds the rows that were left before.
-/
inductive Imported (archive : String) : List Run → Archive → Option String → Prop where
  | start
      {held : Archive}
      (noRows : held.rows = []) :
      Imported archive [] held none
  | apart
      {runs : List Run}
      {run : Run}
      {held : Archive}
      {main : Option String}
      (before : Imported archive runs held main)
      (isApart : run.opened? archive = none) :
      Imported archive (runs ++ [run]) held main
  | reached
      {runs : List Run}
      {run : Run}
      {held : Archive}
      {main : Option String}
      {listing : Listing}
      {opened : OpenArchive}
      (before : Imported archive runs held main)
      (isOpened : run.opened? archive = some (listing, opened))
      (sameRows : opened.archive.rows = held.rows) :
      Imported archive (runs ++ [run]) (storeIn opened listing run.root).2.archive
        ((designated? listing run.root (run.perform archive).1).or main)

section Opened

variable
  {run : Run}
  {archive : String}
  {listing : Listing}
  {opened : OpenArchive}

theorem Run.opened?_eq_some :
    run.opened? archive = some (listing, opened) ↔
      readChecked run.files run.file = .ok listing ∧
        ((OpenArchive.ofText archive []).on run.files).1 = .ok opened := by
  unfold Run.opened?
  cases readChecked run.files run.file with
  | error fault =>
      simp [Except.toOption]
  | ok read =>
      cases ((OpenArchive.ofText archive []).on run.files).1 with
      | error fault =>
          simp [Except.toOption]
      | ok found =>
          simp [Except.toOption]

/-- A run that opens its archive reports what comes of storing the listing there. -/
theorem Run.perform_of_opened?
    (isOpened : run.opened? archive = some (listing, opened)) :
    (run.perform archive).1 = (storeIn opened listing run.root).1 := by
  obtain ⟨isRead, openedHere⟩ := Run.opened?_eq_some.mp isOpened
  unfold Run.perform Import.run
  rw [isRead]
  cases attempt : (OpenArchive.ofText archive []).on run.files with
  | mk result files =>
      rw [attempt] at openedHere
      obtain rfl : result = .ok opened := openedHere
      rfl

/-- The listing that a run stores was read from a file, and all records in it are valid. -/
theorem Run.listing_of_opened?
    (isOpened : run.opened? archive = some (listing, opened)) :
    (∀ activity ∈ listing.activities, Listing.WasRead Json.Reader.textRoom activity) ∧
      Catalog.AllValid listing.activities := by
  obtain ⟨isRead, -⟩ := Run.opened?_eq_some.mp isOpened
  obtain ⟨read, listingRead, checked⟩ := bind_eq_ok.mp isRead
  obtain ⟨catalog, built, finished⟩ := bind_eq_ok.mp checked
  cases finished
  refine ⟨?_, Catalog.allValid_of_build (mapError_eq_ok.mp built)⟩
  have readListing := mapError_eq_ok.mp listingRead
  unfold Files.readListing at readListing
  split at readListing
  · cases readListing
  · exact Listing.wasRead_of_ofText (mapError_eq_ok.mp readListing)

end Opened

section Store

variable
  {opened : OpenArchive}
  {listing : Listing}
  {root : Option String}
  {records : List Activity}

/-- Whatever comes of storing a listing, the archive holds records of before and of that. -/
theorem holds_storeIn
    (holds : opened.archive.Holds records)
    (storable : ∀ activity ∈ listing.activities, activity.Storable) :
    ∃ all, all ⊆ records ++ listing.activities ∧
      (storeIn opened listing root).2.archive.Holds all ∧
        (storeIn opened listing root).2.archive.root? =
          (designated? listing root (storeIn opened listing root).1).or opened.archive.root? := by
  unfold storeIn
  cases imported : opened.importListing listing with
  | error fault =>
      exact ⟨records, List.subset_append_left _ _, holds, (Option.none_or).symm⟩
  | ok made =>
      obtain ⟨stored, written⟩ := made
      obtain ⟨archiveImported, -⟩ := OpenArchive.importListing_eq_ok imported
      obtain ⟨all, joined, storedHolds, -, storedRoot⟩ :=
        holds.importListing storable archiveImported
      cases root with
      | none =>
          exact ⟨all, joined.subset, storedHolds, storedRoot⟩
      | some id =>
          dsimp only
          cases designated : stored.setRoot id with
          | error fault =>
              exact ⟨all, joined.subset, storedHolds, storedRoot⟩
          | ok after =>
              obtain ⟨marked, -⟩ := OpenArchive.setRoot_eq_ok designated
              obtain ⟨afterHolds, -, afterRoot⟩ := storedHolds.setRoot marked
              exact ⟨all, joined.subset, afterHolds, afterRoot⟩

end Store

/-- Runs of imports leave valid records with different keys, and the last main activity. -/
theorem Imported.exists_records
    {archive : String}
    {runs : List Run}
    {held : Archive}
    {main : Option String}
    (imported : Imported archive runs held main)
    (kept : ∀ run ∈ runs, run.AllKept archive) :
    ∃ records, held.Holds records ∧ Catalog.AllValid records ∧ held.root? = main := by
  induction imported with
  | start noRows =>
      refine ⟨[], Archive.holds_nil noRows, Catalog.allValid_nil, ?_⟩
      rw [Archive.root?, noRows]
      rfl
  | apart before isApart inductionHypothesis =>
      exact inductionHypothesis (List.forall_mem_append.mp kept).1
  | @reached runs run held main listing opened before isOpened sameRows inductionHypothesis =>
      obtain ⟨earlierKept, runKept⟩ := List.forall_mem_append.mp kept
      obtain ⟨records, holds, recordsValid, isMain⟩ := inductionHypothesis earlierKept
      obtain ⟨wereRead, listingValid⟩ := Run.listing_of_opened? isOpened
      have storable : ∀ activity ∈ listing.activities, activity.Storable := by
        intro activity isListed
        exact (wereRead activity isListed).storable
          (runKept run List.mem_cons_self listing opened isOpened activity isListed)
      obtain ⟨all, subset, allHolds, allRoot⟩ := holds_storeIn (holds.of_rows sameRows) storable
      refine ⟨all, allHolds, recordsValid.of_subset_append listingValid subset, ?_⟩
      rw [allRoot, Run.perform_of_opened? isOpened, Archive.root?_of_rows sameRows, isMain]

end Import

end ActivityCatalog
