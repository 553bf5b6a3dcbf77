import ActivityCatalog.Proofs.Archive.Visits
import ActivityCatalog.Proofs.Import.Serving

namespace ActivityCatalog.Import

/-!
# What an import that fails leaves

An import fails before the archive is opened, when it is opened, when the listing is stored, or
for the main activity that is asked for.  In the last case the listing is stored by then, and its
own main activity designated: the import leaves what it would leave if no main activity was asked
for.  In all others the archive keeps its rows, be it that it is opened and closed meanwhile.
-/

section Steps

variable
  {opened stored : OpenArchive}
  {listing : Listing}
  {root : Option String}
  {count : Nat}
  {cause : ArchiveFault}

theorem storeIn_of_refused (refused : opened.importListing listing = .error cause) :
    storeIn opened listing root = (.error (.refused cause), opened) := by
  rw [storeIn, refused]

theorem storeIn_none_of_imported (imported : opened.importListing listing = .ok (stored, count)) :
    storeIn opened listing none = (.ok ⟨count, stored.archive.count⟩, stored) := by
  rw [storeIn, imported]

theorem storeIn_of_designated
    {id : String}
    {designated : OpenArchive}
    (imported : opened.importListing listing = .ok (stored, count))
    (designates : stored.setRoot id = .ok designated) :
    storeIn opened listing (some id) =
      (.ok ⟨count, designated.archive.count⟩, designated) := by
  rw [storeIn, imported]
  dsimp only
  rw [designates]

theorem storeIn_of_unstored
    {id : String}
    (imported : opened.importListing listing = .ok (stored, count))
    (unstored : stored.setRoot id = .error cause) :
    storeIn opened listing (some id) = (.error (.noSuchRoot id cause), stored) := by
  rw [storeIn, imported]
  dsimp only
  rw [unstored]

/-- Storing a listing fails without a change, or after the listing was stored as it is. -/
theorem storeIn_of_error
    {fault : Fault}
    (failed : (storeIn opened listing root).1 = .error fault) :
    (∃ cause, fault = .refused cause ∧ (storeIn opened listing root).2 = opened) ∨
      ∃ id cause report, root = some id ∧ fault = .noSuchRoot id cause ∧
        storeIn opened listing none = (.ok report, (storeIn opened listing root).2) := by
  cases imported : opened.importListing listing with
  | error cause =>
      rw [storeIn_of_refused imported] at failed ⊢
      cases failed
      exact .inl ⟨cause, rfl, rfl⟩
  | ok made =>
      obtain ⟨stored, count⟩ := made
      cases root with
      | none =>
          rw [storeIn_none_of_imported imported] at failed
          cases failed
      | some id =>
          cases designates : stored.setRoot id with
          | ok designated =>
              rw [storeIn_of_designated imported designates] at failed
              cases failed
          | error cause =>
              rw [storeIn_of_unstored imported designates] at failed ⊢
              cases failed
              exact .inr ⟨id, cause, _, rfl, rfl, storeIn_none_of_imported imported⟩

end Steps

section Runs

variable
  {file archive : String}
  {root : Option String}
  {files : Files}

theorem unread_of_error
    {fault : Fault}
    (notRead : readChecked files file = .error fault) :
    (∃ cause, fault = .unreadable file cause) ∨ ∃ cause, fault = .invalid file cause := by
  rcases bind_eq_error.mp notRead with unread | ⟨listing, -, rest⟩
  · obtain ⟨cause, -, rfl⟩ := mapError_eq_error.mp unread
    exact .inl ⟨cause, rfl⟩
  · rcases bind_eq_error.mp rest with invalid | ⟨catalog, -, finished⟩
    · obtain ⟨cause, -, rfl⟩ := mapError_eq_error.mp invalid
      exact .inr ⟨cause, rfl⟩
    · cases finished

/--
An import fails with no regard to the main activity that is asked for, and leaves the files or
visits the archive; or it stores a listing in the archive that it opens, and closes that.
-/
theorem run_cases (file archive : String) (files : Files) :
    (∃ fault after,
      (∀ id cause, fault ≠ .noSuchRoot id cause) ∧
        (after = files ∨ after = OpenArchive.visited archive files) ∧
        ∀ root, run file archive root files = (.error fault, after)) ∨
      ∃ listing opened after,
        readChecked files file = .ok listing ∧
          (OpenArchive.ofText archive []).on files = (.ok opened, after) ∧
          ∀ root, run file archive root files =
            ((storeIn opened listing root).1,
              opened.settled (storeIn opened listing root).2 after) := by
  cases isRead : readChecked files file with
  | error fault =>
      have fails : ∀ root, run file archive root files = (.error fault, files) := by
        intro root
        rw [run, isRead]
      have notUnstored : ∀ id cause, fault ≠ .noSuchRoot id cause := by
        rintro id cause rfl
        rcases unread_of_error isRead with ⟨_, ⟨⟩⟩ | ⟨_, ⟨⟩⟩
      exact .inl ⟨fault, files, notUnstored, .inl rfl, fails⟩
  | ok listing =>
      rcases attempt : (OpenArchive.ofText archive []).on files with ⟨cause | opened, after⟩
      · have isVisited : after = OpenArchive.visited archive files := by
          rw [OpenArchive.visited, attempt]
        refine .inl ⟨.cannotOpen archive cause, after, ?_, .inr isVisited, ?_⟩
        · rintro id other ⟨⟩
        · intro root
          simp only [run, isRead, attempt]
      · refine .inr ⟨listing, opened, after, rfl, rfl, ?_⟩
        intro root
        simp only [run, isRead, attempt]
        rfl

/-- An import that fails stored the listing, or left the files alone, or visited the archive. -/
theorem run_of_error
    {fault : Fault}
    (failed : (run file archive root files).1 = .error fault) :
    (∃ id cause report,
      root = some id ∧ fault = .noSuchRoot id cause ∧
        run file archive none files = (.ok report, (run file archive root files).2)) ∨
      (∀ id cause, fault ≠ .noSuchRoot id cause) ∧
        ((run file archive root files).2 = files ∨
          (run file archive root files).2 = OpenArchive.visited archive files) := by
  rcases run_cases file archive files with
    ⟨early, after, notUnstored, leaves, fails⟩ | ⟨listing, opened, after, -, attempt, stores⟩
  · rw [fails root] at failed ⊢
    cases failed
    exact .inr ⟨notUnstored, leaves⟩
  · rw [stores root] at failed ⊢
    -- Only a main activity that is missing is noticed after the listing was stored.
    rcases storeIn_of_error failed with
      ⟨cause, rfl, unchanged⟩ | ⟨id, cause, report, isAsked, rfl, isStored⟩
    · refine .inr ⟨nofun, .inr ?_⟩
      rw [unchanged, OpenArchive.visited, attempt]
    · refine .inl ⟨id, cause, report, isAsked, rfl, ?_⟩
      rw [stores none, isStored]

/--
An import that fails either stored the listing, and only the main activity that was asked for is
missing: then it leaves what it leaves if no main activity is asked for, which succeeds.  Or all
files are as they were, or as opening and closing the archive leaves them.  Whatever stands in
the file of an archive that is not open, the archive has the same rows after this, in the same
order and with the same flags of the main activity.
-/
theorem failed_run_cases
    {fault : Fault}
    (failed : (run file archive root files).1 = .error fault) :
    (∃ id cause report,
      root = some id ∧ fault = .noSuchRoot id cause ∧
        run file archive none files = (.ok report, (run file archive root files).2)) ∨
      (∀ id cause, fault ≠ .noSuchRoot id cause) ∧
        ((run file archive root files).2 = files ∨
          (run file archive root files).2 = OpenArchive.visited archive files) ∧
        (NamesArchive archive →
          IsClosed files archive →
            IsClosed (run file archive root files).2 archive ∧
              storedRows (run file archive root files).2 archive = storedRows files archive) := by
  rcases run_of_error failed with isStored | ⟨notUnstored, leaves⟩
  · exact .inl isStored
  · refine .inr ⟨notUnstored, leaves, ?_⟩
    intro names isClosed
    rcases leaves with unchanged | isVisited
    · rw [unchanged]
      exact ⟨isClosed, rfl⟩
    · rw [isVisited]
      exact OpenArchive.visited_keeps names isClosed

end Runs

/-- The import of the hotel with the day as the main activity fails, but designates the hotel. -/
theorem hotelRun_designates
    {files : Files}
    (rests : Rests files "store.db" tripRows)
    (agree : AgreeBeside "store.db" files tripFiles) :
    (run "hotel.json" "store.db" (some "day") files).1 =
        .error (.noSuchRoot "day" (.notStored "day")) ∧
      ∃ held : Archive, held.root? = some "hotel" ∧
        Rests (run "hotel.json" "store.db" (some "day") files).2 "store.db" held.rows := by
  obtain ⟨failed, held, imported, kept, restsAfter⟩ := imported_hotelRun rests agree
  obtain ⟨-, -, -, isMain⟩ := imported.exists_records kept
  exact ⟨failed, held, isMain, restsAfter⟩

/-- The hotel is left by the import that fails as by the one that asks for no main activity. -/
theorem failed_run_cases_hotel :
    let files := (tripRun.perform "store.db").2
    (run "hotel.json" "store.db" (some "day") files).1 =
        .error (.noSuchRoot "day" (.notStored "day")) ∧
      ∃ report, run "hotel.json" "store.db" none files =
        (.ok report, (run "hotel.json" "store.db" (some "day") files).2) := by
  obtain ⟨-, rests, agree⟩ := tripRun_leaves
  obtain ⟨failed, -⟩ := hotelRun_designates rests agree
  refine ⟨failed, ?_⟩
  rcases failed_run_cases failed with ⟨id, cause, report, -, -, isPlain⟩ | ⟨notUnstored, -⟩
  · exact ⟨report, isPlain⟩
  · exact absurd rfl (notUnstored _ _)

/-- An import that fails may leave another main activity. -/
theorem failed_run_designates :
    ∃ file archive root files fault,
      NamesArchive archive ∧ IsClosed files archive ∧
        (run file archive root files).1 = .error fault ∧
          Archive.root? ⟨storedRows files archive, []⟩ = some "trip" ∧
            Archive.root? ⟨storedRows (run file archive root files).2 archive, []⟩ =
              some "hotel" := by
  obtain ⟨-, rests, agree⟩ := tripRun_leaves
  obtain ⟨failed, held, isMain, restsAfter⟩ := hotelRun_designates rests agree
  refine ⟨_, _, _, _, _, namesArchive_store, rests.isClosed, failed, ?_, ?_⟩
  · rw [rests.storedRows_eq]
    rfl
  · refine (Archive.root?_of_rows ?_).trans isMain
    exact restsAfter.storedRows_eq

end ActivityCatalog.Import
