import ActivityCatalog.Directory
import ActivityCatalog.Proofs.Catalog.Closure
import ActivityCatalog.Proofs.Import.AtRest
import ActivityCatalog.Proofs.Listing.Layouts
import ActivityCatalog.Source

namespace ActivityCatalog.Import

/-!
# Archives that imports wrote

What runs of imports leave in an archive can be served.  All records in it are valid and their
keys are different, so they make a catalog, and the main activity that was designated last is
found there.

This holds wherever the rows that the runs left are found again.  Runs that find an archive in a
file as the one before left it do find its rows, and so does whoever opens it after them.
-/

/-- A main activity that is stored is found in the catalog of the archive. -/
theorem exists_mainActivity
    {archive : Archive}
    {records : List Activity}
    (holds : archive.Holds records)
    {catalog : Catalog}
    (built : Catalog.build ⟨archive.root?, records⟩ = .ok catalog)
    {id : String}
    (isMain : archive.root? = some id) :
    ∃ activity, catalog.mainActivity none = .ok activity ∧ activity.id = some id := by
  obtain ⟨row, isRow, -, rfl⟩ := holds.root?_eq_some.mp isMain
  obtain ⟨record, isRecord, -, recordKey⟩ := holds.exists_record isRow
  have isKey : row.key ∈ catalog.entries.map Entry.key :=
    (Catalog.holds_of_build built).mem_keys.mpr
      ⟨record, List.mem_append_left _ isRecord, recordKey⟩
  obtain ⟨activity, found⟩ := Option.isSome_iff_exists.mp (Catalog.isSome_get?_none isKey)
  obtain ⟨entry, isEntry, entryId, rfl⟩ := Catalog.exists_entry_of_get? found
  have hasRoot : catalog.root = some row.key.id := by
    obtain ⟨tops, all, -, -, rfl⟩ := Catalog.build_eq_ok.mp built
    exact isMain
  refine ⟨entry.record, ?_, ?_⟩
  · rw [Catalog.mainActivity, Option.orElse_eq_orElse, hasRoot]
    simp only [Option.orElse, found]
  · rw [← entryId]
    exact Activity.id_eq_of_key? ((Catalog.closed_of_build built).keyed entry isEntry)

/-- What is read back of an archive after runs of imports makes a catalog. -/
theorem Imported.exists_catalog
    {archive : String}
    {runs : List Run}
    {held : Archive}
    {main : Option String}
    (imported : Imported archive runs held main)
    (kept : ∀ run ∈ runs, run.AllKept archive)
    {reached : Archive}
    (sameRows : reached.rows = held.rows) :
    ∃ listing catalog, reached.listing = .ok listing ∧ Catalog.build listing = .ok catalog ∧
      listing.root = main ∧ ∀ id, main = some id →
        ∃ activity, catalog.mainActivity none = .ok activity ∧ activity.id = some id := by
  obtain ⟨records, holds, valid, isMain⟩ := imported.exists_records kept
  have reachedHolds := holds.of_rows sameRows
  have reachedMain : reached.root? = main := (Archive.root?_of_rows sameRows).trans isMain
  obtain ⟨catalog, built⟩ := Catalog.exists_build valid reachedHolds.nodup_keys reached.root?
  refine ⟨⟨reached.root?, records⟩, catalog, reachedHolds.listing_eq, built, reachedMain, ?_⟩
  intro id isId
  exact exists_mainActivity reachedHolds built (reachedMain.trans isId)

/-- What is loaded of an open archive makes a catalog with the main activity, if there is one. -/
def Serves
    (files : Files)
    (opened : OpenArchive)
    (archive : String)
    (main : Option String) : Prop :=
  ∃ listing catalog,
    Source.load files opened (.archive archive) = .ok listing ∧
      Catalog.build listing = .ok catalog ∧ listing.root = main ∧
        ∀ id, main = some id →
          ∃ activity, catalog.mainActivity none = .ok activity ∧ activity.id = some id

section Serving

variable
  {archive : String}
  {runs : List Run}
  {held : Archive}
  {main : Option String}
  {files : Files}
  {opened reached : OpenArchive}

theorem Imported.serves
    (imported : Imported archive runs held main)
    (kept : ∀ run ∈ runs, run.AllKept archive)
    (reaches : ((opened.reach .rows).on files).1 = .ok reached)
    (sameRows : reached.archive.rows = held.rows) :
    Serves files opened archive main := by
  obtain ⟨listing, catalog, isListing, built, isMain⟩ := imported.exists_catalog kept sameRows
  refine ⟨listing, catalog, ?_, built, isMain⟩
  exact mapError_eq_ok.mpr (bind_eq_ok.mpr ⟨reached, reaches, isListing⟩)

/-- After runs that find an archive where it was left, it is opened with the rows that are left. -/
theorem Chained.serves
    {start : Files}
    (names : NamesArchive archive)
    (rests : Rests start archive [])
    (chained : Chained archive start runs files)
    (kept : ∀ run ∈ runs, run.AllKept archive) :
    ∃ held main opened after,
      Imported archive runs held main ∧
        (OpenArchive.ofText archive []).on files = (.ok opened, after) ∧
        Serves after opened archive main := by
  obtain ⟨held, main, imported, restsAfter⟩ := chained.imported names rests
  refine ⟨held, main, _, _, imported, restsAfter.opens names, ?_⟩
  exact imported.serves kept (congrArg Prod.fst (reach_openedAs _)) rfl

/--
An archive that was written by imports alone can be served: what is loaded of it makes a
catalog, the main activity of which is the one that was designated last, if any was.  This asks
only that the rows which were left are found again, as they are wherever each run finds the
archive in its file where the run before left it.
-/
theorem load_of_imported (kept : ∀ run ∈ runs, run.AllKept archive) :
    (∀ held main, Imported archive runs held main →
      ∀ files opened reached,
        ((opened.reach .rows).on files).1 = .ok reached →
          reached.archive.rows = held.rows →
            Serves files opened archive main) ∧
      ∀ start files, NamesArchive archive → Rests start archive [] →
        Chained archive start runs files →
          ∃ held main opened after,
            Imported archive runs held main ∧
              (OpenArchive.ofText archive []).on files = (.ok opened, after) ∧
              Serves after opened archive main := by
  constructor
  · intro held main imported files opened reached reaches sameRows
    exact imported.serves kept reaches sameRows
  · intro start files names rests chained
    exact chained.serves names rests kept

end Serving

/-- A hotel. -/
def hotel : Activity :=
  { Activity.blank with id := some "hotel" }

/-- A trip that the hotel is part of. -/
def trip : Activity :=
  { Activity.blank with id := some "trip", subs := [hotel] }

/-- The files of both, and an archive without rows. -/
def tripFiles : Files :=
  ⟨[ ([FilePath.ofText "store.db"], .file (.archive (.withRows []))),
     ([FilePath.ofText "trip.json"], .file (.bytes trip.text.toUTF8.toList)),
     ([FilePath.ofText "hotel.json"], .file (.bytes hotel.text.toUTF8.toList)) ], []⟩

/-- The trip is imported. -/
def tripRun : Run :=
  ⟨tripFiles, "trip.json", none⟩

/-- Then the hotel is, but a day is asked for as the main activity. -/
def hotelRun (files : Files) : Run :=
  ⟨files, "hotel.json", some "day"⟩

theorem rests_tripFiles : Rests tripFiles "store.db" [] := by
  constructor <;> decide +kernel

theorem storable_hotel : hotel.Storable :=
  Activity.storable_of_reader_written rfl (by decide) rfl

theorem storable_trip : trip.Storable :=
  Activity.storable_of_reader_written rfl (by decide) rfl

theorem readChecked_of_built
    {files : Files}
    {file : String}
    {listing : Listing}
    (isRead : files.readListing file = .ok listing)
    {catalog : Catalog}
    (built : Catalog.build listing = .ok catalog) :
    readChecked files file = .ok listing := by
  refine bind_eq_ok.mpr ⟨_, mapError_eq_ok.mpr isRead, ?_⟩
  exact bind_eq_ok.mpr ⟨catalog, mapError_eq_ok.mpr built, rfl⟩

/-- A file with the text of one record that makes a catalog can be imported. -/
theorem readChecked_of_text
    {files : Files}
    {file : String}
    {activity : Activity}
    (hasText : files.readText file = .ok activity.text)
    (storable : activity.Storable)
    {catalog : Catalog}
    (built : Catalog.build ⟨activity.id, [activity]⟩ = .ok catalog) :
    readChecked files file = .ok ⟨activity.id, [activity]⟩ := by
  refine readChecked_of_built ?_ built
  rw [Files.readListing, hasText]
  exact mapError_eq_ok.mpr (Listing.ofText_of_storable storable)

theorem readChecked_trip : readChecked tripFiles "trip.json" = .ok ⟨some "trip", [trip]⟩ :=
  readChecked_of_text (by decide +kernel) storable_trip
    (Catalog.build_eq_ok.mpr ⟨_, _, rfl, rfl, rfl⟩)

theorem readChecked_hotel : readChecked tripFiles "hotel.json" = .ok ⟨some "hotel", [hotel]⟩ :=
  readChecked_of_text (by decide +kernel) storable_hotel
    (Catalog.build_eq_ok.mpr ⟨_, _, rfl, rfl, rfl⟩)

/-- The row of the trip after it was imported. -/
def tripRows : List Row :=
  [⟨⟨"trip", ""⟩, .text trip.text, true⟩]

theorem storeIn_trip (files : Files) :
    storeIn (openedAs files "store.db" []) ⟨some "trip", [trip]⟩ none =
      (.ok ⟨1, 1⟩, openedAs files "store.db" tripRows) := by
  have stored : (storeIn (openedAs ⟨[], []⟩ "store.db" []) ⟨some "trip", [trip]⟩ none).1 =
      .ok ⟨1, 1⟩ := by
    decide +kernel
  have isLeft : (storeIn (openedAs ⟨[], []⟩ "store.db" []) ⟨some "trip", [trip]⟩ none).2.archive =
      ⟨tripRows, [.integer 1]⟩ := by
    decide +kernel
  rw [storeIn_openedAs files ⟨[], []⟩, stored, isLeft]
  rfl

/-- The day is not stored, which is noticed after the hotel was designated. -/
theorem storeIn_hotel (files : Files) :
    (storeIn (openedAs files "store.db" tripRows) ⟨some "hotel", [hotel]⟩ (some "day")).1 =
      .error (.noSuchRoot "day" (.notStored "day")) := by
  rw [storeIn_openedAs files ⟨[], []⟩]
  dsimp only
  decide +kernel

/-- The hotel can be imported wherever its file is as it was. -/
theorem readChecked_hotelRun
    {files : Files}
    (agree : AgreeBeside "store.db" files tripFiles) :
    readChecked files "hotel.json" = .ok ⟨some "hotel", [hotel]⟩ := by
  have isName :
      FilePath.pieces (FilePath.ofText "hotel.json") = [FilePath.ofText "hotel.json"] := by
    decide +kernel
  have isPlace : FilePath.goOn (FilePath.start (FilePath.ofText "hotel.json"))
      (FilePath.ofText "hotel.json") = [FilePath.ofText "hotel.json"] := by
    decide +kernel
  have isThere := agree [FilePath.ofText "hotel.json"]
    (by decide +kernel) (by decide +kernel) (by decide +kernel)
  rw [← isPlace] at isThere
  exact (readChecked_congr (FileTree.read_congr isName isThere)).trans readChecked_hotel

/-- A run that stores one record keeps all numbers if the record does. -/
theorem allKept_of_opened?
    {run : Run}
    {archive : String}
    {root : Option String}
    {activity : Activity}
    {opened : OpenArchive}
    (isOpened : run.opened? archive = some (⟨root, [activity]⟩, opened))
    (kept : activity.written.Kept) :
    run.AllKept archive := by
  intro listing found isFound record isListed
  cases isOpened.symm.trans isFound
  cases List.mem_singleton.mp isListed
  exact kept

theorem rows_storeIn_trip :
    (storeIn (openedAs tripRun.files "store.db" []) ⟨some "trip", [trip]⟩
      tripRun.root).2.archive.rows = tripRows :=
  congrArg (fun made => made.2.archive.rows) (storeIn_trip tripRun.files)

/-- The first run stores the trip and leaves all other files as they are. -/
theorem tripRun_leaves :
    tripRun.opened? "store.db" =
        some (⟨some "trip", [trip]⟩, openedAs tripRun.files "store.db" []) ∧
      Rests (tripRun.perform "store.db").2 "store.db" tripRows ∧
      AgreeBeside "store.db" (tripRun.perform "store.db").2 tripFiles := by
  have restsHere : Rests tripRun.files "store.db" [] := rests_tripFiles
  have isRead : readChecked tripRun.files tripRun.file = .ok ⟨some "trip", [trip]⟩ :=
    readChecked_trip
  obtain ⟨isOpened, rests, agree⟩ := Run.rests_of_read namesArchive_store restsHere isRead
  rw [rows_storeIn_trip] at rests
  exact ⟨isOpened, rests, agree⟩

/-- The second run fails, but it designates the hotel. -/
theorem imported_hotelRun
    {files : Files}
    (rests : Rests files "store.db" tripRows)
    (agree : AgreeBeside "store.db" files tripFiles) :
    ((hotelRun files).perform "store.db").1 = .error (.noSuchRoot "day" (.notStored "day")) ∧
      ∃ held, Imported "store.db" [tripRun, hotelRun files] held (some "hotel") ∧
        (∀ run ∈ [tripRun, hotelRun files], run.AllKept "store.db") ∧
          Rests ((hotelRun files).perform "store.db").2 "store.db" held.rows := by
  have restsHere : Rests (hotelRun files).files "store.db" tripRows := rests
  have isRead : readChecked (hotelRun files).files (hotelRun files).file =
      .ok ⟨some "hotel", [hotel]⟩ :=
    readChecked_hotelRun agree
  obtain ⟨hotelOpened, hotelRests, -⟩ := Run.rests_of_read namesArchive_store restsHere isRead
  have failed := (Run.perform_of_opened? hotelOpened).trans (storeIn_hotel files)
  have started : Imported "store.db" [] .empty none := .start rfl
  have imported := (started.reached tripRun_leaves.1 rfl).reached hotelOpened rows_storeIn_trip.symm
  rw [failed] at imported
  refine ⟨failed, _, imported, ?_, hotelRests⟩
  rintro run (_ | ⟨_, _ | ⟨_, ⟨⟩⟩⟩)
  · exact allKept_of_opened? tripRun_leaves.1 storable_trip.kept
  · exact allKept_of_opened? hotelOpened storable_hotel.kept

/-- The second run finds the archive where the first one left it. -/
theorem chained_hotelRun
    {files : Files}
    (left : (tripRun.perform "store.db").2 = files) :
    Chained "store.db" tripFiles [tripRun, hotelRun files]
      ((hotelRun files).perform "store.db").2 := by
  have first : Chained "store.db" tripFiles [tripRun] (tripRun.perform "store.db").2 :=
    Chained.start.next fun _ rests => rests
  rw [left] at first
  exact first.next fun _ rests => rests

/-- The hotel is the main activity after both runs, though the second of them fails. -/
theorem load_of_imported_trip :
    ((hotelRun (tripRun.perform "store.db").2).perform "store.db").1 =
        .error (.noSuchRoot "day" (.notStored "day")) ∧
      (∃ opened after,
        (OpenArchive.ofText "store.db" []).on
            ((hotelRun (tripRun.perform "store.db").2).perform "store.db").2 =
          (.ok opened, after) ∧
        Serves after opened "store.db" (some "hotel")) ∧
      ∃ held main opened after,
        Imported "store.db" [tripRun, hotelRun (tripRun.perform "store.db").2] held main ∧
          (OpenArchive.ofText "store.db" []).on
              ((hotelRun (tripRun.perform "store.db").2).perform "store.db").2 =
            (.ok opened, after) ∧
          Serves after opened "store.db" main := by
  obtain ⟨-, rests, agree⟩ := tripRun_leaves
  obtain ⟨failed, held, imported, kept, restsAfter⟩ := imported_hotelRun rests agree
  obtain ⟨served, servedInFile⟩ := load_of_imported kept
  refine ⟨failed, ⟨_, _, restsAfter.opens namesArchive_store, ?_⟩, ?_⟩
  · exact served held (some "hotel") imported _ _ _
      (congrArg Prod.fst (reach_openedAs _)) rfl
  · exact servedInFile tripFiles _ namesArchive_store rests_tripFiles (chained_hotelRun rfl)

end ActivityCatalog.Import
