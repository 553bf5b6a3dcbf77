import ActivityCatalog.Proofs.Archive.Rows
import ActivityCatalog.Proofs.Catalog.Building

namespace ActivityCatalog.Archive

/-!
# Catalogs of archives into which listings were imported

An archive without rows holds, after a listing was imported, the records of the listing less
those that equal earlier ones, and the main activity of the listing.  So what is read back
makes the catalog that the listing makes itself.
-/

/--
A listing that makes a catalog and was imported into an archive without rows is read back as
one that makes the same catalog, with the same main activity, records and issues.
-/
theorem build_listing_of_imported
    {start archive : Archive}
    (noRows : start.rows = [])
    {listing : Listing}
    {catalog : Catalog}
    {count : Nat}
    (storable : ∀ activity ∈ listing.activities, activity.Storable)
    (built : Catalog.build listing = .ok catalog)
    (imported : start.importListing listing = .ok (archive, count)) :
    ∃ stored, archive.listing = .ok stored ∧ Catalog.build stored = .ok catalog := by
  obtain ⟨all, joined, holds, -, isRoot⟩ := (holds_nil noRows).importListing storable imported
  have noRoot : start.root? = none := by
    rw [root?, noRows]
    rfl
  rw [noRoot, Option.or_none] at isRoot
  refine ⟨⟨listing.root, all⟩, ?_, Catalog.build_of_joined joined built⟩
  rw [← isRoot]
  exact holds.listing_eq

/-- A listing that gives the trip twice. -/
def repeatedListing : Listing :=
  ⟨some "hotel", [Catalog.trip, Catalog.hotel, Catalog.trip]⟩

/-- The rows of a new archive after that listing was imported. -/
def repeatedRows : List Row :=
  [ ⟨⟨"trip", "1"⟩, .text Catalog.trip.text, false⟩,
    ⟨⟨"hotel", "1"⟩, .text Catalog.hotel.text, true⟩ ]

/-- What the catalog of that listing holds. -/
def repeatedEntries : List Entry :=
  [ ⟨⟨"trip", "1"⟩, Catalog.trip, true⟩, ⟨⟨"hotel", "1"⟩, Catalog.hotel, true⟩,
    ⟨⟨"day", "1"⟩, Catalog.day, false⟩,
    ⟨⟨"trip", ""⟩, { Activity.blank with id := some "trip" }, false⟩ ]

/-- The catalog of that listing. -/
def repeatedCatalog : Catalog :=
  let found : Catalog := ⟨repeatedEntries, 4, none, []⟩
  { found with root := some "hotel", issues := found.findIssues }

theorem build_repeatedListing : Catalog.build repeatedListing = .ok repeatedCatalog :=
  Catalog.build_eq_ok.mpr
    ⟨⟨repeatedEntries.take 2, 2, none, []⟩, ⟨repeatedEntries, 4, none, []⟩, rfl, rfl, rfl⟩

theorem storable_repeatedListing :
    ∀ activity ∈ repeatedListing.activities, activity.Storable := by
  have trip : Catalog.trip.Storable :=
    Activity.storable_of_reader_written rfl (by decide) rfl
  have hotel : Catalog.hotel.Storable :=
    Activity.storable_of_reader_written rfl (by decide) rfl
  simp [repeatedListing, trip, hotel]

/-- Two rows are left of that listing, and they make its catalog. -/
theorem build_listing_of_imported_repeated :
    fresh.importListing repeatedListing = .ok (⟨repeatedRows, [.integer 1]⟩, 3) ∧
      ∃ stored, Archive.listing ⟨repeatedRows, [.integer 1]⟩ = .ok stored ∧
        Catalog.build stored = .ok repeatedCatalog := by
  have imported :
      fresh.importListing repeatedListing = .ok (⟨repeatedRows, [.integer 1]⟩, 3) := by
    decide +kernel
  exact ⟨imported, build_listing_of_imported (rfl : fresh.rows = []) storable_repeatedListing
    build_repeatedListing imported⟩

end ActivityCatalog.Archive
