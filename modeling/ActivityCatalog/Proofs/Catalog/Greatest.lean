import ActivityCatalog.Proofs.Catalog.Reordering

namespace ActivityCatalog.Catalog

/-!
# The latest version of an id is the greatest one

Asked for an id without a version, a catalog gives the record of the greatest version that it
has of the id.  Versions are ordered linearly, so that there is one such version if there is any
at all, and which one it is depends on nothing but the versions that are there.
-/

/-- A catalog has a record of an id and a version. -/
def HasVersion (catalog : Catalog) (id version : String) : Prop :=
  catalog.get? id (some version) ≠ none

/-- All other versions that a catalog has of an id come before this one. -/
def IsGreatest (catalog : Catalog) (id version : String) : Prop :=
  catalog.HasVersion id version ∧
    ∀ other, catalog.HasVersion id other → other ≠ version → Version.order other version = .lt

section Versions

variable
  {catalog : Catalog}
  {id version : String}
  {record : Activity}

theorem hasVersion_iff :
    catalog.HasVersion id version ↔ ⟨id, version⟩ ∈ catalog.entries.map Entry.key := by
  rw [HasVersion, get?, Ne, Option.map_eq_none_iff, entry?_eq_none, not_not]

/-- An id has no two greatest versions. -/
theorem IsGreatest.unique
    {other : String}
    (isGreatest : catalog.IsGreatest id version)
    (otherGreatest : catalog.IsGreatest id other) :
    other = version := by
  by_contra different
  have isLower := isGreatest.2 other otherGreatest.1 different
  have isHigher := otherGreatest.2 version isGreatest.1 (Ne.symm different)
  exact Std.OrientedCmp.not_lt_of_lt isLower isHigher

/-- The record that is found for an id is that of its greatest version. -/
theorem Closed.isGreatest_of_get?_none
    (closed : catalog.Closed)
    (found : catalog.get? id none = some record) :
    catalog.IsGreatest id record.versionText ∧
      catalog.get? id (some record.versionText) = some record := by
  obtain ⟨member, sameId, isLatest⟩ := closed.get?_none_eq_some.mp found
  have stands : catalog.get? id (some record.versionText) = some record :=
    closed.get?_some_eq_some.mpr ⟨member, sameId, rfl⟩
  refine ⟨⟨by simp [HasVersion, stands], ?_⟩, stands⟩
  intro other hasOther different
  obtain ⟨held, heldFound⟩ := Option.ne_none_iff_exists'.mp hasOther
  obtain ⟨heldMember, heldId, rfl⟩ := closed.get?_some_eq_some.mp heldFound
  have notEarlier := isLatest held heldMember (heldId.trans sameId.symm)
  have notSame : Version.order record.versionText held.versionText ≠ .eq :=
    fun same => different (Std.LawfulEqCmp.eq_of_compare same).symm
  apply Std.OrientedCmp.lt_of_gt
  cases ordered : Version.order record.versionText held.versionText with
  | lt =>
      rw [ordered] at notEarlier
      cases notEarlier
  | eq =>
      exact absurd ordered notSame
  | gt =>
      rfl

/-- A record is found for an id as soon as there is a version of it. -/
theorem exists_get?_none
    (hasVersion : catalog.HasVersion id version) :
    ∃ record, catalog.get? id none = some record :=
  Option.isSome_iff_exists.mp (isSome_get?_none (hasVersion_iff.mp hasVersion))

theorem Closed.get?_none_eq_none
    (closed : catalog.Closed) :
    catalog.get? id none = none ↔ ∀ version, catalog.get? id (some version) = none := by
  constructor
  · intro notFound version
    by_contra hasVersion
    obtain ⟨record, found⟩ := exists_get?_none hasVersion
    rw [notFound] at found
    cases found
  · intro noVersion
    by_contra isFound
    obtain ⟨record, found⟩ := Option.ne_none_iff_exists'.mp isFound
    exact (closed.isGreatest_of_get?_none found).1.1 (noVersion _)

/-- The record of the greatest version of an id is the one that is found for the id. -/
theorem Closed.get?_of_isGreatest
    (closed : catalog.Closed)
    (isGreatest : catalog.IsGreatest id version) :
    catalog.get? id none = catalog.get? id (some version) := by
  obtain ⟨record, found⟩ := exists_get?_none isGreatest.1
  obtain ⟨alsoGreatest, stands⟩ := closed.isGreatest_of_get?_none found
  rw [found, ← isGreatest.unique alsoGreatest, stands]

theorem Closed.get?_none_iff_isGreatest
    (closed : catalog.Closed) :
    catalog.get? id none = some record ↔
      record ∈ catalog.records ∧ record.idText = id ∧
        catalog.IsGreatest id record.versionText := by
  constructor
  · intro found
    obtain ⟨isGreatest, stands⟩ := closed.isGreatest_of_get?_none found
    obtain ⟨member, sameId, -⟩ := closed.get?_some_eq_some.mp stands
    exact ⟨member, sameId, isGreatest⟩
  · rintro ⟨member, sameId, isGreatest⟩
    rw [closed.get?_of_isGreatest isGreatest]
    exact closed.get?_some_eq_some.mpr ⟨member, sameId, rfl⟩

/-- Where another version is there, the latest record has a version that is not empty. -/
theorem Closed.exists_version_of_latest
    (closed : catalog.Closed)
    (found : catalog.get? id none = some record)
    (hasVersion : catalog.HasVersion id version)
    (notEmpty : version ≠ "") :
    ∃ latest, record.version = some latest ∧ latest ≠ "" := by
  obtain ⟨isGreatest, -⟩ := closed.isGreatest_of_get?_none found
  have versionKept : record.versionText ≠ "" := by
    intro isEmpty
    rw [isEmpty] at isGreatest
    have isLower := isGreatest.2 version hasVersion notEmpty
    exact Std.OrientedCmp.not_lt_of_lt isLower (Version.order_empty_lt notEmpty)
  cases isVersion : record.version with
  | none =>
      simp [Activity.versionText, isVersion] at versionKept
  | some latest =>
      rw [Activity.versionText, isVersion] at versionKept
      exact ⟨latest, rfl, versionKept⟩

/-- Which version is the greatest is said of the versions that are there. -/
theorem isGreatest_congr
    {other : Catalog}
    (sameVersions : ∀ version, other.HasVersion id version ↔ catalog.HasVersion id version) :
    other.IsGreatest id version ↔ catalog.IsGreatest id version := by
  unfold IsGreatest
  simp only [sameVersions]

/-- Catalogs with the same versions of an id find one version for it. -/
theorem Closed.latestVersion_congr
    {other : Catalog}
    (closed : catalog.Closed)
    (otherClosed : other.Closed)
    (sameVersions : ∀ version, other.HasVersion id version ↔ catalog.HasVersion id version) :
    (other.get? id none).map Activity.versionText =
      (catalog.get? id none).map Activity.versionText := by
  cases found : catalog.get? id none with
  | none =>
      have noVersion := closed.get?_none_eq_none.mp found
      have noOther : other.get? id none = none :=
        otherClosed.get?_none_eq_none.mpr fun version =>
          not_not.mp (mt (sameVersions version).mp (not_not.mpr (noVersion version)))
      rw [noOther]
  | some record =>
      obtain ⟨isGreatest, -⟩ := closed.isGreatest_of_get?_none found
      have alsoGreatest := (isGreatest_congr sameVersions).mpr isGreatest
      obtain ⟨held, heldFound⟩ := exists_get?_none alsoGreatest.1
      obtain ⟨heldGreatest, -⟩ := otherClosed.isGreatest_of_get?_none heldFound
      rw [heldFound, Option.map_some, Option.map_some, heldGreatest.unique alsoGreatest]

end Versions

/--
A built catalog finds no record for an id exactly if it has none of any version.  Otherwise the
id has one version that comes after all others there are, and the record found is that of this
version; it has a version that is not empty if any record of the id does.  If the records at the
top of the listing are put in another order, the version found stays the same.
-/
theorem get?_greatest
    {listing : Listing}
    {catalog : Catalog}
    (built : build listing = .ok catalog)
    (id : String) :
    (catalog.get? id none = none ↔ ∀ version, catalog.get? id (some version) = none) ∧
      (catalog.get? id none ≠ none → ∃! version, catalog.IsGreatest id version) ∧
      (∀ version, catalog.IsGreatest id version →
        catalog.get? id none = catalog.get? id (some version)) ∧
      (∀ record version,
        catalog.get? id none = some record →
          catalog.HasVersion id version →
            version ≠ "" → ∃ latest, record.version = some latest ∧ latest ≠ "") ∧
      ∀ other : Listing,
        other.activities.Perm listing.activities →
          ∃ otherCatalog,
            build other = .ok otherCatalog ∧
              (otherCatalog.get? id none).map Activity.versionText =
                (catalog.get? id none).map Activity.versionText := by
  have closed := closed_of_build built
  refine ⟨closed.get?_none_eq_none, ?_, fun _ => closed.get?_of_isGreatest,
    fun _ _ => closed.exists_version_of_latest, ?_⟩
  · intro isFound
    obtain ⟨record, found⟩ := Option.ne_none_iff_exists'.mp isFound
    obtain ⟨isGreatest, -⟩ := closed.isGreatest_of_get?_none found
    exact ⟨record.versionText, isGreatest, fun _ => isGreatest.unique⟩
  · intro other permuted
    have accepted := exists_build_iff.mp ⟨catalog, built⟩
    obtain ⟨otherCatalog, otherBuilt⟩ := exists_build_iff.mpr (accepted.of_perm permuted.symm)
    refine ⟨otherCatalog, otherBuilt, ?_⟩
    apply closed.latestVersion_congr (closed_of_build otherBuilt)
    intro version
    rw [hasVersion_iff, hasVersion_iff]
    exact keys_of_perm permuted otherBuilt built ⟨id, version⟩

/-- A course in its ninth edition, which announces the tenth. -/
def ninthCourse : Activity :=
  (Activity.stub "course" "9").withSub (.stub "course" "10")

/-- A course without an edition. -/
def plainCourse : Activity :=
  { Activity.blank with id := some "course" }

/-- The listing of the course with an edition and without one. -/
def courseListing : Listing :=
  ⟨none, [ninthCourse, plainCourse]⟩

/-- What the catalog of the course holds. -/
def courseEntries : List Entry :=
  [ ⟨⟨"course", "9"⟩, ninthCourse, true⟩, ⟨⟨"course", ""⟩, plainCourse, true⟩,
    ⟨⟨"course", "10"⟩, .stub "course" "10", false⟩ ]

/-- The catalog of the course. -/
def courseCatalog : Catalog :=
  let found : Catalog := ⟨courseEntries, 3, none, []⟩
  { found with issues := found.findIssues }

theorem build_courseListing : build courseListing = .ok courseCatalog :=
  build_eq_ok.mpr
    ⟨⟨courseEntries.take 2, 2, none, []⟩, ⟨courseEntries, 3, none, []⟩, rfl, rfl, rfl⟩

/-- The tenth edition comes after the ninth and after the course without one, in either order. -/
theorem get?_greatest_course :
    build courseListing = .ok courseCatalog ∧
      courseCatalog.HasVersion "course" "" ∧
      courseCatalog.IsGreatest "course" "10" ∧
      courseCatalog.get? "course" none = some (.stub "course" "10") ∧
      ∃ otherCatalog,
        build ⟨none, [plainCourse, ninthCourse]⟩ = .ok otherCatalog ∧
          (otherCatalog.get? "course" none).map Activity.versionText = some "10" := by
  have found : courseCatalog.get? "course" none = some (.stub "course" "10") := rfl
  obtain ⟨-, hasGreatest, isLatest, -, inAnyOrder⟩ := get?_greatest build_courseListing "course"
  obtain ⟨version, isGreatest, -⟩ := hasGreatest (by rw [found]; exact Option.some_ne_none _)
  have stands := (isLatest version isGreatest).symm.trans found
  obtain ⟨-, -, rfl⟩ := (closed_of_build build_courseListing).get?_some_eq_some.mp stands
  obtain ⟨otherCatalog, otherBuilt, sameVersion⟩ :=
    inAnyOrder ⟨none, [plainCourse, ninthCourse]⟩ (List.Perm.swap _ _ _)
  rw [found] at sameVersion
  exact ⟨build_courseListing, Option.some_ne_none _, isGreatest, found, otherCatalog, otherBuilt,
    sameVersion⟩

end ActivityCatalog.Catalog
