import ActivityCatalog.Proofs.Catalog.Building
import ActivityCatalog.Proofs.Catalog.Issues

namespace ActivityCatalog

/-!
# Catalogs built of the records of a catalog

The records of a built catalog are valid, in normal form and under different keys, and what they
embed was embedded in the listing already.  So they make a catalog in any order, and as all that
they link to is among them, that catalog has no other records: it answers as the first one does.
-/

namespace Catalog

theorem Closed.normalForm_eq
    {catalog : Catalog}
    (closed : catalog.Closed)
    {record : Activity}
    (member : record ∈ catalog.records) :
    record.normalForm = record := by
  obtain ⟨entry, entryMember, rfl⟩ := List.mem_map.mp member
  obtain ⟨warnings, -, same⟩ := map_eq_ok.mp (closed.clean entry entryMember)
  exact congrArg Prod.fst same

section Holds

variable
  {catalog : Catalog}
  {tops : List Activity}

/-- The records of a catalog embed only what was embedded in those that it was given. -/
theorem Holds.isEmbedded_of_records
    (holds : catalog.Holds tops (Activity.embedded tops))
    {node : Activity}
    (isEmbedded : Activity.IsEmbedded catalog.records node) :
    Activity.IsEmbedded tops node := by
  induction isEmbedded with
  | linked isRecord isLink hasKey =>
      obtain ⟨entry, entryMember, rfl⟩ := List.mem_map.mp isRecord
      obtain ⟨activity, isGiven, -, same⟩ := holds.exists_given entryMember
      rw [same] at isLink
      -- The normal form of a record has the links of the record.
      have linked : _ ∈ activity.links := isLink
      rcases List.mem_append.mp isGiven with isTop | below
      · exact .linked isTop linked hasKey
      · exact .deeper (Activity.mem_embedded.mp below) linked hasKey
  | deeper _ isLink hasKey inductionHypothesis =>
      exact .deeper inductionHypothesis isLink hasKey

/-- The records of a catalog are valid with all that they embed. -/
theorem Holds.allValid_records (holds : catalog.Holds tops (Activity.embedded tops)) :
    AllValid catalog.records := by
  intro activity member
  rcases List.mem_append.mp member with isRecord | embedded
  · obtain ⟨entry, entryMember, rfl⟩ := List.mem_map.mp isRecord
    obtain ⟨given, isGiven, -, same⟩ := holds.exists_given entryMember
    obtain ⟨warnings, valid⟩ := holds.valid given isGiven
    rw [same]
    exact ⟨[], Activity.validate_normalForm valid⟩
  · have isEmbedded := holds.isEmbedded_of_records (Activity.mem_embedded.mp embedded)
    exact holds.valid activity (List.mem_append_right _ (Activity.mem_embedded.mpr isEmbedded))

end Holds

section Rebuilt

variable
  {listing : Listing}
  {catalog again : Catalog}
  {records : List Activity}
  {root : Option String}

/-- A catalog that is built of the records of a catalog has these records and no others. -/
theorem mem_records_of_rebuilt
    (built : build listing = .ok catalog)
    (permuted : records.Perm catalog.records)
    (rebuilt : build ⟨root, records⟩ = .ok again)
    (record : Activity) :
    record ∈ again.records ↔ record ∈ catalog.records := by
  have closed := closed_of_build built
  have againClosed := closed_of_build rebuilt
  have holds := holds_of_build built
  have againHolds := holds_of_build rebuilt
  have isThere : ∀ {activity}, activity ∈ catalog.records → activity ∈ again.records := by
    intro activity member
    obtain ⟨entry, -, -, keyed⟩ := closed.exists_entry member
    have found := againHolds.entry entry.key
    cases isFirst : Activity.firstWith? entry.key records with
    | none =>
        exact absurd keyed
          (Activity.firstWith?_eq_none.mp isFirst activity (permuted.mem_iff.mpr member))
    | some first =>
        obtain ⟨isListed, firstKeyed⟩ := Activity.firstWith?_some isFirst
        have isRecord := permuted.mem_iff.mp isListed
        obtain rfl := closed.eq_of_key?_eq isRecord member (firstKeyed.trans keyed.symm)
        rw [entryFor?_of_top isFirst, closed.normalForm_eq member] at found
        exact List.mem_map.mpr ⟨_, entry?_mem found, rfl⟩
  refine ⟨?_, isThere⟩
  intro member
  obtain ⟨entry, entryMember, rfl, keyed⟩ := againClosed.exists_entry member
  -- The key is one of the catalog, whose record of the key is here as well.
  have isKey : entry.key ∈ catalog.entries.map Entry.key := by
    obtain ⟨activity, isGiven, activityKeyed, -⟩ := againHolds.exists_given entryMember
    rcases List.mem_append.mp isGiven with isListed | embedded
    · exact closed.mem_keys.mpr ⟨activity, permuted.mem_iff.mp isListed, activityKeyed⟩
    · have isEmbedded := (Activity.mem_embedded.mp embedded).of_subset permuted.subset
      have wasEmbedded := Activity.mem_embedded.mpr (holds.isEmbedded_of_records isEmbedded)
      exact holds.mem_keys.mpr ⟨activity, List.mem_append_right _ wasEmbedded, activityKeyed⟩
  obtain ⟨held, isHeld, heldKeyed⟩ := closed.mem_keys.mp isKey
  rw [againClosed.eq_of_key?_eq member (isThere isHeld) (keyed.trans heldKeyed.symm)]
  exact isHeld

end Rebuilt

/--
The records of a built catalog, listed in any order with the same main activity, make a catalog
again, and it has the same main activity, as many records, the same record under every id and
version or without a version, if there is one, and the same issues.
-/
theorem build_of_records
    {listing : Listing}
    {catalog : Catalog}
    (built : build listing = .ok catalog)
    {records : List Activity}
    (permuted : records.Perm catalog.records) :
    ∃ again, build ⟨listing.root, records⟩ = .ok again ∧
      again.root = catalog.root ∧ again.size = catalog.size ∧
        (∀ id version, again.get? id version = catalog.get? id version) ∧
          again.issues = catalog.issues := by
  have closed := closed_of_build built
  have valid : AllValid records :=
    ((holds_of_build built).allValid_records).of_subset_append allValid_nil
      (List.subset_append_of_subset_left _ permuted.subset)
  have different : (records.map Activity.key?).Nodup :=
    (permuted.map Activity.key?).nodup_iff.mpr closed.nodup_recordKeys
  obtain ⟨again, rebuilt⟩ := exists_build valid different listing.root
  have againClosed := closed_of_build rebuilt
  have sameRecords := mem_records_of_rebuilt built permuted rebuilt
  refine ⟨again, rebuilt, ?_, ?_, ?_, ?_⟩
  · rw [root_of_build rebuilt, root_of_build built]
  · exact closed.size_of_records againClosed sameRecords
  · exact closed.get?_of_records againClosed sameRecords
  · rw [issues_of_build rebuilt, issues_of_build built]
    exact closed.findIssues_of_records againClosed sameRecords

/-- The records of the trip, the last one first, make a catalog of the same four records. -/
theorem build_of_records_trip :
    build tripListing = .ok tripCatalog ∧
      ∃ again,
        build ⟨some "trip", [{ Activity.blank with id := some "trip" }, day, hotel, trip]⟩ =
            .ok again ∧
          again.root = some "trip" ∧ again.size = 4 ∧
            (∀ id version, again.get? id version = tripCatalog.get? id version) ∧
              again.issues = tripCatalog.issues :=
  ⟨build_tripListing,
    build_of_records build_tripListing (List.reverse_perm tripCatalog.records)⟩

end Catalog

end ActivityCatalog
