import ActivityCatalog.Proofs.Archive.Calls

namespace ActivityCatalog.Archive

/-!
# Listings stored again, and in another order

Records can be stored if they have keys and those of one key are equal, among them the ones that
an archive already holds.  This says nothing of their order, and once a record is stored, no
equal one changes anything.

So a listing that was stored can be stored again, without any effect.  Of two listings that
designate no main activity either one may come first: both are stored or else one is refused,
and up to their order the same rows are left, though of equal records the one that came first.
-/

section Holds

variable
  {archive : Archive}
  {records activities others : List Activity}
  {activity : Activity}

/-- A record that equals a stored one changes nothing. -/
theorem Holds.insert_of_same
    (holds : archive.Holds records)
    {stored : Activity}
    (isStored : stored ∈ records)
    (isSame : stored.same activity = true) :
    ∃ key, archive.insert activity = .ok (archive, key) := by
  obtain ⟨row, isRow, rowRead, rowKey⟩ := holds.exists_row isStored
  obtain ⟨text, isText, textRead⟩ := readRow_eq_ok.mp rowRead
  have keyed : activity.key? = some row.key :=
    (Activity.key?_eq_of_same isSame).symm.trans rowKey
  have hasText : (archive.row? row.key).map Row.payload = some (.text text) := by
    rw [row?_of_mem holds.different isRow, Option.map_some, isText]
  exact ⟨row.key, (insert_of_text keyed hasText textRead).trans (if_pos isSame)⟩

/-- A record can be stored if it equals the stored ones of its key. -/
theorem Holds.exists_insert
    (holds : archive.Holds records)
    {key : Key}
    (keyed : activity.key? = some key)
    (agrees : ∀ stored ∈ records, stored.key? = activity.key? → stored.same activity = true) :
    ∃ after, archive.insert activity = .ok after := by
  cases looked : archive.row? key with
  | none =>
      exact ⟨_, insert_of_row?_none keyed looked⟩
  | some row =>
      obtain ⟨isRow, isKey⟩ := row?_eq_some looked
      obtain ⟨stored, isStored, -, rowKey⟩ := holds.exists_record isRow
      have isSame := agrees stored isStored (by rw [rowKey, isKey, keyed])
      obtain ⟨_, unchanged⟩ := holds.insert_of_same isStored isSame
      exact ⟨_, unchanged⟩

/-- Records that all equal stored ones change nothing. -/
theorem Holds.insertAll_of_same
    (holds : archive.Holds records)
    (present : ∀ activity ∈ activities, ∃ stored ∈ records, stored.same activity = true) :
    activities.foldlM (fun held activity => (held.insert activity).map Prod.fst) archive =
      .ok archive := by
  induction activities with
  | nil =>
      rfl
  | cons activity rest inductionHypothesis =>
      obtain ⟨⟨stored, isStored, isSame⟩, restPresent⟩ := List.forall_mem_cons.mp present
      obtain ⟨key, unchanged⟩ := holds.insert_of_same isStored isSame
      rw [List.foldlM_cons]
      exact bind_eq_ok.mpr
        ⟨archive, map_eq_ok.mpr ⟨_, unchanged, rfl⟩, inductionHypothesis restPresent⟩

/-- Records can be stored if they have keys and, with those that are held, agree on each key. -/
theorem Holds.exists_insertAll_iff
    (holds : archive.Holds records)
    (storable : ∀ activity ∈ activities, activity.Storable) :
    (∃ after,
        activities.foldlM (fun held activity => (held.insert activity).map Prod.fst) archive =
          .ok after) ↔
      (∀ activity ∈ activities, ∃ key, activity.key? = some key) ∧
        Activity.KeysAgree (records ++ activities) := by
  constructor
  · rintro ⟨after, inserted⟩
    obtain ⟨all, joined, afterHolds, -⟩ := holds.insertAll storable inserted
    refine ⟨?_, (Activity.keysAgree_of_nodup afterHolds.nodup_keys).of_same joined.exists_same⟩
    intro activity isGiven
    obtain ⟨stored, isStored, isSame⟩ :=
      joined.exists_same activity (List.mem_append_right _ isGiven)
    obtain ⟨row, -, -, rowKey⟩ := afterHolds.exists_row isStored
    exact ⟨row.key, (Activity.key?_eq_of_same isSame).symm.trans rowKey⟩
  · rintro ⟨keyed, agree⟩
    -- By induction from the end: what is stored of the earlier records is joined from them.
    induction activities using List.reverseRecOn with
    | nil =>
        exact ⟨archive, rfl⟩
    | append_singleton earlier activity inductionHypothesis =>
        obtain ⟨earlierStorable, -⟩ := List.forall_mem_append.mp storable
        obtain ⟨earlierKeyed, lastKeyed⟩ := List.forall_mem_append.mp keyed
        obtain ⟨key, isKey⟩ := lastKeyed activity (List.mem_singleton_self activity)
        rw [← List.append_assoc, Activity.keysAgree_concat] at agree
        obtain ⟨earlierAgree, lastAgrees⟩ := agree
        obtain ⟨state, inserted⟩ := inductionHypothesis earlierStorable earlierKeyed earlierAgree
        obtain ⟨all, joined, stateHolds, -⟩ := holds.insertAll earlierStorable inserted
        obtain ⟨after, stored⟩ := stateHolds.exists_insert isKey
          fun other isOther => lastAgrees other (joined.subset isOther)
        rw [foldlM_concat_of_ok inserted]
        exact ⟨after.1, map_eq_ok.mpr ⟨after, stored, rfl⟩⟩

theorem setRoot?_of_setRoot?
    {root : Option String}
    {designated : Archive}
    (designates : archive.setRoot? root = .ok designated) :
    designated.setRoot? root = .ok designated := by
  cases root with
  | none =>
      rfl
  | some id =>
      exact (setRoot_of_setRoot designates id).trans designates

/-- A listing that was stored is stored again without any effect. -/
theorem Holds.importListing_again
    (holds : archive.Holds records)
    {listing : Listing}
    {after : Archive}
    {count : Nat}
    (storable : ∀ activity ∈ listing.activities, activity.Storable)
    (imported : archive.importListing listing = .ok (after, count)) :
    after.importListing listing = .ok (after, count) := by
  obtain ⟨all, joined, afterHolds, -⟩ := holds.importListing storable imported
  obtain ⟨stored, -, designates, isCount⟩ := importListing_eq_ok.mp imported
  have unchanged := afterHolds.insertAll_of_same fun activity isListed =>
    joined.exists_same activity (List.mem_append_right _ isListed)
  exact importListing_eq_ok.mpr ⟨after, unchanged, setRoot?_of_setRoot? designates, isCount⟩

/-- Records can be stored in one order if and only if they can be stored in another. -/
theorem Holds.exists_insertAll_iff_of_perm
    (holds : archive.Holds records)
    (storable : ∀ activity ∈ activities, activity.Storable)
    (permuted : activities.Perm others) :
    (∃ after,
        activities.foldlM (fun held activity => (held.insert activity).map Prod.fst) archive =
          .ok after) ↔
      ∃ after,
        others.foldlM (fun held activity => (held.insert activity).map Prod.fst) archive =
          .ok after := by
  have othersStorable : ∀ activity ∈ others, activity.Storable :=
    fun activity isOther => storable activity (permuted.mem_iff.mpr isOther)
  have sameGiven := permuted.append_left records
  rw [holds.exists_insertAll_iff storable, holds.exists_insertAll_iff othersStorable]
  simp only [permuted.mem_iff]
  apply and_congr_right
  intro _
  exact ⟨fun agree => agree.of_subset sameGiven.symm.subset,
    fun agree => agree.of_subset sameGiven.subset⟩

end Holds

/-- Two archives have rows for the same keys, with equal records, and the same main activity. -/
structure StoreAlike (left right : Archive) : Prop where
  sameKeys : (left.rows.map Row.key).Perm (right.rows.map Row.key)
  sameRecords : ∀ row ∈ left.rows, ∀ other ∈ right.rows, row.key = other.key →
    ∃ stored present, readRow row = .ok stored ∧ readRow other = .ok present ∧
      stored.same present = true
  sameRoot : left.root? = right.root?

section Permuted

variable
  {archive left right : Archive}
  {records activities others : List Activity}

/-- In whichever order records are stored, the archives that are left store alike. -/
theorem Holds.storeAlike_of_perm
    (holds : archive.Holds records)
    (storable : ∀ activity ∈ activities, activity.Storable)
    (permuted : activities.Perm others)
    (stored :
      activities.foldlM (fun held activity => (held.insert activity).map Prod.fst) archive =
        .ok left)
    (othersStored :
      others.foldlM (fun held activity => (held.insert activity).map Prod.fst) archive =
        .ok right) :
    StoreAlike left right := by
  have othersStorable : ∀ activity ∈ others, activity.Storable :=
    fun activity isOther => storable activity (permuted.mem_iff.mpr isOther)
  have sameGiven := permuted.append_left records
  obtain ⟨all, joined, leftHolds, -, leftRoot⟩ := holds.insertAll storable stored
  obtain ⟨present, otherJoined, rightHolds, -, rightRoot⟩ :=
    holds.insertAll othersStorable othersStored
  refine ⟨?_, ?_, leftRoot.trans rightRoot.symm⟩
  · refine (List.perm_ext_iff_of_nodup leftHolds.different rightHolds.different).mpr ?_
    intro key
    rw [leftHolds.mem_keys, rightHolds.mem_keys, joined.mem_keys, otherJoined.mem_keys]
    exact (sameGiven.map Activity.key?).mem_iff
  · intro row isRow other isOther sameKey
    obtain ⟨activity, isThere, rowRead, rowKey⟩ := leftHolds.exists_record isRow
    obtain ⟨second, isPresent, otherRead, otherKey⟩ := rightHolds.exists_record isOther
    have agree := ((holds.exists_insertAll_iff storable).mp ⟨left, stored⟩).2
    have isSame := agree activity (joined.subset isThere) second
      (sameGiven.mem_iff.mpr (otherJoined.subset isPresent)) (by rw [rowKey, sameKey, otherKey])
    exact ⟨activity, second, rowRead, otherRead, isSame⟩

end Permuted

/-- Store a listing and then another. -/
def importBoth (archive : Archive) (first second : Listing) : Except ArchiveFault Archive := do
  let (between, _) ← archive.importListing first
  let (after, _) ← between.importListing second
  pure after

/-- To store listings without main activities is to store the records of all. -/
theorem importBoth_eq_ok
    {archive after : Archive}
    {first second : Listing}
    (firstRootless : first.root = none)
    (secondRootless : second.root = none) :
    archive.importBoth first second = .ok after ↔
      (first.activities ++ second.activities).foldlM
        (fun held activity => (held.insert activity).map Prod.fst) archive = .ok after := by
  rw [List.foldlM_append, importBoth]
  simp only [bind_eq_ok, Prod.exists, importListing_eq_ok, firstRootless, secondRootless,
    setRoot?, pure, Except.pure, Except.ok.injEq]
  constructor
  · rintro ⟨between, _, ⟨_, firstStored, rfl, -⟩, _, _, ⟨_, secondStored, rfl, -⟩, rfl⟩
    exact ⟨_, firstStored, secondStored⟩
  · rintro ⟨between, firstStored, secondStored⟩
    exact ⟨between, _, ⟨between, firstStored, rfl, rfl⟩, after, _,
      ⟨after, secondStored, rfl, rfl⟩, rfl⟩

/--
Whatever calls were made of an archive without rows, a listing that can be stored then is stored
again without any effect and with the same count.  Two listings that designate no main activity
can be stored in one order if and only if they can be stored in the other, and the archives that
are left store alike.
-/
theorem imports_merge
    {start : Archive}
    (noRows : start.rows = [])
    {calls : List Call}
    (storable : ∀ call ∈ calls, ∀ activity ∈ call.activities, activity.Storable) :
    (∀ listing after count, (∀ activity ∈ listing.activities, activity.Storable) →
        (start.performAll calls).importListing listing = .ok (after, count) →
          after.importListing listing = .ok (after, count)) ∧
      ∀ first second : Listing, first.root = none → second.root = none →
        (∀ activity ∈ first.activities ++ second.activities, activity.Storable) →
          ((∃ after, (start.performAll calls).importBoth first second = .ok after) ↔
              ∃ after, (start.performAll calls).importBoth second first = .ok after) ∧
            ∀ left right, (start.performAll calls).importBoth first second = .ok left →
              (start.performAll calls).importBoth second first = .ok right →
                StoreAlike left right := by
  obtain ⟨records, holds, -⟩ := (holds_nil noRows).performAll storable
  refine ⟨fun listing after count => holds.importListing_again, ?_⟩
  intro first second firstRootless secondRootless bothStorable
  have permuted : (first.activities ++ second.activities).Perm
      (second.activities ++ first.activities) :=
    List.perm_append_comm
  simp only [importBoth_eq_ok firstRootless secondRootless,
    importBoth_eq_ok secondRootless firstRootless]
  refine ⟨?_, fun left right => ?_⟩
  · exact holds.exists_insertAll_iff_of_perm bothStorable permuted
  · exact holds.storeAlike_of_perm bothStorable permuted

/-- A listing of a new day and of the hotel that is stored. -/
def dayListing (root : Option String) : Listing :=
  ⟨root, [Catalog.day, Catalog.hotel]⟩

/-- A listing of the hotel's next version and of the same day. -/
def nextHotelListing : Listing :=
  ⟨none, [Activity.stub "hotel" "2", Catalog.day]⟩

/-- An archive of records, with the flag on the row of one of them. -/
def storing (root : String) (activities : List Activity) : Archive :=
  let row (activity : Activity) : Row :=
    ⟨⟨activity.idText, activity.versionText⟩, .text activity.text,
      activity.idText == root && activity.versionText == "1"⟩
  ⟨activities.map row, [.integer 1]⟩

theorem storable_dayListing (root : Option String) :
    ∀ activity ∈ (dayListing root).activities ++ nextHotelListing.activities,
      activity.Storable := by
  have hotel : Catalog.hotel.Storable :=
    Activity.storable_of_reader_written rfl (by decide) rfl
  have day : Catalog.day.Storable :=
    Activity.storable_of_reader_written rfl (by decide) rfl
  have nextHotel : (Activity.stub "hotel" "2").Storable :=
    Activity.storable_of_reader_written rfl (by decide) rfl
  simp [dayListing, nextHotelListing, hotel, day, nextHotel]

theorem importListing_dayListing :
    (fresh.performAll tripCalls).importListing (dayListing (some "trip")) =
      .ok (storing "trip" [Catalog.hotel, Catalog.trip, Catalog.day], 2) := by
  decide +kernel

/-- The next version of the hotel comes behind the day or before it. -/
theorem importBoth_dayListing :
    (fresh.performAll tripCalls).importBoth (dayListing none) nextHotelListing =
        .ok (storing "hotel" [Catalog.hotel, Catalog.trip, Catalog.day, .stub "hotel" "2"]) ∧
      (fresh.performAll tripCalls).importBoth nextHotelListing (dayListing none) =
        .ok (storing "hotel" [Catalog.hotel, Catalog.trip, .stub "hotel" "2", Catalog.day]) := by
  constructor <;> decide +kernel

/-- The day and the hotels can be stored again, and the day before the next hotel or after it. -/
theorem imports_merge_trip :
    (storing "trip" [Catalog.hotel, Catalog.trip, Catalog.day]).importListing
          (dayListing (some "trip")) =
        .ok (storing "trip" [Catalog.hotel, Catalog.trip, Catalog.day], 2) ∧
      (∃ after, (fresh.performAll tripCalls).importBoth nextHotelListing (dayListing none) =
        .ok after) ∧
      StoreAlike (storing "hotel" [Catalog.hotel, Catalog.trip, Catalog.day, .stub "hotel" "2"])
        (storing "hotel" [Catalog.hotel, Catalog.trip, .stub "hotel" "2", Catalog.day]) := by
  obtain ⟨callsStorable, -⟩ := List.forall_mem_append.mp storable_tripCalls
  obtain ⟨again, merged⟩ := imports_merge (rfl : fresh.rows = []) callsStorable
  obtain ⟨inBothOrders, alike⟩ :=
    merged (dayListing none) nextHotelListing rfl rfl (storable_dayListing none)
  obtain ⟨dayStorable, -⟩ := List.forall_mem_append.mp (storable_dayListing (some "trip"))
  refine ⟨again _ _ _ dayStorable importListing_dayListing, inBothOrders.mp ?_, ?_⟩
  · exact ⟨_, importBoth_dayListing.1⟩
  · exact alike _ _ importBoth_dayListing.1 importBoth_dayListing.2

end ActivityCatalog.Archive
