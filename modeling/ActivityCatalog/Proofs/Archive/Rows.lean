import ActivityCatalog.Archive
import ActivityCatalog.Proofs.Activity.Joined
import ActivityCatalog.Proofs.Activity.Texts

namespace ActivityCatalog.Archive

/-!
# What the rows of an archive hold

An archive holds records if these are, in order, what its rows are read as, each under its own
key, with different keys and flags on the rows of one id only.  Storing a record that is read
back from its text keeps this, be it added behind the others or be it there already, and so
does designating a main activity.
-/

/-- The keys and the payloads of the rows, in the order in which they were stored. -/
def contents (archive : Archive) : List (Key × Cell) :=
  archive.rows.map fun row => (row.key, row.payload)

/-- A row is read as a record that has the key of the row. -/
def RowHolds (row : Row) (activity : Activity) : Prop :=
  readRow row = .ok activity ∧ activity.key? = some row.key

/-- The rows are read as records under their own keys, all different, with one main activity. -/
structure Holds (archive : Archive) (records : List Activity) : Prop where
  each : List.Forall₂ RowHolds archive.rows records
  different : (archive.rows.map Row.key).Nodup
  oneRoot : ∀ row ∈ archive.rows, ∀ other ∈ archive.rows,
    row.isRoot = true → other.isRoot = true → row.key.id = other.key.id

theorem holds_nil
    {archive : Archive}
    (noRows : archive.rows = []) :
    archive.Holds [] := by
  refine ⟨?_, ?_, ?_⟩ <;> simp [noRows]

section Holds

variable
  {archive : Archive}
  {records : List Activity}

/-- What an archive holds is said of its rows alone. -/
theorem Holds.of_rows
    (holds : archive.Holds records)
    {other : Archive}
    (sameRows : other.rows = archive.rows) :
    other.Holds records := by
  refine ⟨?_, ?_, ?_⟩ <;> rw [sameRows]
  · exact holds.each
  · exact holds.different
  · exact holds.oneRoot

theorem root?_of_rows
    {other : Archive}
    (sameRows : other.rows = archive.rows) :
    other.root? = archive.root? := by
  rw [root?, root?, sameRows]

/-- The records that an archive holds have the keys of its rows. -/
theorem Holds.keys_eq (holds : archive.Holds records) :
    records.map Activity.key? = archive.rows.map fun row => some row.key := by
  have sameKeys : List.Forall₂ (fun key other => key = other) (records.map Activity.key?)
      (archive.rows.map fun row => some row.key) :=
    List.forall₂_map_left_iff.mpr (List.forall₂_map_right_iff.mpr
      (holds.each.flip.imp fun _ _ rowHolds => rowHolds.2))
  rwa [List.forall₂_eq_eq_eq] at sameKeys

/-- The keys of the rows are those of the records that an archive holds. -/
theorem Holds.mem_keys
    (holds : archive.Holds records)
    {key : Key} :
    key ∈ archive.rows.map Row.key ↔ some key ∈ records.map Activity.key? := by
  simp only [holds.keys_eq, List.mem_map, Option.some.injEq]

/-- No two records that an archive holds have the same key. -/
theorem Holds.nodup_keys (holds : archive.Holds records) :
    (records.map Activity.key?).Nodup := by
  rw [holds.keys_eq, ← Function.comp_def, ← List.map_map]
  exact holds.different.map fun _ _ sameKey => Option.some.inj sameKey

/-- The records that an archive holds are listed. -/
theorem Holds.list_eq (holds : archive.Holds records) : archive.list = .ok records :=
  mapM_eq_ok.mpr (holds.each.imp fun _ _ rowHolds => rowHolds.1)

/-- The listing of an archive has the records that it holds. -/
theorem Holds.listing_eq (holds : archive.Holds records) :
    archive.listing = .ok ⟨archive.root?, records⟩ :=
  bind_eq_ok.mpr ⟨records, holds.list_eq, rfl⟩

theorem Holds.exists_row
    (holds : archive.Holds records)
    {activity : Activity}
    (isRecord : activity ∈ records) :
    ∃ row ∈ archive.rows, RowHolds row activity :=
  exists_of_mem_right holds.each isRecord

theorem Holds.exists_record
    (holds : archive.Holds records)
    {row : Row}
    (isRow : row ∈ archive.rows) :
    ∃ activity ∈ records, RowHolds row activity :=
  exists_of_mem_right holds.each.flip isRow

/-- The main activity is the id of every row that is flagged, if there is one. -/
theorem Holds.root?_eq_some
    (holds : archive.Holds records)
    {id : String} :
    archive.root? = some id ↔ ∃ row ∈ archive.rows, row.isRoot = true ∧ row.key.id = id := by
  unfold root?
  constructor
  · intro isRoot
    obtain ⟨row, found, isId⟩ := Option.map_eq_some_iff.mp isRoot
    exact ⟨row, List.mem_of_find?_eq_some found, List.find?_some found, isId⟩
  · rintro ⟨row, isRow, isFlagged, rfl⟩
    cases found : archive.rows.find? Row.isRoot with
    | none =>
        exact absurd isFlagged (by simpa using List.find?_eq_none.mp found row isRow)
    | some other =>
        have sameId := holds.oneRoot other (List.mem_of_find?_eq_some found) row isRow
          (List.find?_some found) isFlagged
        exact congrArg some sameId

theorem row?_eq_none
    {key : Key}
    (absent : archive.row? key = none) :
    key ∉ archive.rows.map Row.key := by
  intro isKey
  obtain ⟨row, isRow, rfl⟩ := List.mem_map.mp isKey
  simpa using List.find?_eq_none.mp absent row isRow

theorem row?_eq_some
    {key : Key}
    {row : Row}
    (found : archive.row? key = some row) :
    row ∈ archive.rows ∧ row.key = key := by
  have sameKey : row.key = key := by
    simpa using List.find?_some found
  exact ⟨List.mem_of_find?_eq_some found, sameKey⟩

/-- A row is found under its key. -/
theorem row?_of_mem
    {row : Row}
    (different : (archive.rows.map Row.key).Nodup)
    (isRow : row ∈ archive.rows) :
    archive.row? row.key = some row := by
  cases looked : archive.row? row.key with
  | none =>
      exact absurd (List.mem_map_of_mem isRow) (row?_eq_none looked)
  | some other =>
      obtain ⟨isOther, sameKey⟩ := row?_eq_some looked
      rw [List.inj_on_of_nodup_map different isOther isRow sameKey]

theorem readRow_eq_ok
    {row : Row}
    {activity : Activity} :
    readRow row = .ok activity ↔
      ∃ text, row.payload = .text text ∧ readText text = .ok activity := by
  unfold readRow
  cases row.payload <;> simp

theorem insert_of_row?_none
    {activity : Activity}
    {key : Key}
    (keyed : activity.key? = some key)
    (absent : archive.row? key = none) :
    archive.insert activity =
      .ok ({ archive with rows := archive.rows ++ [⟨key, .text activity.text, false⟩] }, key) := by
  rw [insert, keyed]
  simp only [absent, Option.map_none]

/-- A record is compared with the one that is read from under its key. -/
theorem insert_of_text
    {activity stored : Activity}
    {key : Key}
    {text : String}
    (keyed : activity.key? = some key)
    (hasText : (archive.row? key).map Row.payload = some (.text text))
    (textRead : readText text = .ok stored) :
    archive.insert activity =
      if stored.same activity then .ok (archive, key) else .error (.conflict key) := by
  rw [insert, keyed]
  simp only [hasText, textRead]
  rfl

/-- A record that is stored is there already or is added as the last. -/
theorem insert_eq_ok
    {activity : Activity}
    {after : Archive}
    {key : Key}
    (inserted : archive.insert activity = .ok (after, key)) :
    activity.key? = some key ∧
      ((∃ row ∈ archive.rows, row.key = key ∧
          ∃ stored, readRow row = .ok stored ∧ stored.same activity = true ∧ after = archive) ∨
        archive.row? key = none ∧
          after =
            { archive with rows := archive.rows ++ [⟨key, .text activity.text, false⟩] }) := by
  unfold insert at inserted
  split at inserted
  · cases inserted
  · rename_i ownKey isKey
    cases looked : archive.row? ownKey with
    | none =>
        rw [looked] at inserted
        cases inserted
        exact ⟨isKey, Or.inr ⟨looked, rfl⟩⟩
    | some row =>
        rw [looked, Option.map_some] at inserted
        split at inserted
        · rename_i isNone
          cases isNone
        · rename_i text isText
          obtain ⟨stored, wasRead, compared⟩ := bind_eq_ok.mp inserted
          split at compared
          · rename_i isSame
            cases compared
            have rowRead : readRow row = .ok stored := by
              rw [readRow, Option.some.inj isText]
              exact wasRead
            obtain ⟨isRow, sameKey⟩ := row?_eq_some looked
            exact ⟨isKey, Or.inl ⟨row, isRow, sameKey, stored, rowRead, isSame, rfl⟩⟩
          · cases compared
        · cases inserted

/-- Storing a record that is read back keeps an archive that holds records. -/
theorem Holds.insert
    (holds : archive.Holds records)
    {activity : Activity}
    {after : Archive}
    {key : Key}
    (storable : activity.Storable)
    (inserted : archive.insert activity = .ok (after, key)) :
    (after = archive ∧ ∃ stored ∈ records, stored.same activity = true ∧
        stored.key? = activity.key?) ∨
      after.Holds (records ++ [activity]) ∧ (∀ stored ∈ records, stored.key? ≠ activity.key?) ∧
        after.contents = archive.contents ++ [(key, .text activity.text)] ∧
          after.root? = archive.root? := by
  obtain ⟨isKey, stored | added⟩ := insert_eq_ok inserted
  · obtain ⟨row, isRow, rfl, stored, rowRead, isSame, rfl⟩ := stored
    obtain ⟨record, isRecord, recordRead, recordKey⟩ := holds.exists_record isRow
    obtain rfl : record = stored := Except.ok.inj (recordRead.symm.trans rowRead)
    exact Or.inl ⟨rfl, record, isRecord, isSame, recordKey.trans isKey.symm⟩
  · obtain ⟨absent, rfl⟩ := added
    have fresh := row?_eq_none absent
    have added : RowHolds ⟨key, .text activity.text, false⟩ activity :=
      ⟨mapError_eq_ok.mpr storable.ofText_text, isKey⟩
    refine Or.inr ⟨⟨?_, ?_, ?_⟩, ?_, ?_, ?_⟩
    · exact List.rel_append holds.each (.cons added .nil)
    · rw [List.map_append]
      refine List.nodup_append.mpr ⟨holds.different, List.nodup_singleton key, ?_⟩
      rintro held isHeld _ isNew rfl
      have isKey : held = key := List.mem_singleton.mp isNew
      exact fresh (isKey ▸ isHeld)
    · intro row isRow other isOther rowFlagged otherFlagged
      have isOld : ∀ flagged ∈ archive.rows ++ [⟨key, .text activity.text, false⟩],
          flagged.isRoot = true → flagged ∈ archive.rows := by
        intro flagged isFlagged isRoot
        rcases List.mem_append.mp isFlagged with isHeld | isNew
        · exact isHeld
        · obtain rfl := List.mem_singleton.mp isNew
          cases isRoot
      exact holds.oneRoot row (isOld row isRow rowFlagged) other (isOld other isOther otherFlagged)
        rowFlagged otherFlagged
    · intro stored isStored sameKey
      obtain ⟨row, isRow, -, rowKey⟩ := holds.exists_row isStored
      have isKey : row.key = key :=
        Option.some.inj (rowKey.symm.trans (sameKey.trans isKey))
      exact fresh (isKey ▸ List.mem_map_of_mem isRow)
    · exact List.map_append
    · simp [root?, List.find?_append]

/-- Storing records joins them to those that an archive holds. -/
theorem Holds.insertAll
    (holds : archive.Holds records)
    {activities : List Activity}
    {after : Archive}
    (storable : ∀ activity ∈ activities, activity.Storable)
    (inserted :
      activities.foldlM (fun held activity => (held.insert activity).map Prod.fst) archive =
        .ok after) :
    ∃ all, Activity.Joined records activities all ∧ after.Holds all ∧
      archive.contents <+: after.contents ∧ after.root? = archive.root? := by
  refine foldlM_induction_append
    (motive := fun given state =>
      ∃ all, Activity.Joined records given all ∧ state.Holds all ∧
        archive.contents <+: state.contents ∧ state.root? = archive.root?)
    ⟨records, .start, holds, List.prefix_rfl, rfl⟩ ?_ inserted
  rintro done activity rest state next given ⟨all, joined, stateHolds, grown, sameRoot⟩ stepped
  obtain ⟨⟨_, key⟩, stored, rfl⟩ := map_eq_ok.mp stepped
  have isGiven : activity ∈ activities := by
    rw [given]
    exact List.mem_append_right _ List.mem_cons_self
  rcases stateHolds.insert (storable activity isGiven) stored with
    ⟨rfl, present, isPresent, isSame, -⟩ | ⟨nextHolds, -, sameContents, nextRoot⟩
  · exact ⟨all, joined.leftOut isPresent isSame, stateHolds, grown, sameRoot⟩
  · refine ⟨all ++ [activity], joined.added activity, nextHolds, ?_, nextRoot.trans sameRoot⟩
    rw [sameContents]
    exact grown.trans (List.prefix_append _ _)

/-- Designating the main activity flags the rows of an id that has some. -/
theorem setRoot_eq_ok
    {id : String}
    {after : Archive} :
    archive.setRoot id = .ok after ↔
      (∃ row ∈ archive.rows, row.key.id = id) ∧
        after = { archive with rows := archive.rows.map fun row =>
          { row with isRoot := row.key.id == id } } := by
  unfold Archive.setRoot
  split
  · rename_i someRow
    have isStored : ∃ row ∈ archive.rows, row.key.id = id := by
      simpa using someRow
    rw [Except.ok.injEq, and_iff_right isStored, eq_comm]
  · rename_i noRow
    have notStored : ¬∃ row ∈ archive.rows, row.key.id = id := by
      simpa using noRow
    simp [notStored]

/-- To designate a main activity and then another is to designate the other. -/
theorem setRoot_of_setRoot
    {other : String}
    {designated : Archive}
    (designates : archive.setRoot other = .ok designated)
    (id : String) :
    designated.setRoot id = archive.setRoot id := by
  obtain ⟨-, rfl⟩ := setRoot_eq_ok.mp designates
  unfold setRoot
  simp only [List.any_map, List.map_map]
  rfl

/-- Storing a listing is storing its records and then designating its main activity. -/
theorem importListing_eq_ok
    {listing : Listing}
    {after : Archive}
    {count : Nat} :
    archive.importListing listing = .ok (after, count) ↔
      ∃ stored,
        listing.activities.foldlM
            (fun held activity => (held.insert activity).map Prod.fst) archive = .ok stored ∧
          stored.setRoot? listing.root = .ok after ∧ listing.activities.length = count := by
  simp only [importListing, bind_eq_ok, pure, Except.pure, Except.ok.injEq, Prod.mk.injEq]
  constructor
  · rintro ⟨stored, inserted, designated, marked, rfl, rfl⟩
    exact ⟨stored, inserted, marked, rfl⟩
  · rintro ⟨stored, inserted, marked, rfl⟩
    exact ⟨stored, inserted, after, marked, rfl, rfl⟩

/-- Storing a listing changes rows alone. -/
theorem schemaVersions_of_importListing
    {listing : Listing}
    {after : Archive}
    {count : Nat}
    (imported : archive.importListing listing = .ok (after, count)) :
    after.schemaVersions = archive.schemaVersions := by
  obtain ⟨stored, inserted, marked, -⟩ := importListing_eq_ok.mp imported
  have storedVersions : stored.schemaVersions = archive.schemaVersions := by
    refine foldlM_induction
      (motive := fun _ state => state.schemaVersions = archive.schemaVersions) rfl ?_ inserted
    intro _ activity state next same stepped
    obtain ⟨⟨_, key⟩, added, rfl⟩ := map_eq_ok.mp stepped
    obtain ⟨-, ⟨_, _, _, _, _, _, rfl⟩ | ⟨-, rfl⟩⟩ := insert_eq_ok added
    · exact same
    · exact same
  cases isRoot : listing.root with
  | none =>
      rw [isRoot] at marked
      cases marked
      exact storedVersions
  | some id =>
      rw [isRoot] at marked
      obtain ⟨-, rfl⟩ := setRoot_eq_ok.mp marked
      exact storedVersions

/-- Designating the main activity keeps what an archive holds. -/
theorem Holds.setRoot
    (holds : archive.Holds records)
    {id : String}
    {after : Archive}
    (designated : archive.setRoot id = .ok after) :
    after.Holds records ∧ after.contents = archive.contents ∧ after.root? = some id := by
  obtain ⟨⟨row, isRow, isId⟩, rfl⟩ := setRoot_eq_ok.mp designated
  have afterHolds : Holds { archive with rows := archive.rows.map fun row =>
      { row with isRoot := row.key.id == id } } records := by
    refine ⟨?_, ?_, ?_⟩
    · exact List.forall₂_map_left_iff.mpr holds.each
    · rw [List.map_map]
      exact holds.different
    · intro flagged isFlagged other isOther flaggedIsRoot otherIsRoot
      obtain ⟨held, -, rfl⟩ := List.mem_map.mp isFlagged
      obtain ⟨otherHeld, -, rfl⟩ := List.mem_map.mp isOther
      exact (beq_iff_eq.mp flaggedIsRoot).trans (beq_iff_eq.mp otherIsRoot).symm
  refine ⟨afterHolds, ?_, ?_⟩
  · exact List.map_map
  · exact afterHolds.root?_eq_some.mpr
      ⟨_, List.mem_map_of_mem isRow, beq_iff_eq.mpr isId, isId⟩

/-- Storing a listing joins its records to those that an archive holds. -/
theorem Holds.importListing
    (holds : archive.Holds records)
    {listing : Listing}
    {after : Archive}
    {count : Nat}
    (storable : ∀ activity ∈ listing.activities, activity.Storable)
    (imported : archive.importListing listing = .ok (after, count)) :
    ∃ all, Activity.Joined records listing.activities all ∧ after.Holds all ∧
      archive.contents <+: after.contents ∧ after.root? = listing.root.or archive.root? := by
  obtain ⟨stored, inserted, marked, -⟩ := importListing_eq_ok.mp imported
  obtain ⟨all, joined, storedHolds, grown, sameRoot⟩ := holds.insertAll storable inserted
  unfold setRoot? at marked
  split at marked
  · rename_i noRoot
    cases marked
    exact ⟨all, joined, storedHolds, grown, by rw [noRoot, sameRoot, Option.none_or]⟩
  · rename_i id isRoot
    obtain ⟨afterHolds, sameContents, afterRoot⟩ := storedHolds.setRoot marked
    exact ⟨all, joined, afterHolds, sameContents ▸ grown, by rw [isRoot, afterRoot, Option.some_or]⟩

end Holds

end ActivityCatalog.Archive
