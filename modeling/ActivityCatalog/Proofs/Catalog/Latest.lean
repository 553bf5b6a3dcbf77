import ActivityCatalog.Proofs.Catalog.Closure
import ActivityCatalog.Proofs.Version

namespace ActivityCatalog

/-!
# Which record a link points at

A link with a version points at the record of its key, and one without a version at the latest
record of its id.  Versions are ordered linearly, so that an id has only one latest record: the
order in which the entries are passed through does not matter.
-/

namespace Catalog

/-- No record with the id of a record is later. -/
def IsLatest (catalog : Catalog) (record : Activity) : Prop :=
  ∀ other ∈ catalog.records,
    other.idText = record.idText →
      (Version.order record.versionText other.versionText).isGE

/-- A link points at the record of its key or, without a version, at the latest of its id. -/
def PointsAt (catalog : Catalog) (link target : Activity) : Prop :=
  target ∈ catalog.records ∧
    target.idText = link.idText ∧
      match link.version with
      | some version => target.versionText = version
      | none => catalog.IsLatest target

section Later

theorem isGE_self (version : String) : (Version.order version version).isGE := by
  have same : Version.order version version = .eq := Std.ReflCmp.compare_self
  rw [same]
  rfl

theorem later_isGE (held next : Activity) :
    (Version.order (later held next).versionText held.versionText).isGE ∧
      (Version.order (later held next).versionText next.versionText).isGE := by
  unfold later
  by_cases isLater : Version.order held.versionText next.versionText = .lt
  · rw [if_pos isLater]
    have isEarlier : Version.order next.versionText held.versionText = .gt :=
      Std.OrientedCmp.gt_of_lt isLater
    exact ⟨isEarlier ▸ rfl, isGE_self next.versionText⟩
  · rw [if_neg isLater]
    exact ⟨isGE_self held.versionText, Ordering.isGE_iff_ne_lt.mpr isLater⟩

/-- The record that is kept as the later one all along is no earlier than any of them. -/
theorem foldl_later_isGE (held : Activity) (entries : List Entry) :
    let latest := entries.foldl (fun held entry => later held entry.record) held
    (Version.order latest.versionText held.versionText).isGE ∧
      ∀ entry ∈ entries, (Version.order latest.versionText entry.record.versionText).isGE := by
  induction entries generalizing held with
  | nil =>
      refine ⟨isGE_self held.versionText, ?_⟩
      intro entry member
      cases member
  | cons next rest inductionHypothesis =>
      obtain ⟨overHeld, overNext⟩ := later_isGE held next.record
      obtain ⟨overLater, overRest⟩ := inductionHypothesis (later held next.record)
      refine ⟨Std.TransCmp.isGE_trans overLater overHeld, ?_⟩
      intro entry member
      rcases List.mem_cons.mp member with rfl | inRest
      · exact Std.TransCmp.isGE_trans overLater overNext
      · exact overRest entry inRest

theorem isGE_of_get?_none
    {catalog : Catalog}
    {id : String}
    {record : Activity}
    (found : catalog.get? id none = some record)
    {entry : Entry}
    (member : entry ∈ catalog.entries)
    (hasId : entry.key.id = id) :
    (Version.order record.versionText entry.record.versionText).isGE := by
  have ofId : entry ∈ catalog.entries.filter fun other => other.key.id == id :=
    List.mem_filter.mpr ⟨member, beq_iff_eq.mpr hasId⟩
  rw [get?] at found
  split at found
  · cases found
  · rename_i first rest isList
    obtain rfl := Option.some.inj found
    obtain ⟨overFirst, overRest⟩ := foldl_later_isGE first.record rest
    rw [isList] at ofId
    rcases List.mem_cons.mp ofId with rfl | inRest
    · exact overFirst
    · exact overRest entry inRest

end Later

namespace Closed

variable
  {catalog : Catalog}
  {record link target : Activity}
  {id : String}

theorem exists_entry_of_idText
    (closed : catalog.Closed)
    (member : record ∈ catalog.records) :
    ∃ entry ∈ catalog.entries,
      entry.record = record ∧ entry.key = ⟨record.idText, record.versionText⟩ := by
  obtain ⟨entry, entryMember, same, keyed⟩ := closed.exists_entry member
  obtain ⟨-, isKey⟩ := Activity.key?_eq_some.mp keyed
  exact ⟨entry, entryMember, same, isKey⟩

theorem idText_ne_empty
    (closed : catalog.Closed)
    (member : record ∈ catalog.records) :
    record.idText ≠ "" := by
  obtain ⟨_, _, _, keyed⟩ := closed.exists_entry member
  exact (Activity.key?_eq_some.mp keyed).1

/-- Records of one id of which neither is earlier are the same. -/
theorem eq_of_isLatest
    (closed : catalog.Closed)
    (member : record ∈ catalog.records)
    (otherMember : target ∈ catalog.records)
    (sameId : record.idText = target.idText)
    (isLatest : catalog.IsLatest record)
    (otherLatest : catalog.IsLatest target) :
    record = target := by
  have notEarlier := isLatest target otherMember sameId.symm
  have notLater : (Version.order record.versionText target.versionText).isLE :=
    Std.OrientedCmp.isLE_of_isGE (otherLatest record member sameId)
  have sameVersion : record.versionText = target.versionText :=
    Std.LawfulEqCmp.eq_of_compare (Ordering.eq_eq_of_isLE_of_isGE notLater notEarlier)
  apply closed.eq_of_key?_eq member otherMember
  rw [Activity.key?, Activity.key?, sameId, sameVersion]

theorem get?_none_eq_some (closed : catalog.Closed) :
    catalog.get? id none = some record ↔
      record ∈ catalog.records ∧ record.idText = id ∧ catalog.IsLatest record := by
  have latest : ∀ {found : Activity},
      catalog.get? id none = some found →
        found ∈ catalog.records ∧ found.idText = id ∧ catalog.IsLatest found := by
    intro found isFound
    obtain ⟨entry, entryMember, hasId, rfl⟩ := exists_entry_of_get? isFound
    have member := List.mem_map_of_mem (f := Entry.record) entryMember
    obtain ⟨-, isKey⟩ := Activity.key?_eq_some.mp (closed.keyed entry entryMember)
    have sameId : entry.record.idText = id := by
      rw [← hasId, isKey]
    refine ⟨member, sameId, ?_⟩
    intro other otherMember otherId
    obtain ⟨otherEntry, held, rfl, otherKey⟩ := closed.exists_entry_of_idText otherMember
    apply isGE_of_get?_none isFound held
    rw [otherKey, otherId, sameId]
  constructor
  · exact latest
  · rintro ⟨member, rfl, isLatest⟩
    -- Some record is found for the id, and it is the latest one, of which there is only one.
    obtain ⟨entry, entryMember, -, isKey⟩ := closed.exists_entry_of_idText member
    have isFound := isSome_get?_none (List.mem_map_of_mem entryMember)
    rw [isKey] at isFound
    obtain ⟨found, foundSome⟩ := Option.isSome_iff_exists.mp isFound
    obtain ⟨foundMember, foundId, foundLatest⟩ := latest foundSome
    rw [foundSome, closed.eq_of_isLatest foundMember member foundId foundLatest isLatest]

theorem get?_some_eq_some
    (closed : catalog.Closed)
    {version : String} :
    catalog.get? id (some version) = some record ↔
      record ∈ catalog.records ∧ record.idText = id ∧ record.versionText = version := by
  constructor
  · intro found
    obtain ⟨entry, stands, rfl⟩ := Option.map_eq_some_iff.mp found
    have entryMember := entry?_mem stands
    obtain ⟨-, isKey⟩ := Activity.key?_eq_some.mp (closed.keyed entry entryMember)
    rw [entry?_key stands, Key.mk.injEq] at isKey
    exact ⟨List.mem_map_of_mem entryMember, isKey.1.symm, isKey.2.symm⟩
  · rintro ⟨member, rfl, rfl⟩
    exact closed.get?_of_key? member
      (Activity.key?_eq_some.mpr ⟨closed.idText_ne_empty member, rfl⟩)

theorem lookup?_eq_some (closed : catalog.Closed) :
    catalog.lookup? link = some target ↔ catalog.PointsAt link target := by
  unfold lookup? PointsAt
  by_cases noId : link.idText = ""
  · rw [if_pos noId]
    constructor
    · intro found
      cases found
    · rintro ⟨member, sameId, -⟩
      exact absurd (sameId.trans noId) (closed.idText_ne_empty member)
  · rw [if_neg noId]
    cases link.version with
    | none =>
        exact closed.get?_none_eq_some
    | some version =>
        exact closed.get?_some_eq_some

end Closed

section SameRecords

variable
  {catalog other : Catalog}

/-- What a link points at is said of the records alone. -/
theorem pointsAt_of_records
    (sameRecords : ∀ record, record ∈ other.records ↔ record ∈ catalog.records)
    (link target : Activity) :
    other.PointsAt link target ↔ catalog.PointsAt link target := by
  unfold PointsAt IsLatest
  simp only [sameRecords]

/-- What is found under an id is said of the records alone. -/
theorem Closed.get?_of_records
    (closed : catalog.Closed)
    (otherClosed : other.Closed)
    (sameRecords : ∀ record, record ∈ other.records ↔ record ∈ catalog.records)
    (id : String)
    (version : Option String) :
    other.get? id version = catalog.get? id version := by
  apply Option.ext
  intro record
  cases version with
  | none =>
      rw [closed.get?_none_eq_some, otherClosed.get?_none_eq_some]
      unfold IsLatest
      simp only [sameRecords]
  | some version =>
      rw [closed.get?_some_eq_some, otherClosed.get?_some_eq_some, sameRecords]

/-- No two records have the same key. -/
theorem Closed.nodup_recordKeys (closed : catalog.Closed) :
    (catalog.records.map Activity.key?).Nodup := by
  have areKeys :
      catalog.records.map Activity.key? = catalog.entries.map fun entry => some entry.key := by
    rw [records, List.map_map]
    exact List.map_congr_left closed.keyed
  rw [areKeys, ← Function.comp_def, ← List.map_map]
  exact closed.keysNodup.map fun _ _ sameKey => Option.some.inj sameKey

theorem Closed.mem_keys
    (closed : catalog.Closed)
    {key : Key} :
    key ∈ catalog.entries.map Entry.key ↔ ∃ record ∈ catalog.records, record.key? = some key := by
  constructor
  · intro isKey
    obtain ⟨entry, member, rfl⟩ := List.mem_map.mp isKey
    exact ⟨entry.record, List.mem_map_of_mem member, closed.keyed entry member⟩
  · rintro ⟨record, isRecord, keyed⟩
    obtain ⟨entry, member, rfl, entryKeyed⟩ := closed.exists_entry isRecord
    obtain rfl : entry.key = key := Option.some.inj (entryKeyed.symm.trans keyed)
    exact List.mem_map_of_mem member

/-- How many records there are is said of the keys alone. -/
theorem Closed.size_of_keys
    (closed : catalog.Closed)
    (otherClosed : other.Closed)
    (sameKeys : ∀ key,
      key ∈ other.entries.map Entry.key ↔ key ∈ catalog.entries.map Entry.key) :
    other.size = catalog.size := by
  have permuted :=
    (List.perm_ext_iff_of_nodup otherClosed.keysNodup closed.keysNodup).mpr sameKeys
  have sameLength := permuted.length_eq
  rw [List.length_map, List.length_map] at sameLength
  rw [size, size, closed.count, otherClosed.count, sameLength]

theorem Closed.size_of_records
    (closed : catalog.Closed)
    (otherClosed : other.Closed)
    (sameRecords : ∀ record, record ∈ other.records ↔ record ∈ catalog.records) :
    other.size = catalog.size := by
  apply closed.size_of_keys otherClosed
  intro key
  rw [closed.mem_keys, otherClosed.mem_keys]
  simp only [sameRecords]

end SameRecords

section Permuted

variable
  {catalog : Catalog}
  {entries : List Entry}

theorem mem_records_of_perm
    (permuted : entries.Perm catalog.entries)
    (record : Activity) :
    record ∈ records { catalog with entries } ↔ record ∈ catalog.records :=
  (permuted.map Entry.record).mem_iff

theorem Closed.of_perm
    (closed : catalog.Closed)
    (permuted : entries.Perm catalog.entries) :
    Closed { catalog with entries } where
  keysNodup := (permuted.map Entry.key).nodup_iff.mpr closed.keysNodup
  count := closed.count.trans permuted.length_eq.symm
  keyed entry member := closed.keyed entry (permuted.mem_iff.mp member)
  clean entry member := closed.clean entry (permuted.mem_iff.mp member)
  linked entry member direction link linked key keyed :=
    (permuted.map Entry.key).mem_iff.mpr
      (closed.linked entry (permuted.mem_iff.mp member) direction link linked key keyed)

end Permuted

end Catalog

end ActivityCatalog
