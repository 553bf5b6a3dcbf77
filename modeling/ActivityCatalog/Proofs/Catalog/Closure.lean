import ActivityCatalog.Proofs.Catalog.Flattening

namespace ActivityCatalog

/-!
# Catalogs are closed under links

Every record of a built catalog is valid and in normal form, stands under its own
key, and links only to records of the catalog, as far as its links have a key at
all.  `Catalog.Closed` states this; everything that is said about walks and trees
rests on it.

So a link of a record never stands for itself: it stands for the record of its
key or, without a version, for the latest record of its id.
-/

namespace Catalog

/-- The records of a catalog. -/
def records (catalog : Catalog) : List Activity :=
  catalog.entries.map Entry.record

/-- An entry is found under its key if no key occurs twice. -/
theorem entry?_of_mem
    {catalog : Catalog}
    {entry : Entry}
    (keysNodup : (catalog.entries.map Entry.key).Nodup)
    (member : entry ∈ catalog.entries) :
    catalog.entry? entry.key = some entry := by
  cases found : catalog.entry? entry.key with
  | none =>
      exact absurd (List.mem_map_of_mem member) (entry?_eq_none.mp found)
  | some other =>
      have same : other = entry :=
        List.inj_on_of_nodup_map keysNodup (entry?_mem found) member (entry?_key found)
      rw [same]

/-- Every entry holds the normal form of a record that was given, under its key. -/
theorem Holds.exists_given
    {catalog : Catalog}
    {tops embedded : List Activity}
    (holds : catalog.Holds tops embedded)
    {entry : Entry}
    (member : entry ∈ catalog.entries) :
    ∃ activity ∈ tops ++ embedded,
      activity.key? = some entry.key ∧ entry.record = activity.normalForm := by
  have expected : entryFor? tops embedded entry.key = some entry :=
    holds.entry entry.key ▸ entry?_of_mem holds.keysNodup member
  cases first : Activity.firstWith? entry.key tops with
  | some activity =>
      obtain ⟨given, keyed⟩ := Activity.firstWith?_some first
      rw [entryFor?_of_top first, Option.some.injEq] at expected
      exact ⟨activity, List.mem_append_left _ given, keyed, by rw [← expected]⟩
  | none =>
      rw [entryFor?_of_embedded first] at expected
      obtain ⟨activity, preferred, same⟩ := Option.map_eq_some_iff.mp expected
      obtain ⟨given, keyed⟩ := Activity.preferred?_some preferred
      exact ⟨activity, List.mem_append_right _ given, keyed, by rw [← same]⟩

/--
A catalog is closed when every entry holds a clean record under the record's own
key, no key occurs twice, and every link with a key leads to an entry.
-/
structure Closed (catalog : Catalog) : Prop where
  keysNodup : (catalog.entries.map Entry.key).Nodup
  count : catalog.count = catalog.entries.length
  keyed : ∀ entry ∈ catalog.entries, entry.record.key? = some entry.key
  clean : ∀ entry ∈ catalog.entries, entry.record.normalized = .ok (entry.record, [])
  linked :
    ∀ entry ∈ catalog.entries,
      ∀ direction, ∀ link ∈ entry.record.linked direction,
        ∀ key, link.key? = some key → key ∈ catalog.entries.map Entry.key

/-- A built catalog is closed. -/
theorem closed_of_build
    {listing : Listing}
    {catalog : Catalog}
    (built : build listing = .ok catalog) :
    catalog.Closed := by
  have holds := holds_of_build built
  refine ⟨holds.keysNodup, holds.count, ?_, ?_, ?_⟩
  · intro entry member
    obtain ⟨activity, -, keyed, same⟩ := holds.exists_given member
    rw [same, Activity.key?_normalForm, keyed]
  · intro entry member
    obtain ⟨activity, given, -, same⟩ := holds.exists_given member
    obtain ⟨warnings, valid⟩ := holds.valid activity given
    rw [same]
    exact Activity.normalized_normalForm valid
  · intro entry member direction link linked key keyed
    obtain ⟨activity, given, -, same⟩ := holds.exists_given member
    rw [same, Activity.linked_normalForm] at linked
    have isLink : link ∈ activity.links := by
      cases direction with
      | down =>
          exact List.mem_append_left _ linked
      | up =>
          exact List.mem_append_right _ linked
    have embedded : link ∈ Activity.embedded listing.activities :=
      Activity.mem_embedded_of_mem_links given isLink (by simp [Activity.hasKey, keyed])
    exact holds.mem_keys.mpr ⟨link, List.mem_append_right _ embedded, keyed⟩

/-- The later of two records is one of them. -/
theorem later_mem (held next : Activity) :
    later held next = held ∨ later held next = next := by
  unfold later
  split
  · exact .inr rfl
  · exact .inl rfl

/-- The latest of some entries is held by one of them. -/
theorem foldl_later_mem (held : Entry) (entries : List Entry) :
    ∃ entry ∈ held :: entries,
      entries.foldl (fun latest entry => later latest entry.record) held.record =
        entry.record := by
  induction entries generalizing held with
  | nil =>
      exact ⟨held, by simp, rfl⟩
  | cons next rest inductionHypothesis =>
      rw [List.foldl_cons]
      rcases later_mem held.record next.record with stays | changes
      · rw [stays]
        obtain ⟨entry, member, same⟩ := inductionHypothesis held
        refine ⟨entry, ?_, same⟩
        rcases List.mem_cons.mp member with isHeld | inRest
        · simp [isHeld]
        · simp [inRest]
      · rw [changes]
        obtain ⟨entry, member, same⟩ := inductionHypothesis next
        exact ⟨entry, List.mem_cons_of_mem _ member, same⟩

/-- What is found under an id is a record that is held under that id. -/
theorem exists_entry_of_get?
    {catalog : Catalog}
    {id : String}
    {version : Option String}
    {record : Activity}
    (found : catalog.get? id version = some record) :
    ∃ entry ∈ catalog.entries, entry.key.id = id ∧ entry.record = record := by
  cases version with
  | some version =>
      obtain ⟨entry, entryFound, same⟩ := Option.map_eq_some_iff.mp found
      exact ⟨entry, entry?_mem entryFound, by rw [entry?_key entryFound], same⟩
  | none =>
      rw [get?] at found
      split at found
      · cases found
      · rename_i first rest ofId
        obtain ⟨entry, member, same⟩ := foldl_later_mem first rest
        rw [← ofId, List.mem_filter] at member
        refine ⟨entry, member.1, by simpa using member.2, ?_⟩
        rw [← same]
        exact Option.some.inj found

/-- What is found under an id is a record of the catalog. -/
theorem mem_records_of_get?
    {catalog : Catalog}
    {id : String}
    {version : Option String}
    {record : Activity}
    (found : catalog.get? id version = some record) :
    record ∈ catalog.records := by
  obtain ⟨entry, member, -, rfl⟩ := exists_entry_of_get? found
  exact List.mem_map_of_mem member

/-- A record is found under the id of every entry. -/
theorem isSome_get?_none
    {catalog : Catalog}
    {key : Key}
    (member : key ∈ catalog.entries.map Entry.key) :
    (catalog.get? key.id none).isSome := by
  obtain ⟨entry, entryMember, rfl⟩ := List.mem_map.mp member
  have ofId : entry ∈ catalog.entries.filter fun other => other.key.id == entry.key.id := by
    simp [entryMember]
  rw [get?]
  split
  · rename_i noneOfId
    simp [noneOfId] at ofId
  · rfl

/-- A record is found under every key of an entry, and without its version too. -/
theorem isSome_get?_of_mem_keys
    {catalog : Catalog}
    {activity : Activity}
    {key : Key}
    (keyed : activity.key? = some key)
    (member : key ∈ catalog.entries.map Entry.key) :
    (catalog.get? activity.idText activity.version).isSome := by
  obtain ⟨-, rfl⟩ := Activity.key?_eq_some.mp keyed
  cases version : activity.version with
  | some text =>
      rw [Activity.versionText, version, Option.getD_some] at member
      have found := mt entry?_eq_none.mp (not_not.mpr member)
      simpa [get?, Option.isSome_iff_ne_none] using found
  | none =>
      exact isSome_get?_none member

namespace Closed

variable {catalog : Catalog}

/-- A record of a closed catalog is held by an entry under its key. -/
theorem exists_entry
    (closed : catalog.Closed)
    {record : Activity}
    (member : record ∈ catalog.records) :
    ∃ entry ∈ catalog.entries, entry.record = record ∧ record.key? = some entry.key := by
  obtain ⟨entry, entryMember, rfl⟩ := List.mem_map.mp member
  exact ⟨entry, entryMember, rfl, closed.keyed entry entryMember⟩

/-- A record of a closed catalog is found under its key. -/
theorem get?_of_key?
    (closed : catalog.Closed)
    {record : Activity}
    {key : Key}
    (member : record ∈ catalog.records)
    (keyed : record.key? = some key) :
    catalog.get? key.id (some key.version) = some record := by
  obtain ⟨entry, entryMember, rfl, entryKeyed⟩ := closed.exists_entry member
  obtain rfl : key = entry.key :=
    Option.some.inj (keyed.symm.trans entryKeyed)
  rw [get?, Catalog.entry?_of_mem closed.keysNodup entryMember, Option.map_some]

/-- Two records of a closed catalog with one key are the same. -/
theorem eq_of_key?_eq
    (closed : catalog.Closed)
    {first second : Activity}
    (firstMember : first ∈ catalog.records)
    (secondMember : second ∈ catalog.records)
    (sameKey : first.key? = second.key?) :
    first = second := by
  obtain ⟨firstEntry, firstHeld, rfl, firstKey⟩ := closed.exists_entry firstMember
  obtain ⟨secondEntry, secondHeld, rfl, secondKey⟩ := closed.exists_entry secondMember
  have keysSame : firstEntry.key = secondEntry.key := by
    rw [firstKey, secondKey] at sameKey
    exact Option.some.inj sameKey
  rw [List.inj_on_of_nodup_map closed.keysNodup firstHeld secondHeld keysSame]

/-- A link with an id of a record leads to a record of the catalog. -/
theorem exists_lookup?
    (closed : catalog.Closed)
    {record link : Activity}
    {direction : Direction}
    (member : record ∈ catalog.records)
    (linked : link ∈ record.linked direction)
    (hasId : link.idText ≠ "") :
    ∃ target ∈ catalog.records, catalog.lookup? link = some target := by
  obtain ⟨entry, entryMember, rfl, -⟩ := closed.exists_entry member
  have keyed : link.key? = some ⟨link.idText, link.versionText⟩ :=
    Activity.key?_eq_some.mpr ⟨hasId, rfl⟩
  have found :=
    isSome_get?_of_mem_keys keyed
      (closed.linked entry entryMember direction link linked _ keyed)
  obtain ⟨target, targetFound⟩ := Option.isSome_iff_exists.mp found
  exact ⟨target, mem_records_of_get? targetFound, by simp [lookup?, hasId, targetFound]⟩

/-- A link of a record stands for a record of the catalog, never for itself. -/
theorem resolve?_eq_lookup?
    (closed : catalog.Closed)
    {record link : Activity}
    {direction : Direction}
    (member : record ∈ catalog.records)
    (linked : link ∈ record.linked direction) :
    catalog.resolve? link = catalog.lookup? link := by
  by_cases hasId : link.idText = ""
  · have noKey : ¬link.hasKey := by
      simp [Activity.hasKey_iff, hasId]
    simp [resolve?, lookup?, noKey, hasId]
  · obtain ⟨target, -, found⟩ := closed.exists_lookup? member linked hasId
    simp [resolve?, Activity.hasKey_iff.mpr hasId, found]

/-- The links of a record stand for records of the catalog. -/
theorem mem_records_of_mem_resolveAll
    (closed : catalog.Closed)
    {record target : Activity}
    {direction : Direction}
    (member : record ∈ catalog.records)
    (resolved : target ∈ catalog.resolveAll (record.linked direction)) :
    target ∈ catalog.records := by
  obtain ⟨link, linked, stands⟩ := List.mem_filterMap.mp resolved
  rw [closed.resolve?_eq_lookup? member linked, lookup?] at stands
  split at stands
  · cases stands
  · exact mem_records_of_get? stands

end Closed

end Catalog

end ActivityCatalog
