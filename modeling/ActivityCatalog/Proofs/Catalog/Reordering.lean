import ActivityCatalog.Proofs.Catalog.Building
import ActivityCatalog.Proofs.Catalog.Latest

namespace ActivityCatalog

/-!
# Listings of the same records in another order

Whether records are accepted says nothing of their order.  So if the records at the top of a
listing are put in another order, it still makes a catalog if it made one, with the same keys.

The record of a key that a record from the top has is the first such record, which equals the
others.  Any other key has a stub exactly if all embedded records of the key are stubs.  Only
which of several embedded contents stands there depends on the order.
-/

theorem Activity.mem_embedded_of_perm
    {first second : List Activity}
    (permuted : first.Perm second)
    (node : Activity) :
    node ∈ embedded first ↔ node ∈ embedded second := by
  rw [mem_embedded, mem_embedded]
  exact ⟨.of_subset permuted.subset, .of_subset permuted.symm.subset⟩

namespace Catalog

theorem Accepted.of_perm
    {tops others : List Activity}
    (accepted : Accepted tops)
    (permuted : tops.Perm others) :
    Accepted others where
  valid activity isTop :=
    accepted.valid activity (permuted.mem_iff.mpr isTop)
  agree :=
    accepted.agree.of_subset (permuted.symm.map Activity.normalForm).subset
  embeddedValid node isEmbedded :=
    accepted.embeddedValid node (isEmbedded.of_subset permuted.symm.subset)

/-- Two catalogs know the same of records at the top and of what these embed. -/
structure KnowAlike (tops : List Activity) (left right : Catalog) : Prop where
  sameKeys : ∀ key, key ∈ left.entries.map Entry.key ↔ key ∈ right.entries.map Entry.key
  sameSize : left.size = right.size
  claimed :
    ∀ activity ∈ tops, ∀ key, activity.key? = some key →
      ∃ held other,
        left.get? key.id (some key.version) = some held ∧
          right.get? key.id (some key.version) = some other ∧ held.same other = true
  unclaimed :
    ∀ key, (∀ activity ∈ tops, activity.key? ≠ some key) →
      ∀ held other,
        left.get? key.id (some key.version) = some held →
          right.get? key.id (some key.version) = some other → held.isStub = other.isStub

section Holds

variable
  {catalog : Catalog}
  {tops embedded : List Activity}
  {key : Key}

/-- Under a key that a record from the top has stands one of the records from the top. -/
theorem Holds.get?_of_claimed
    (holds : catalog.Holds tops embedded)
    {activity : Activity}
    (isTop : activity ∈ tops)
    (keyed : activity.key? = some key) :
    ∃ first ∈ tops, first.key? = some key ∧
      catalog.get? key.id (some key.version) = some first.normalForm := by
  cases isFirst : Activity.firstWith? key tops with
  | none =>
      exact absurd keyed (Activity.firstWith?_eq_none.mp isFirst activity isTop)
  | some first =>
      obtain ⟨firstTop, firstKeyed⟩ := Activity.firstWith?_some isFirst
      refine ⟨first, firstTop, firstKeyed, ?_⟩
      rw [get?, holds.entry, entryFor?_of_top isFirst]
      rfl

/-- Under any other key stands a stub exactly if all embedded records of the key are stubs. -/
theorem Holds.isStub_iff_of_unclaimed
    (holds : catalog.Holds tops embedded)
    (unclaimed : ∀ activity ∈ tops, activity.key? ≠ some key)
    {held : Activity}
    (found : catalog.get? key.id (some key.version) = some held) :
    held.isStub = true ↔ ∀ node ∈ embedded, node.key? = some key → node.isStub = true := by
  have isEntry := holds.entry key
  rw [entryFor?_of_embedded (Activity.firstWith?_eq_none.mpr unclaimed)] at isEntry
  obtain ⟨entry, stands, rfl⟩ := Option.map_eq_some_iff.mp found
  obtain ⟨node, preferred, rfl⟩ := Option.map_eq_some_iff.mp (isEntry.symm.trans stands)
  constructor
  · intro isStub other isEmbedded keyed
    exact holds.isStub_of_entry_isStub isEmbedded keyed stands Bool.false_ne_true isStub
  · intro areStubs
    obtain ⟨isEmbedded, keyed⟩ := Activity.preferred?_some preferred
    rw [Activity.isStub_normalForm]
    exact areStubs node isEmbedded keyed

end Holds

section Permuted

variable
  {first second : Listing}
  {left right : Catalog}

theorem keys_of_perm
    (permuted : first.activities.Perm second.activities)
    (firstBuilt : build first = .ok left)
    (secondBuilt : build second = .ok right)
    (key : Key) :
    key ∈ left.entries.map Entry.key ↔ key ∈ right.entries.map Entry.key := by
  rw [(holds_of_build firstBuilt).mem_keys, (holds_of_build secondBuilt).mem_keys]
  simp only [List.mem_append, permuted.mem_iff, Activity.mem_embedded_of_perm permuted]

theorem knowAlike_of_perm
    (permuted : first.activities.Perm second.activities)
    (firstBuilt : build first = .ok left)
    (secondBuilt : build second = .ok right) :
    KnowAlike first.activities left right := by
  have firstHolds := holds_of_build firstBuilt
  have secondHolds := holds_of_build secondBuilt
  have sameKeys := keys_of_perm permuted firstBuilt secondBuilt
  refine ⟨sameKeys, ?_, ?_, ?_⟩
  · exact (closed_of_build secondBuilt).size_of_keys (closed_of_build firstBuilt) sameKeys
  · intro activity isTop key keyed
    obtain ⟨held, heldTop, heldKeyed, heldFound⟩ := firstHolds.get?_of_claimed isTop keyed
    obtain ⟨other, otherTop, otherKeyed, otherFound⟩ :=
      secondHolds.get?_of_claimed (permuted.mem_iff.mp isTop) keyed
    -- Both are records from the top of the first listing, in which those of one key agree.
    have agree := (exists_build_iff.mp ⟨left, firstBuilt⟩).agree
    have isSame := agree _ (List.mem_map_of_mem heldTop) _
      (List.mem_map_of_mem (permuted.mem_iff.mpr otherTop)) (heldKeyed.trans otherKeyed.symm)
    exact ⟨_, _, heldFound, otherFound, isSame⟩
  · intro key unclaimed held other heldFound otherFound
    have alsoUnclaimed : ∀ activity ∈ second.activities, activity.key? ≠ some key :=
      fun activity isTop => unclaimed activity (permuted.mem_iff.mpr isTop)
    rw [Bool.eq_iff_iff, firstHolds.isStub_iff_of_unclaimed unclaimed heldFound,
      secondHolds.isStub_iff_of_unclaimed alsoUnclaimed otherFound]
    simp only [Activity.mem_embedded_of_perm permuted]

end Permuted

/--
A listing with the records of another one in another order makes a catalog exactly if the other
one does.  The two catalogs then have the same keys and as many records.  Under each key that a
record from the top has they hold equal records, and under any other key either both hold a stub
or neither does.
-/
theorem build_of_perm
    {first second : Listing}
    (permuted : first.activities.Perm second.activities) :
    ((∃ catalog, build first = .ok catalog) ↔ ∃ catalog, build second = .ok catalog) ∧
      ∀ left right, build first = .ok left → build second = .ok right →
        KnowAlike first.activities left right := by
  refine ⟨?_, fun left right => knowAlike_of_perm permuted⟩
  rw [exists_build_iff, exists_build_iff]
  exact ⟨fun accepted => accepted.of_perm permuted,
    fun accepted => accepted.of_perm permuted.symm⟩

/-- A hotel under a name. -/
def namedHotel (name : String) : Activity :=
  (Activity.stub "hotel" "1").withLabel "en" name

/-- A tour that stays at the hotel under a name. -/
def tour (id name : String) : Activity :=
  (Activity.stub id "1").withSub (namedHotel name)

/-- The listing of two tours. -/
def toursListing (first second : Activity) : Listing :=
  ⟨none, [first, second]⟩

/-- The entries of two tours, in which the hotel has a name. -/
def toursEntries (first second : Activity) (name : String) : List Entry :=
  [⟨⟨first.idText, "1"⟩, first, true⟩, ⟨⟨second.idText, "1"⟩, second, true⟩,
    ⟨⟨"hotel", "1"⟩, namedHotel name, false⟩]

/-- The catalog of two tours, in which the hotel has a name. -/
def toursCatalog (first second : Activity) (name : String) : Catalog :=
  let found : Catalog := ⟨toursEntries first second name, 3, none, []⟩
  { found with issues := found.findIssues }

/-- The hotel is known under the name that the first tour gives it. -/
theorem build_tours :
    build (toursListing (tour "north" "Inn") (tour "south" "Lodge")) =
        .ok (toursCatalog (tour "north" "Inn") (tour "south" "Lodge") "Inn") ∧
      build (toursListing (tour "south" "Lodge") (tour "north" "Inn")) =
        .ok (toursCatalog (tour "south" "Lodge") (tour "north" "Inn") "Lodge") := by
  let northFirst := toursEntries (tour "north" "Inn") (tour "south" "Lodge") "Inn"
  let southFirst := toursEntries (tour "south" "Lodge") (tour "north" "Inn") "Lodge"
  constructor
  · exact build_eq_ok.mpr
      ⟨⟨northFirst.take 2, 2, none, []⟩, ⟨northFirst, 3, none, []⟩, rfl, rfl, rfl⟩
  · exact build_eq_ok.mpr
      ⟨⟨southFirst.take 2, 2, none, []⟩, ⟨southFirst, 3, none, []⟩, rfl, rfl, rfl⟩

/-- In either order of the tours both are known and the hotel has a name, though not the same. -/
theorem build_of_perm_tours :
    (∃ catalog,
        build (toursListing (tour "south" "Lodge") (tour "north" "Inn")) = .ok catalog) ∧
      KnowAlike [tour "north" "Inn", tour "south" "Lodge"]
        (toursCatalog (tour "north" "Inn") (tour "south" "Lodge") "Inn")
        (toursCatalog (tour "south" "Lodge") (tour "north" "Inn") "Lodge") := by
  have permuted :
      (toursListing (tour "north" "Inn") (tour "south" "Lodge")).activities.Perm
        (toursListing (tour "south" "Lodge") (tour "north" "Inn")).activities :=
    List.Perm.swap _ _ _
  obtain ⟨inBothOrders, alike⟩ := build_of_perm permuted
  exact ⟨inBothOrders.mp ⟨_, build_tours.1⟩, alike _ _ build_tours.1 build_tours.2⟩

end Catalog

end ActivityCatalog
