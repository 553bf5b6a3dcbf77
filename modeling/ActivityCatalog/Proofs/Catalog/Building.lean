import ActivityCatalog.Proofs.Activity.Joined
import ActivityCatalog.Proofs.Catalog.Acceptance

namespace ActivityCatalog

/-!
# Which listings make a catalog, and which the same one

A record from the top that equals an earlier one is not added again, and neither is an embedded
one: it is a stub like the earlier one or has content like that, which then is not replaced.
Hence a listing makes the same catalog without the records that equal earlier ones.

A listing makes a catalog if the records at its top have different keys and all records in it
are valid, be they embedded or not.  That all are valid is said of each record for itself, and
so it holds of records that are put together from listings of which it holds.
-/

namespace Catalog

section Repeated

variable
  {catalog next : Catalog}
  {tops embedded : List Activity}
  {stored activity : Activity}

theorem Holds.entry?_ne_none
    (holds : catalog.Holds tops embedded)
    (given : stored ∈ tops ++ embedded)
    {key : Key}
    (keyed : stored.key? = some key) :
    catalog.entry? key ≠ none := by
  intro missing
  exact entry?_eq_none.mp missing (holds.mem_keys.mpr ⟨stored, given, keyed⟩)

/-- A record from the top that equals an earlier one is not added. -/
theorem Holds.addTop_of_same
    (holds : catalog.Holds tops [])
    (given : stored ∈ tops)
    (isSame : stored.same activity = true)
    (added : catalog.addTop activity = .ok next) :
    next = catalog := by
  obtain ⟨key, -, keyed, ⟨fresh, -⟩ | ⟨entry, -, -, unchanged⟩⟩ := addTop_eq_ok.mp added
  · have storedKey : stored.key? = some key :=
      (Activity.key?_eq_of_same isSame).trans keyed
    exact absurd fresh (holds.entry?_ne_none (List.mem_append_left _ given) storedKey)
  · exact unchanged

/-- An embedded stub is held only where no embedded record of its key has content. -/
theorem Holds.isStub_of_entry_isStub
    (holds : catalog.Holds tops embedded)
    (given : stored ∈ embedded)
    {key : Key}
    (keyed : stored.key? = some key)
    {entry : Entry}
    (found : catalog.entry? key = some entry)
    (isEmbedded : ¬entry.isTop)
    (isStub : entry.record.isStub) :
    stored.isStub := by
  obtain ⟨-, held, preferred, rfl⟩ := preferred_of_entryFor? (holds.entry key ▸ found) isEmbedded
  have noContent := Activity.firstContent?_eq_none_of_preferred_stub preferred
    (by simpa using isStub)
  simpa [keyed] using List.find?_eq_none.mp noContent stored given

/-- An embedded record that equals an earlier one is not added. -/
theorem Holds.addEmbedded_of_same
    (holds : catalog.Holds tops embedded)
    (given : stored ∈ embedded)
    (isSame : stored.same activity = true)
    (added : catalog.addEmbedded activity = .ok next) :
    next = catalog := by
  obtain ⟨key, -, keyed, added⟩ := addEmbedded_eq_ok.mp added
  have storedKey : stored.key? = some key :=
    (Activity.key?_eq_of_same isSame).trans keyed
  rcases added with ⟨fresh, -⟩ | ⟨entry, -, -, unchanged⟩ |
    ⟨entry, found, isEmbedded, isStub, content, -⟩
  · exact absurd fresh (holds.entry?_ne_none (List.mem_append_right _ given) storedKey)
  · exact unchanged
  · have storedStub := holds.isStub_of_entry_isStub given storedKey found isEmbedded isStub
    exact absurd (Activity.isStub_eq_of_same isSame ▸ storedStub) content

end Repeated

/-- A listing makes the same catalog without records that equal earlier ones. -/
theorem build_of_joined
    {root : Option String}
    {given all : List Activity}
    {catalog : Catalog}
    (joined : Activity.Joined [] given all)
    (built : build ⟨root, given⟩ = .ok catalog) :
    build ⟨root, all⟩ = .ok catalog := by
  obtain ⟨tops, whole, topsAdded, allAdded, rfl⟩ := build_eq_ok.mp built
  have allTopsAdded : all.foldlM Catalog.addTop empty = .ok tops :=
    joined.foldlM_eq_ok
      (fun ran given isSame added => (holds_of_tops ran).addTop_of_same given isSame added)
      topsAdded
  have allEmbeddedAdded :
      (Activity.embedded all).foldlM Catalog.addEmbedded tops = .ok whole :=
    joined.embedded.foldlM_eq_ok
      (fun ran given isSame added =>
        ((holds_of_tops allTopsAdded).addAllEmbedded ran).addEmbedded_of_same given isSame added)
      allAdded
  exact build_eq_ok.mpr ⟨tops, whole, allTopsAdded, allEmbeddedAdded, rfl⟩

section Valid

/-- Records are valid with all that they embed. -/
def AllValid (activities : List Activity) : Prop :=
  ∀ activity ∈ activities ++ Activity.embedded activities,
    ∃ warnings, activity.validate = .ok warnings

theorem allValid_nil : AllValid [] := by
  intro activity member
  cases member

/-- Records that are among valid ones of two lists are valid. -/
theorem AllValid.of_subset_append
    {first second activities : List Activity}
    (firstValid : AllValid first)
    (secondValid : AllValid second)
    (subset : activities ⊆ first ++ second) :
    AllValid activities := by
  intro activity member
  rcases List.mem_append.mp member with listed | embedded
  · rcases List.mem_append.mp (subset listed) with inFirst | inSecond
    · exact firstValid activity (List.mem_append_left _ inFirst)
    · exact secondValid activity (List.mem_append_left _ inSecond)
  · have isEmbedded := (Activity.mem_embedded.mp embedded).of_subset subset
    rcases isEmbedded.of_append with inFirst | inSecond
    · exact firstValid activity (List.mem_append_right _ (Activity.mem_embedded.mpr inFirst))
    · exact secondValid activity (List.mem_append_right _ (Activity.mem_embedded.mpr inSecond))

/-- All records of a listing that makes a catalog are valid. -/
theorem allValid_of_build
    {listing : Listing}
    {catalog : Catalog}
    (built : build listing = .ok catalog) :
    AllValid listing.activities :=
  (holds_of_build built).valid

/-- A listing of valid records with different keys makes a catalog. -/
theorem exists_build
    {activities : List Activity}
    (valid : AllValid activities)
    (different : (activities.map Activity.key?).Nodup)
    (root : Option String) :
    ∃ catalog, build ⟨root, activities⟩ = .ok catalog := by
  obtain ⟨topsValid, embeddedValid⟩ := List.forall_mem_append.mp valid
  have formsDifferent : ((activities.map Activity.normalForm).map Activity.key?).Nodup := by
    rw [List.map_map]
    exact different
  exact exists_build_iff.mpr
    ⟨⟨topsValid, Activity.keysAgree_of_nodup formsDifferent⟩,
      fun node isEmbedded => embeddedValid node (Activity.mem_embedded.mpr isEmbedded)⟩

end Valid

end Catalog

end ActivityCatalog
