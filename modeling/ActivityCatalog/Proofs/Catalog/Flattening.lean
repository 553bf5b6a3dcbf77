import ActivityCatalog.Proofs.Activity.Embedded
import ActivityCatalog.Proofs.Catalog.Contents
import Mathlib.Data.Finset.Card

namespace ActivityCatalog

/-!
# What a built catalog holds

The queue of embedded records gives them level by level, so that building a
catalog is adding the records at the top of the listing and then the embedded
ones in that order.  Therefore a built catalog holds under every key the first
record from the top with the key, or else the first embedded one with content, or
else the first embedded one, always in normal form, and it has as many records as
there are different keys.
-/

namespace Catalog

/-- Pending records are added before what they link to. -/
theorem addPending_append (catalog : Catalog) (first rest : List Activity) :
    catalog.addPending (first ++ rest) =
      ((first.filter Activity.hasKey).foldlM Catalog.addEmbedded catalog >>= fun next =>
        next.addPending (rest ++ (first.filter Activity.hasKey).flatMap Activity.links)) := by
  induction first generalizing catalog rest with
  | nil =>
      simp
  | cons activity first inductionHypothesis =>
      rw [List.cons_append, addPending]
      by_cases hasKey : activity.hasKey
      · simp only [hasKey, ↓reduceIte, List.filter_cons, List.foldlM_cons, bind_assoc,
          List.flatMap_cons]
        refine bind_congr fun next => ?_
        rw [List.append_assoc, inductionHypothesis, List.append_assoc]
      · simp only [hasKey, Bool.false_eq_true, ↓reduceIte, List.filter_cons]
        exact inductionHypothesis catalog rest

/-- The queue gives the records below a level, one level after another. -/
theorem addPending_links
    {budget : Nat}
    {level : List Activity}
    (enough : Activity.weightAll level ≤ budget)
    (catalog : Catalog) :
    catalog.addPending (level.flatMap Activity.links) =
      (Activity.levelsBelow budget level).foldlM Catalog.addEmbedded catalog := by
  induction budget generalizing level catalog with
  | zero =>
      rw [Activity.eq_nil_of_weightAll_le_zero enough]
      simp [addPending, Activity.levelsBelow]
  | succ budget inductionHypothesis =>
      have queue :=
        addPending_append catalog (level.flatMap Activity.links) []
      rw [List.append_nil, List.nil_append] at queue
      rw [queue, Activity.levelsBelow, List.foldlM_append]
      refine bind_congr fun next => ?_
      exact inductionHypothesis (Activity.weightAll_nextLevel_le_of_le_succ enough) next

/-- A catalog is built of the records at the top and then of the embedded ones. -/
theorem build_eq (listing : Listing) :
    build listing =
      (listing.activities.foldlM Catalog.addTop empty >>= fun tops =>
        (Activity.embedded listing.activities).foldlM Catalog.addEmbedded tops >>= fun all =>
          pure { all with root := listing.root, issues := all.findIssues }) := by
  have levels : ∀ tops : Catalog,
      tops.addPending (listing.activities.flatMap Activity.links) =
        (Activity.embedded listing.activities).foldlM Catalog.addEmbedded tops :=
    addPending_links (Nat.le_refl _)
  simp only [build, levels]

theorem build_eq_ok
    {listing : Listing}
    {catalog : Catalog} :
    build listing = .ok catalog ↔
      ∃ tops all, listing.activities.foldlM Catalog.addTop empty = .ok tops ∧
        (Activity.embedded listing.activities).foldlM Catalog.addEmbedded tops = .ok all ∧
        catalog = { all with root := listing.root, issues := all.findIssues } := by
  simp only [build_eq, bind_eq_ok, pure, Except.pure, Except.ok.injEq]
  constructor
  · rintro ⟨tops, topsAdded, all, allAdded, rfl⟩
    exact ⟨tops, all, topsAdded, allAdded, rfl⟩
  · rintro ⟨tops, all, topsAdded, allAdded, rfl⟩
    exact ⟨tops, topsAdded, all, allAdded, rfl⟩

theorem root_of_build
    {listing : Listing}
    {catalog : Catalog}
    (built : build listing = .ok catalog) :
    catalog.root = listing.root := by
  obtain ⟨-, -, -, -, rfl⟩ := build_eq_ok.mp built
  rfl

theorem issues_of_build
    {listing : Listing}
    {catalog : Catalog}
    (built : build listing = .ok catalog) :
    catalog.issues = catalog.findIssues := by
  obtain ⟨-, -, -, -, rfl⟩ := build_eq_ok.mp built
  rfl

/-- Records from the top are held when all of them were added. -/
theorem holds_of_tops
    {tops : List Activity}
    {catalog : Catalog}
    (added : tops.foldlM Catalog.addTop empty = .ok catalog) :
    catalog.Holds tops [] :=
  foldlM_induction (motive := fun given next => Holds next given [])
    Holds.empty Holds.addTop added

/-- Embedded records are held besides when all of them were added. -/
theorem Holds.addAllEmbedded
    {tops embedded : List Activity}
    {catalog next : Catalog}
    (holds : catalog.Holds tops [])
    (added : embedded.foldlM Catalog.addEmbedded catalog = .ok next) :
    next.Holds tops embedded :=
  foldlM_induction (motive := fun given next => Holds next tops given)
    holds Holds.addEmbedded added

/-- A built catalog holds the records at the top of its listing and those embedded. -/
theorem holds_of_build
    {listing : Listing}
    {catalog : Catalog}
    (built : build listing = .ok catalog) :
    catalog.Holds listing.activities (Activity.embedded listing.activities) := by
  obtain ⟨tops, all, topsAdded, allAdded, rfl⟩ := build_eq_ok.mp built
  have allHold : all.Holds listing.activities (Activity.embedded listing.activities) :=
    (holds_of_tops topsAdded).addAllEmbedded allAdded
  exact ⟨allHold.entry, allHold.keysNodup, allHold.count, allHold.valid⟩

/-- A catalog has as many records as the given ones have different keys. -/
theorem Holds.size_eq
    {catalog : Catalog}
    {tops embedded : List Activity}
    (holds : catalog.Holds tops embedded) :
    catalog.size = ((tops ++ embedded).filterMap Activity.key?).toFinset.card := by
  have sameKeys :
      (catalog.entries.map Entry.key).toFinset =
        ((tops ++ embedded).filterMap Activity.key?).toFinset := by
    ext key
    simp only [List.mem_toFinset, holds.mem_keys, List.mem_filterMap]
  calc
    catalog.size = (catalog.entries.map Entry.key).length := by
      simp [size, holds.count]
    _ = (catalog.entries.map Entry.key).toFinset.card :=
      (List.toFinset_card_of_nodup holds.keysNodup).symm
    _ = ((tops ++ embedded).filterMap Activity.key?).toFinset.card := by
      rw [sameKeys]

/--
A built catalog holds under an id and a version the normal form of the first
record from the top with that key, or else of the first embedded record with it
that is not a stub, or else of the first embedded record with it; and it has as
many records as there are different keys.
-/
theorem build_flattens
    {listing : Listing}
    {catalog : Catalog}
    (built : build listing = .ok catalog) :
    (∀ id version,
      catalog.get? id (some version) =
        ((Activity.firstWith? ⟨id, version⟩ listing.activities).or
          ((Activity.firstContent? ⟨id, version⟩ (Activity.embedded listing.activities)).or
            (Activity.firstWith? ⟨id, version⟩ (Activity.embedded listing.activities)))).map
          Activity.normalForm) ∧
      catalog.size =
        ((listing.activities ++ Activity.embedded listing.activities).filterMap
          Activity.key?).toFinset.card := by
  have holds := holds_of_build built
  refine ⟨?_, holds.size_eq⟩
  intro id version
  rw [get?, holds.entry]
  cases first : Activity.firstWith? ⟨id, version⟩ listing.activities with
  | some activity =>
      rw [entryFor?_of_top first]
      rfl
  | none =>
      rw [entryFor?_of_embedded first, Option.map_map, Option.none_or]
      rfl

/-- A hotel with content, which links back to any version of the trip. -/
def hotel : Activity :=
  ((Activity.stub "hotel" "1").withLabel "en" "Hotel").withSub
    { Activity.blank with id := some "trip" }

/-- A day that the hotel is part of. -/
def day : Activity :=
  (Activity.stub "day" "1").withSub hotel

/-- A trip of which the hotel, named by a stub, and the day are part. -/
def trip : Activity :=
  ((Activity.stub "trip" "1").withSub (Activity.stub "hotel" "1")).withSub day

/-- The listing of the trip. -/
def tripListing : Listing :=
  ⟨some "trip", [trip]⟩

/-- What the catalog of the trip holds: the hotel has taken the place of its stub. -/
def tripEntries : List Entry :=
  [ ⟨⟨"trip", "1"⟩, trip, true⟩, ⟨⟨"hotel", "1"⟩, hotel, false⟩, ⟨⟨"day", "1"⟩, day, false⟩,
    ⟨⟨"trip", ""⟩, { Activity.blank with id := some "trip" }, false⟩ ]

/-- The catalog of the trip. -/
def tripCatalog : Catalog :=
  let found : Catalog := ⟨tripEntries, 4, none, []⟩
  { found with root := some "trip", issues := found.findIssues }

/-- The catalog of the trip is built of its listing. -/
theorem build_tripListing : build tripListing = .ok tripCatalog :=
  build_eq_ok.mpr
    ⟨⟨[⟨⟨"trip", "1"⟩, trip, true⟩], 1, none, []⟩, ⟨tripEntries, 4, none, []⟩, rfl, rfl, rfl⟩

/-- The hotel is found with its content, and the trip has four records. -/
theorem build_flattens_trip :
    build tripListing = .ok tripCatalog ∧
      tripCatalog.get? "hotel" (some "1") = some hotel ∧ tripCatalog.size = 4 :=
  ⟨build_tripListing,
    (build_flattens build_tripListing).1 "hotel" "1",
    (build_flattens build_tripListing).2⟩

end Catalog

end ActivityCatalog
