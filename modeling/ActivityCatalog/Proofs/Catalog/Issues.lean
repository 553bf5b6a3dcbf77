import ActivityCatalog.Proofs.Catalog.Latest
import ActivityCatalog.Proofs.Directory.Answers

namespace ActivityCatalog

/-!
# The issues of a catalog are its one-sided links

A link is one-sided if the record that it points at lists others in the other direction, but not
the source of the link.  The issues of a catalog are these links, one by one: by the keys of their
sources, then subs before supers, then as they are listed.

Two lists of which this holds are the same.  As it says nothing about the order of the entries,
the issues do not depend on that order.
-/

namespace Key

theorem notAfter_iff {left right : Key} : notAfter left right = true ↔ (order left right).isLE := by
  unfold notAfter
  cases order left right <;> decide

theorem notAfter_trans
    {first second third : Key}
    (notAfter₁ : notAfter first second = true)
    (notAfter₂ : notAfter second third = true) :
    notAfter first third = true := by
  rw [notAfter_iff] at notAfter₁ notAfter₂ ⊢
  exact Std.TransCmp.isLE_trans notAfter₁ notAfter₂

theorem notAfter_total (left right : Key) :
    (notAfter left right || notAfter right left) = true := by
  rw [Bool.or_eq_true, notAfter_iff, notAfter_iff, ← Std.OrientedCmp.isGE_iff_isLE]
  cases order right left <;> decide

theorem order_eq_lt_of_notAfter
    {left right : Key}
    (isNotAfter : notAfter left right = true)
    (different : left ≠ right) :
    order left right = .lt := by
  cases ordered : order left right with
  | lt =>
      rfl
  | eq =>
      exact absurd (Std.LawfulEqCmp.eq_of_compare ordered) different
  | gt =>
      rw [notAfter, ordered] at isNotAfter
      cases isNotAfter

end Key

namespace Catalog

/-- The link of an issue's source at a position is one-sided and points at the issue's target. -/
def Raises (catalog : Catalog) (issue : Issue) (position : Nat) : Prop :=
  ∃ source link target,
    source ∈ catalog.records ∧
      source.key? = some issue.source ∧
      (source.linked issue.direction)[position]? = some link ∧
      catalog.PointsAt link target ∧
      target.key? = some issue.target ∧
      target.linked issue.direction.opposite ≠ [] ∧
      ∀ back ∈ target.linked issue.direction.opposite, back.id ≠ some issue.source.id

/-- One issue comes before another, where both stand with the positions of their links. -/
def Precedes (first second : Issue × Nat) : Prop :=
  Key.order first.1.source second.1.source = .lt ∨
    first.1.source = second.1.source ∧
      (first.1.direction = .down ∧ second.1.direction = .up ∨
        first.1.direction = second.1.direction ∧ first.2 < second.2)

/-- Some issues with the positions of their links are all that a catalog has, in their order. -/
structure Reports (catalog : Catalog) (placed : List (Issue × Nat)) : Prop where
  inOrder : placed.Pairwise Precedes
  mem_iff : ∀ issue position, (issue, position) ∈ placed ↔ catalog.Raises issue position

theorem Precedes.asymm
    {first second : Issue × Nat}
    (precedes : Precedes first second)
    (follows : Precedes second first) :
    False := by
  have notLower : ∀ key : Key, Key.order key key ≠ .lt := by
    intro key
    have same : Key.order key key = .eq := Std.ReflCmp.compare_self
    rw [same]
    decide
  rcases precedes with isLower | ⟨sameSource, precedes⟩
  · rcases follows with isHigher | ⟨sameSource, -⟩
    · cases isHigher.symm.trans (Std.OrientedCmp.gt_of_lt isLower)
    · exact notLower _ (sameSource ▸ isLower)
  · rcases follows with isHigher | ⟨-, follows⟩
    · exact notLower _ (sameSource ▸ isHigher)
    · rcases precedes with ⟨isDown, isUp⟩ | ⟨sameDirection, isBefore⟩
      · rcases follows with ⟨isDownToo, -⟩ | ⟨sameDirection, -⟩
        · cases isUp.symm.trans isDownToo
        · cases isUp.symm.trans (sameDirection.trans isDown)
      · rcases follows with ⟨isDown, isUp⟩ | ⟨-, isAfter⟩
        · cases isUp.symm.trans (sameDirection.trans isDown)
        · exact Nat.lt_asymm isBefore isAfter

namespace Reports

variable
  {catalog : Catalog}
  {placed others : List (Issue × Nat)}

theorem nodup (reports : catalog.Reports placed) : placed.Nodup := by
  apply reports.inOrder.imp
  rintro first second precedes rfl
  exact precedes.asymm precedes

/-- A catalog has only one list of issues. -/
theorem unique
    (reports : catalog.Reports placed)
    (othersReport : catalog.Reports others) :
    placed = others := by
  have sameMembers : placed.Perm others := by
    apply (List.perm_ext_iff_of_nodup reports.nodup othersReport.nodup).mpr
    rintro ⟨issue, position⟩
    rw [reports.mem_iff, othersReport.mem_iff]
  -- The order is strict, so that it leaves only one way to list the same issues.
  apply sameMembers.eq_of_pairwise _ reports.inOrder othersReport.inOrder
  intro first second _ _ precedes follows
  exact absurd follows precedes.asymm

end Reports

theorem isOneSided_iff
    {target : Activity}
    {direction : Direction}
    {id : String} :
    ¬((target.linked direction).isEmpty || target.lists direction id) = true ↔
      target.linked direction ≠ [] ∧ ∀ back ∈ target.linked direction, back.id ≠ some id := by
  simp [Activity.lists]

section Placed

variable
  {catalog : Catalog}
  {entry : Entry}
  {direction : Direction}
  {issue : Issue}

/-- The issues of an entry's links in a direction, with the positions of the links. -/
def issuesAlong (catalog : Catalog) (entry : Entry) (direction : Direction) :
    List (Issue × Nat) :=
  (entry.record.linked direction).zipIdx.filterMap fun (link, position) =>
    (catalog.issueOf? entry.key direction link).map fun issue => (issue, position)

/-- The entries in the order of their keys. -/
def byKey (catalog : Catalog) : List Entry :=
  catalog.entries.mergeSort fun left right => Key.notAfter left.key right.key

theorem byKey_perm (catalog : Catalog) : catalog.byKey.Perm catalog.entries :=
  List.mergeSort_perm _ _

/-- All issues with the positions of their links, as they are found. -/
def placedIssues (catalog : Catalog) : List (Issue × Nat) :=
  catalog.byKey.flatMap fun entry =>
    catalog.issuesAlong entry .down ++ catalog.issuesAlong entry .up

theorem map_fst_issuesAlong (catalog : Catalog) (entry : Entry) (direction : Direction) :
    (catalog.issuesAlong entry direction).map Prod.fst =
      (entry.record.linked direction).filterMap (catalog.issueOf? entry.key direction) := by
  have withoutPositions := List.zipIdx_map_fst 0 (entry.record.linked direction)
  conv_rhs => rw [← withoutPositions]
  rw [issuesAlong, List.map_filterMap, List.filterMap_map]
  congr 1
  funext item
  exact (Option.map_map _ _ _).trans Option.map_id'

theorem map_fst_placedIssues (catalog : Catalog) :
    catalog.placedIssues.map Prod.fst = catalog.findIssues := by
  unfold placedIssues findIssues issuesOf
  simp only [List.map_flatMap, List.map_append, map_fst_issuesAlong]
  rfl

theorem mem_issuesAlong {position : Nat} :
    (issue, position) ∈ catalog.issuesAlong entry direction ↔
      ∃ link, (entry.record.linked direction)[position]? = some link ∧
        catalog.issueOf? entry.key direction link = some issue := by
  constructor
  · intro member
    obtain ⟨⟨link, place⟩, isListed, isIssue⟩ := List.mem_filterMap.mp member
    obtain ⟨found, isFound, same⟩ := Option.map_eq_some_iff.mp isIssue
    cases same
    exact ⟨link, List.mk_mem_zipIdx_iff_getElem?.mp isListed, isFound⟩
  · rintro ⟨link, isListed, isIssue⟩
    refine List.mem_filterMap.mpr
      ⟨(link, position), List.mk_mem_zipIdx_iff_getElem?.mpr isListed, ?_⟩
    exact Option.map_eq_some_iff.mpr ⟨issue, isIssue, rfl⟩

theorem issuesAlong_pairwise (catalog : Catalog) (entry : Entry) (direction : Direction) :
    (catalog.issuesAlong entry direction).Pairwise fun first second => first.2 < second.2 := by
  have positions : (entry.record.linked direction).zipIdx.Pairwise
      fun first second => first.2 < second.2 := by
    apply List.pairwise_map.mp
    rw [List.zipIdx_map_snd]
    exact List.pairwise_lt_range'
  apply List.pairwise_filterMap.mpr
  apply positions.imp
  intro first second isBefore placed isPlaced next isNext
  obtain ⟨_, -, rfl⟩ := Option.map_eq_some_iff.mp isPlaced
  obtain ⟨_, -, rfl⟩ := Option.map_eq_some_iff.mp isNext
  exact isBefore

end Placed

theorem get?_of_latest
    {catalog : Catalog}
    {id : String}
    {activity : Activity}
    (isLatest : catalog.latest id = .ok activity) :
    catalog.get? id none = some activity := by
  unfold latest at isLatest
  split at isLatest
  · rename_i found stands
    cases isLatest
    exact stands
  · cases isLatest

namespace Closed

variable {catalog : Catalog}

/-- A link has an issue exactly when it is one-sided. -/
theorem issueOf?_eq_some
    (closed : catalog.Closed)
    {source : Key}
    {direction : Direction}
    {link : Activity}
    {issue : Issue} :
    catalog.issueOf? source direction link = some issue ↔
      issue.source = source ∧ issue.direction = direction ∧
        ∃ target, catalog.PointsAt link target ∧ target.key? = some issue.target ∧
          target.linked direction.opposite ≠ [] ∧
            ∀ back ∈ target.linked direction.opposite, back.id ≠ some source.id := by
  unfold issueOf?
  constructor
  · intro isIssue
    split at isIssue
    · cases isIssue
    · rename_i target found
      dsimp only at isIssue
      split at isIssue
      · cases isIssue
      · rename_i isOneSided
        obtain ⟨targetKey, keyed, rfl⟩ := Option.map_eq_some_iff.mp isIssue
        obtain ⟨listsOthers, notBack⟩ := isOneSided_iff.mp isOneSided
        exact ⟨rfl, rfl, target, closed.lookup?_eq_some.mp found, keyed, listsOthers, notBack⟩
  · rintro ⟨rfl, rfl, target, pointsAt, keyed, listsOthers, notBack⟩
    rw [closed.lookup?_eq_some.mpr pointsAt]
    dsimp only
    rw [if_neg (isOneSided_iff.mpr ⟨listsOthers, notBack⟩), keyed]
    rfl

theorem issuesAlong_source
    (closed : catalog.Closed)
    {entry : Entry}
    {direction : Direction}
    {placed : Issue × Nat}
    (member : placed ∈ catalog.issuesAlong entry direction) :
    placed.1.source = entry.key ∧ placed.1.direction = direction := by
  obtain ⟨link, -, isIssue⟩ := mem_issuesAlong.mp member
  obtain ⟨isSource, isDirection, -⟩ := closed.issueOf?_eq_some.mp isIssue
  exact ⟨isSource, isDirection⟩

theorem source_of_entry
    (closed : catalog.Closed)
    {entry : Entry}
    {placed : Issue × Nat}
    (member : placed ∈ catalog.issuesAlong entry .down ++ catalog.issuesAlong entry .up) :
    placed.1.source = entry.key := by
  rcases List.mem_append.mp member with down | up
  · exact (closed.issuesAlong_source down).1
  · exact (closed.issuesAlong_source up).1

theorem inOrder_of_entry (closed : catalog.Closed) (entry : Entry) :
    (catalog.issuesAlong entry .down ++ catalog.issuesAlong entry .up).Pairwise Precedes := by
  have along : ∀ direction, (catalog.issuesAlong entry direction).Pairwise Precedes := by
    intro direction
    apply (issuesAlong_pairwise catalog entry direction).imp_of_mem
    intro first second firstMember secondMember isBefore
    obtain ⟨firstSource, firstDirection⟩ := closed.issuesAlong_source firstMember
    obtain ⟨secondSource, secondDirection⟩ := closed.issuesAlong_source secondMember
    exact .inr ⟨firstSource.trans secondSource.symm,
      .inr ⟨firstDirection.trans secondDirection.symm, isBefore⟩⟩
  refine List.pairwise_append.mpr ⟨along .down, along .up, ?_⟩
  intro first firstMember second secondMember
  obtain ⟨firstSource, isDown⟩ := closed.issuesAlong_source firstMember
  obtain ⟨secondSource, isUp⟩ := closed.issuesAlong_source secondMember
  exact .inr ⟨firstSource.trans secondSource.symm, .inl ⟨isDown, isUp⟩⟩

/-- Sorted entries have ever higher keys, as no key occurs twice. -/
theorem byKey_pairwise (closed : catalog.Closed) :
    catalog.byKey.Pairwise fun left right => Key.order left.key right.key = .lt := by
  have sorted :
      catalog.byKey.Pairwise fun left right => Key.notAfter left.key right.key = true := by
    apply List.pairwise_mergeSort
    · intro first second third
      exact Key.notAfter_trans
    · intro first second
      exact Key.notAfter_total first.key second.key
  have different := ((byKey_perm catalog).map Entry.key).nodup_iff.mpr closed.keysNodup
  apply (sorted.and (List.pairwise_map.mp different)).imp
  rintro left right ⟨notAfter, notSame⟩
  exact Key.order_eq_lt_of_notAfter notAfter notSame

theorem mem_placedIssues
    (closed : catalog.Closed)
    {placed : Issue × Nat} :
    placed ∈ catalog.placedIssues ↔
      ∃ entry ∈ catalog.entries, placed ∈ catalog.issuesAlong entry placed.1.direction := by
  constructor
  · intro member
    obtain ⟨entry, sorted, ofEntry⟩ := List.mem_flatMap.mp member
    refine ⟨entry, (byKey_perm catalog).mem_iff.mp sorted, ?_⟩
    rcases List.mem_append.mp ofEntry with down | up
    · rwa [(closed.issuesAlong_source down).2]
    · rwa [(closed.issuesAlong_source up).2]
  · rintro ⟨entry, entryMember, along⟩
    refine List.mem_flatMap.mpr ⟨entry, (byKey_perm catalog).mem_iff.mpr entryMember, ?_⟩
    cases isDirection : placed.1.direction with
    | down =>
        exact List.mem_append_left _ (isDirection ▸ along)
    | up =>
        exact List.mem_append_right _ (isDirection ▸ along)

theorem reports_placedIssues (closed : catalog.Closed) :
    catalog.Reports catalog.placedIssues where
  inOrder := by
    refine List.pairwise_flatMap.mpr ⟨fun entry _ => closed.inOrder_of_entry entry, ?_⟩
    apply closed.byKey_pairwise.imp
    intro left right isLower first firstMember second secondMember
    have firstSource := closed.source_of_entry firstMember
    have secondSource := closed.source_of_entry secondMember
    exact .inl (firstSource ▸ secondSource ▸ isLower)
  mem_iff issue position := by
    rw [closed.mem_placedIssues]
    constructor
    · rintro ⟨entry, member, along⟩
      obtain ⟨link, isListed, isIssue⟩ := mem_issuesAlong.mp along
      obtain ⟨isSource, -, target, pointsAt, keyed, isOneSided⟩ :=
        closed.issueOf?_eq_some.mp isIssue
      refine ⟨entry.record, link, target, List.mem_map_of_mem member, ?_, isListed, pointsAt,
        keyed, isSource ▸ isOneSided⟩
      rw [closed.keyed entry member, isSource]
    · rintro ⟨source, link, target, member, sourceKey, isListed, pointsAt, keyed, isOneSided⟩
      obtain ⟨entry, entryMember, rfl, entryKey⟩ := closed.exists_entry member
      have isSource : issue.source = entry.key :=
        Option.some.inj (sourceKey.symm.trans entryKey)
      refine ⟨entry, entryMember, mem_issuesAlong.mpr ⟨link, isListed, ?_⟩⟩
      exact closed.issueOf?_eq_some.mpr
        ⟨isSource, rfl, target, pointsAt, keyed, isSource ▸ isOneSided⟩

/-- The issues are said of the records alone. -/
theorem findIssues_of_records
    (closed : catalog.Closed)
    {other : Catalog}
    (otherClosed : other.Closed)
    (sameRecords : ∀ record, record ∈ other.records ↔ record ∈ catalog.records) :
    other.findIssues = catalog.findIssues := by
  have reports := otherClosed.reports_placedIssues
  -- What is reported of the same records elsewhere is true of the catalog as well.
  have reportsToo : catalog.Reports other.placedIssues := by
    refine ⟨reports.inOrder, ?_⟩
    intro issue position
    rw [reports.mem_iff]
    unfold Raises
    simp only [sameRecords, pointsAt_of_records sameRecords]
  rw [← map_fst_placedIssues, ← map_fst_placedIssues,
    reportsToo.unique closed.reports_placedIssues]

/-- The issues do not depend on the order of the entries. -/
theorem findIssues_of_perm
    (closed : catalog.Closed)
    {entries : List Entry}
    (permuted : entries.Perm catalog.entries) :
    findIssues { catalog with entries } = catalog.findIssues :=
  closed.findIssues_of_records (closed.of_perm permuted) (mem_records_of_perm permuted)

/-- Without issues all that an id links to, unless it lists none, lists the id in return. -/
theorem lists_of_no_issues
    (closed : catalog.Closed)
    (noIssues : catalog.findIssues = [])
    {id : String}
    {direction : Direction}
    {activities : List Activity}
    (answered : catalog.linkedTo id direction = .ok activities)
    {activity : Activity}
    (member : activity ∈ activities)
    (listsSome : activity.linked direction.opposite ≠ []) :
    activity.lists direction.opposite id = true := by
  obtain ⟨source, isLatest, rfl⟩ := map_eq_ok.mp answered
  obtain ⟨sourceMember, hasId, -⟩ := closed.get?_none_eq_some.mp (get?_of_latest isLatest)
  obtain ⟨link, isLink, stands⟩ := List.mem_filterMap.mp member
  rw [closed.resolve?_eq_lookup? sourceMember isLink, closed.lookup?_eq_some] at stands
  obtain ⟨-, -, sourceKey⟩ := closed.exists_entry_of_idText sourceMember
  obtain ⟨target, -, -, targetKey⟩ := closed.exists_entry stands.1
  obtain ⟨position, isListed⟩ := List.mem_iff_getElem?.mp isLink
  by_contra notBack
  -- Otherwise the link would be one-sided, and there would be an issue of it.
  have raises : catalog.Raises ⟨⟨id, source.versionText⟩, target.key, direction⟩ position := by
    refine ⟨source, link, activity, sourceMember, ?_, isListed, stands, targetKey, listsSome, ?_⟩
    · exact Activity.key?_eq_some.mpr ⟨closed.idText_ne_empty sourceMember, by rw [hasId]⟩
    · simpa [Activity.lists] using notBack
  have isFound := (closed.reports_placedIssues.mem_iff _ _).mpr raises
  have isIssue := List.mem_map_of_mem (f := Prod.fst) isFound
  rw [map_fst_placedIssues, noIssues] at isIssue
  cases isIssue

end Closed

/--
The issues of a built catalog are the links whose target lists others in the other direction, but
not the source, in the order of the keys of their sources, subs before supers and then as they are
listed.  The order of the entries does not matter.  A catalog without issues has links that lead
back, unless they lead to a record that lists nothing in the other direction.
-/
theorem build_issues
    {listing : Listing}
    {catalog : Catalog}
    (built : build listing = .ok catalog) :
    (∃ placed, catalog.Reports placed ∧ catalog.issues = placed.map Prod.fst) ∧
      (∀ entries,
        entries.Perm catalog.entries →
          findIssues { catalog with entries } = catalog.issues) ∧
      (catalog.issues = [] →
        ∀ id direction activities,
          catalog.linkedTo id direction = .ok activities →
            ∀ activity ∈ activities,
              activity.linked direction.opposite ≠ [] →
                activity.lists direction.opposite id = true) := by
  have closed := closed_of_build built
  have areFound : catalog.issues = catalog.findIssues := by
    obtain ⟨tops, whole, -, -, rfl⟩ := build_eq_ok.mp built
    rfl
  refine ⟨⟨catalog.placedIssues, closed.reports_placedIssues, ?_⟩, ?_, ?_⟩
  · rw [areFound, map_fst_placedIssues]
  · intro entries permuted
    rw [areFound]
    exact closed.findIssues_of_perm permuted
  · intro noIssues id direction activities answered activity member listsSome
    exact closed.lists_of_no_issues (areFound ▸ noIssues) answered member listsSome

/-- A hotel that is part of a tour. -/
def tourHotel : Activity :=
  (Activity.stub "hotel" "1").withSuper (Activity.stub "tour" "1")

/-- A trip of which a hotel is part. -/
def hotelTrip : Activity :=
  (Activity.stub "trip" "1").withSub (Activity.stub "hotel" "1")

/-- The listing of the tour's hotel and of the trip that has it too. -/
def sharedListing : Listing :=
  ⟨none, [tourHotel, hotelTrip]⟩

/-- The catalog of the hotel that is shared. -/
def sharedCatalog : Catalog :=
  let found : Catalog :=
    ⟨[⟨⟨"hotel", "1"⟩, tourHotel, true⟩, ⟨⟨"trip", "1"⟩, hotelTrip, true⟩,
      ⟨⟨"tour", "1"⟩, Activity.stub "tour" "1", false⟩], 3, none, []⟩
  { found with issues := found.findIssues }

/-- The trip lists the hotel, which lists the tour that it is part of, but not the trip. -/
theorem build_issues_shared :
    build sharedListing = .ok sharedCatalog ∧
      ⟨⟨"trip", "1"⟩, ⟨"hotel", "1"⟩, .down⟩ ∈ sharedCatalog.issues := by
  have built : build sharedListing = .ok sharedCatalog :=
    build_eq_ok.mpr
      ⟨⟨[⟨⟨"hotel", "1"⟩, tourHotel, true⟩, ⟨⟨"trip", "1"⟩, hotelTrip, true⟩], 2, none, []⟩,
        ⟨sharedCatalog.entries, 3, none, []⟩, rfl, rfl, rfl⟩
  obtain ⟨⟨placed, reports, areIssues⟩, -, -⟩ := build_issues built
  refine ⟨built, ?_⟩
  have raises : sharedCatalog.Raises ⟨⟨"trip", "1"⟩, ⟨"hotel", "1"⟩, .down⟩ 0 := by
    refine ⟨hotelTrip, Activity.stub "hotel" "1", tourHotel, ?_, rfl, rfl, ⟨?_, rfl, rfl⟩, rfl,
      ?_, ?_⟩
    · exact List.mem_cons_of_mem _ List.mem_cons_self
    · exact List.mem_cons_self
    · exact List.cons_ne_nil _ _
    · intro back isBack
      obtain rfl := List.mem_singleton.mp isBack
      decide
  rw [areIssues]
  exact List.mem_map_of_mem ((reports.mem_iff _ 0).mpr raises)

end Catalog

end ActivityCatalog
