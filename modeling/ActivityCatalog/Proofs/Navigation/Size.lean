import Mathlib.Algebra.Order.BigOperators.Group.List
import Mathlib.Algebra.Order.Ring.Nat
import ActivityCatalog.Proofs.Catalog.Latest
import ActivityCatalog.Proofs.Directory.Answers
import ActivityCatalog.Proofs.Navigation.Extent

namespace ActivityCatalog

/-!
# Navigation trees are finished and stay small

The steps that grow a tree come to an end, since the path cannot get longer than the depth
limit.  Every node but the root is a child of one other node.  The nodes with children show
different records, and each has no more children than its record has subs.  So the tree of a
record has at most one node more than all records of the catalog have subs.
-/

namespace NavNode

/-- The number of children that the nodes of some positions have. -/
def childSum (positions : List Position) : Nat :=
  (positions.map fun position => position.node.children.length).sum

@[simp]
theorem childSum_cons (position : Position) (rest : List Position) :
    childSum (position :: rest) = position.node.children.length + childSum rest :=
  List.sum_cons

@[simp]
theorem childSum_append (positions more : List Position) :
    childSum (positions ++ more) = childSum positions + childSum more := by
  simp [childSum]

mutual

/-- Every node of a tree but the root is a child of one of its nodes. -/
theorem length_positions_eq (path : List Key) : (node : NavNode) →
    (node.positions path).length = childSum (node.positions path) + 1
  | ⟨id, version, label, children, truncated, cycle, repeated⟩ => by
      rw [positions, List.length_cons, childSum_cons, length_positionsAll_eq]

theorem length_positionsAll_eq (path : List Key) : (nodes : List NavNode) →
    (positionsAll path nodes).length = nodes.length + childSum (positionsAll path nodes)
  | [] =>
      rfl
  | node :: rest => by
      rw [positionsAll, List.length_append, childSum_append, length_positions_eq,
        length_positionsAll_eq, List.length_cons]
      omega

end

end NavNode

namespace Catalog

/-- The number of subs of the record of a key. -/
def subsAt (catalog : Catalog) (key : Key) : Nat :=
  (catalog.get? key.id (some key.version)).elim 0 fun record => record.subs.length

/-- The number of subs of all records. -/
def subsTotal (catalog : Catalog) : Nat :=
  (catalog.records.map fun record => record.subs.length).sum

section Sizes

variable
  {catalog : Catalog}
  {locale : String}
  {limit : Nat}

theorem Closed.subsAt_eq
    (closed : catalog.Closed)
    {record : Activity}
    {key : Key}
    (member : record ∈ catalog.records)
    (keyed : record.key? = some key) :
    catalog.subsAt key = record.subs.length := by
  rw [subsAt, closed.get?_of_key? member keyed]
  rfl

/-- Records of different keys have no more subs than all records together. -/
theorem Closed.sum_subsAt_le
    (closed : catalog.Closed)
    {keys : List Key}
    (nodup : keys.Nodup)
    (areKeys : keys ⊆ catalog.entries.map Entry.key) :
    (keys.map catalog.subsAt).sum ≤ catalog.subsTotal := by
  -- Different keys of the catalog are a part of its keys, in an order of their own.
  obtain ⟨chosen, permuted, isSublist⟩ := nodup.subperm areKeys
  have all :
      (catalog.entries.map Entry.key).map catalog.subsAt =
        catalog.records.map fun record => record.subs.length := by
    rw [records, List.map_map, List.map_map]
    apply List.map_congr_left
    intro entry member
    exact closed.subsAt_eq (List.mem_map_of_mem member) (closed.keyed entry member)
  calc
    (keys.map catalog.subsAt).sum = (chosen.map catalog.subsAt).sum :=
      (permuted.map catalog.subsAt).sum_eq.symm
    _ ≤ ((catalog.entries.map Entry.key).map catalog.subsAt).sum :=
      (isSublist.map catalog.subsAt).sum_le_sum fun _ _ => Nat.zero_le _
    _ = catalog.subsTotal := by
      rw [all, subsTotal]

/-- Faithful nodes have no more children than the records of the expanded keys have subs. -/
theorem Closed.childSum_le
    (closed : catalog.Closed)
    {earlier : List Key}
    {positions : List Position}
    (faithful : Faithful catalog locale limit earlier positions) :
    NavNode.childSum positions ≤ ((expandedKeys positions).map catalog.subsAt).sum := by
  induction positions generalizing earlier with
  | nil =>
      exact Nat.le_refl 0
  | cons position rest inductionHypothesis =>
      obtain ⟨⟨record, member, keyed, truthful⟩, restFaithful⟩ := faithful
      have restBounded := inductionHypothesis restFaithful
      rw [NavNode.childSum_cons, expandedKeys_cons, List.map_append, List.sum_append]
      by_cases childless : position.node.children = []
      · rw [expandedKeys_of_childless childless, childless]
        simpa using restBounded
      · have shown := congrArg List.length (truthful.children childless).2
        rw [List.length_map, List.length_map] at shown
        have resolved : (catalog.resolveAll record.subs).length ≤ record.subs.length :=
          List.length_filterMap_le _ _
        rw [expandedKeys_of_expanded childless, List.map_singleton, List.sum_singleton,
          closed.subsAt_eq member keyed]
        omega

/-- The tree of a record has at most one node more than all records have subs. -/
theorem Closed.count_navTree_le
    (closed : catalog.Closed)
    {root : Activity}
    (member : root ∈ catalog.records)
    (locale : String)
    (limit : Nat) :
    (catalog.navTree root locale limit).count ≤ 1 + catalog.subsTotal := by
  obtain ⟨-, faithful⟩ := closed.navTree_faithful member locale limit
  have nodup := faithful.expandedKeys_nodup List.nodup_nil
  rw [List.append_nil] at nodup
  have areKeys :
      expandedKeys ((catalog.navTree root locale limit).positions []) ⊆
        catalog.entries.map Entry.key := by
    intro key expanded
    obtain ⟨position, inTree, -, rfl⟩ := NavNode.mem_expandedKeys.mp expanded
    obtain ⟨record, isRecord, keyed, -⟩ := closed.exists_shown member inTree
    exact closed.mem_keys.mpr ⟨record, isRecord, keyed⟩
  have children := (closed.childSum_le faithful).trans (closed.sum_subsAt_le nodup areKeys)
  rw [← NavNode.length_positions [], NavNode.length_positions_eq]
  omega

end Sizes

/--
The tree of a record is what finitely many steps end with.  It is no deeper than the limit,
and it has at most one node more than all records have subs.
-/
structure GrowsSmall (catalog : Catalog) (root : Activity) (locale : String) (limit : Nat) :
    Prop where
  ends : ∀ frame expanded,
    catalog.visit locale limit root 0 (fun _ => false) [] = (.expand frame, expanded) →
      ∃ last,
        Growth.Leads catalog locale limit ⟨frame, [], expanded⟩ last ∧
          last.step catalog locale limit = .inl (catalog.navTree root locale limit)
  shallow : ∀ position ∈ (catalog.navTree root locale limit).positions [],
    position.path.length ≤ limit
  small : (catalog.navTree root locale limit).count ≤ 1 + catalog.subsTotal

/-- From the frame of the root the steps lead to a state whose step gives the tree. -/
theorem exists_last
    (catalog : Catalog)
    {root : Activity}
    {locale : String}
    {limit : Nat}
    {frame : Frame}
    {expanded : List Key}
    (visited :
      catalog.visit locale limit root 0 (fun _ => false) [] = (.expand frame, expanded)) :
    ∃ last,
      Growth.Leads catalog locale limit ⟨frame, [], expanded⟩ last ∧
        last.step catalog locale limit = .inl (catalog.navTree root locale limit) := by
  obtain ⟨children, final, grows⟩ :=
    exists_grows catalog locale limit [frame.key] expanded frame.waiting
  have tree : catalog.navTree root locale limit = (frame.grown children []).node := by
    rw [navTree, visited]
    exact Growth.run_of_grows grows
  rw [tree]
  exact ⟨_, Growth.leads_of_grows grows ⟨frame, [], expanded⟩ rfl rfl rfl, rfl⟩

theorem Closed.growsSmall
    {catalog : Catalog}
    (closed : catalog.Closed)
    {root : Activity}
    (member : root ∈ catalog.records)
    (locale : String)
    (limit : Nat) :
    catalog.GrowsSmall root locale limit where
  ends frame expanded visited := catalog.exists_last visited
  shallow position inTree := by
    obtain ⟨record, -, -, within⟩ := closed.exists_chain member inTree
    exact within
  small := closed.count_navTree_le member locale limit

end Catalog

namespace Presenter

/-- The depth is the least of the one that is asked for, the configured and the greatest one. -/
theorem depthFor_of (defaultLocale : String) (configured : Nat) (requested : Option Nat) :
    (Presenter.of defaultLocale configured).depthFor requested =
      min (requested.getD greatestDepth) (min configured greatestDepth) := by
  cases requested with
  | some depth =>
      rfl
  | none =>
      exact (Nat.min_eq_right (Nat.min_le_right configured greatestDepth)).symm

/-- A presenter answers with the tree of a record of the catalog of the directory. -/
theorem exists_root_of_navTree
    {presenter : Presenter}
    {locale : Option String}
    {requested : Option Nat}
    {load : Load}
    {directory : Directory}
    {catalog : Catalog}
    {tree : NavNode}
    (current : (directory.current load).1 = .ok catalog)
    (answered : (presenter.navTree locale requested load directory).1 = .ok tree) :
    ∃ root ∈ catalog.records,
      tree =
        catalog.navTree root (locale.getD presenter.defaultLocale)
          (presenter.depthFor requested) := by
  obtain ⟨held, isCurrent, answer⟩ := Directory.ask_eq_ok.mp answered
  obtain rfl : catalog = held := Except.ok.inj (current.symm.trans isCurrent)
  obtain ⟨root, isMain, made⟩ := map_eq_ok.mp answer
  exact ⟨root, Catalog.mem_records_of_mainActivity isMain, made.symm⟩

/--
From any record of a built catalog and to any depth, the steps of the tree end, and the tree
is as shallow and as small as it should be.  The trees that a presenter answers with are such
trees, to the least of the three depths.
-/
theorem navTree_small
    {listing : Listing}
    {catalog : Catalog}
    (built : Catalog.build listing = .ok catalog)
    (defaultLocale : String)
    (configured : Nat)
    (requested : Option Nat) :
    (∀ root ∈ catalog.records, ∀ locale,
        catalog.GrowsSmall root locale
          (min (requested.getD greatestDepth) (min configured greatestDepth))) ∧
      ∀ directory load locale tree,
        (directory.current load).1 = .ok catalog →
          ((Presenter.of defaultLocale configured).navTree locale requested load
              directory).1 = .ok tree →
            ∃ root ∈ catalog.records,
              tree =
                catalog.navTree root (locale.getD defaultLocale)
                  (min (requested.getD greatestDepth) (min configured greatestDepth)) := by
  have closed := Catalog.closed_of_build built
  constructor
  · intro root member locale
    exact closed.growsSmall member locale _
  · intro directory load locale tree current answered
    obtain ⟨root, member, made⟩ := exists_root_of_navTree current answered
    rw [depthFor_of] at made
    exact ⟨root, member, made⟩

/-- A presenter that is asked for eight levels of the trip gives five nodes for four subs. -/
theorem navTree_small_trip :
    Catalog.build Catalog.tripListing = .ok Catalog.tripCatalog ∧
      ((Presenter.of "en" 300).navTree none (some 8) (fun _ => .ok Catalog.tripListing)
          (.unloaded none)).1 = .ok Catalog.tripTree ∧
      Catalog.tripTree.count = 5 ∧
      Catalog.tripCatalog.subsTotal = 4 ∧
      Catalog.tripCatalog.GrowsSmall Catalog.trip "en" 8 ∧
      ∃ root ∈ Catalog.tripCatalog.records,
        Catalog.tripTree = Catalog.tripCatalog.navTree root "en" 8 := by
  have current :
      ((Directory.unloaded none).current fun _ => .ok Catalog.tripListing).1 =
        .ok Catalog.tripCatalog :=
    Directory.current_of_built Catalog.build_tripListing
  have main : Catalog.tripCatalog.mainActivity none = .ok Catalog.trip :=
    rfl
  have answered :
      ((Presenter.of "en" 300).navTree none (some 8) (fun _ => .ok Catalog.tripListing)
          (.unloaded none)).1 = .ok Catalog.tripTree := by
    refine Directory.ask_eq_ok.mpr ⟨Catalog.tripCatalog, current, ?_⟩
    refine map_eq_ok.mpr ⟨Catalog.trip, main, ?_⟩
    exact Catalog.navTree_trip
  obtain ⟨grow, given⟩ := navTree_small Catalog.build_tripListing "en" 300 (some 8)
  exact ⟨Catalog.build_tripListing, answered, rfl, rfl,
    grow Catalog.trip List.mem_cons_self "en", given _ _ _ _ current answered⟩

end Presenter

end ActivityCatalog
