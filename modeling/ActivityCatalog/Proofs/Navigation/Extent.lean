import ActivityCatalog.Proofs.Catalog.Reach
import ActivityCatalog.Proofs.Navigation.Marks

namespace ActivityCatalog

/-!
# Which activities a navigation tree shows

A node of a navigation tree stands at the end of a chain of subs that is as long as
its path, and so within the depth limit.  In the other direction, the subs of every
expanded record are shown.  A record with subs that a node shows without children is
expanded elsewhere in the tree, unless that node is truncated.

So a tree without a truncated node shows everything that can be reached.  With one,
it may show less than lies within the limit: an activity is expanded where it comes
first, be it far from the root, and what lies too deep there is left out even where
a shorter chain leads to it.
-/

namespace NavNode

/-- The keys of the nodes of a tree, in preorder. -/
def keys (tree : NavNode) : List Key :=
  (tree.positions []).map fun position => position.node.key

theorem mem_keys
    {tree : NavNode}
    {key : Key} :
    key ∈ tree.keys ↔ ∃ position ∈ tree.positions [], position.node.key = key := by
  simp [keys]

/-- The keys of the truncated nodes of a tree, in preorder. -/
def cutKeys (tree : NavNode) : List Key :=
  ((tree.positions []).filter fun position => position.node.truncated).map
    fun position => position.node.key

theorem mem_cutKeys
    {tree : NavNode}
    {key : Key} :
    key ∈ tree.cutKeys ↔
      ∃ position ∈ tree.positions [], position.node.truncated ∧ position.node.key = key := by
  simp [cutKeys, and_assoc]

theorem mem_positions_self (node : NavNode) (path : List Key) :
    ⟨path, node⟩ ∈ node.positions path := by
  simp [positions_eq]

theorem positions_subset_positionsAll
    {nodes : List NavNode}
    {node : NavNode}
    (path : List Key)
    (member : node ∈ nodes) :
    node.positions path ⊆ positionsAll path nodes := by
  induction nodes with
  | nil =>
      cases member
  | cons first rest inductionHypothesis =>
      rcases List.mem_cons.mp member with isFirst | inRest
      · subst isFirst
        exact List.subset_append_left _ _
      · apply List.subset_append_of_subset_right
        exact inductionHypothesis inRest

section Induction

variable {motive : Position → Prop}

mutual

/-- What holds at the root of a tree and passes from each node to its children holds everywhere. -/
theorem positions_induction (path : List Key) : (node : NavNode) →
    motive ⟨path, node⟩ →
    (∀ position ∈ node.positions path, motive position →
      ∀ child ∈ position.node.children,
        motive ⟨position.node.key :: position.path, child⟩) →
    ∀ position ∈ node.positions path, motive position
  | ⟨id, version, label, children, truncated, cycle, repeated⟩, root, passes => by
      intro position member
      simp only [positions, List.mem_cons, forall_eq_or_imp] at passes member
      rcases member with isRoot | below
      · subst isRoot
        exact root
      · exact positionsAll_induction _ children (passes.1 root) passes.2 position below

theorem positionsAll_induction (path : List Key) : (nodes : List NavNode) →
    (∀ node ∈ nodes, motive ⟨path, node⟩) →
    (∀ position ∈ positionsAll path nodes, motive position →
      ∀ child ∈ position.node.children,
        motive ⟨position.node.key :: position.path, child⟩) →
    ∀ position ∈ positionsAll path nodes, motive position
  | [], _, _ => by
      simp [positionsAll]
  | node :: rest, roots, passes => by
      obtain ⟨root, restRoots⟩ := List.forall_mem_cons.mp roots
      simp only [positionsAll, List.forall_mem_append] at passes ⊢
      exact ⟨positions_induction path node root passes.1,
        positionsAll_induction path rest restRoots passes.2⟩

end

end Induction

/-- The nodes below a node of a tree are nodes of the tree. -/
theorem positions_subset
    {tree : NavNode}
    {path : List Key}
    {position : Position}
    (inTree : position ∈ tree.positions path) :
    position.node.positions position.path ⊆ tree.positions path := by
  revert position
  apply positions_induction
  · exact List.Subset.refl _
  · intro position _ below child isChild
    refine List.Subset.trans ?_ below
    rw [positions_eq position.node]
    apply List.subset_cons_of_subset
    exact positions_subset_positionsAll _ isChild

theorem mem_positions_of_child
    {tree child : NavNode}
    {path : List Key}
    {position : Position}
    (inTree : position ∈ tree.positions path)
    (isChild : child ∈ position.node.children) :
    ⟨position.node.key :: position.path, child⟩ ∈ tree.positions path := by
  apply positions_subset inTree
  rw [positions_eq]
  apply List.mem_cons_of_mem
  exact positions_subset_positionsAll _ isChild (mem_positions_self child _)

theorem mem_expandedKeys
    {positions : List Position}
    {key : Key} :
    key ∈ expandedKeys positions ↔
      ∃ position ∈ positions, position.node.children ≠ [] ∧ position.node.key = key := by
  simp [expandedKeys, and_assoc]

/-- The ancestors of a node are expanded. -/
theorem path_subset_expandedKeys
    {tree : NavNode}
    {position : Position}
    (inTree : position ∈ tree.positions []) :
    position.path ⊆ expandedKeys (tree.positions []) := by
  revert position
  apply positions_induction
  · exact List.nil_subset _
  · intro position inTree above child isChild
    refine List.cons_subset.mpr ⟨?_, above⟩
    exact mem_expandedKeys.mpr ⟨position, inTree, List.ne_nil_of_mem isChild, rfl⟩

end NavNode

namespace Position.Truthful

variable
  {catalog : Catalog}
  {locale : String}
  {limit : Nat}
  {earlier : List Key}
  {position : Position}
  {record : Activity}

/-- A child of a node shows a sub of its record. -/
theorem exists_sub
    (truthful : position.Truthful catalog locale limit earlier record)
    {child : NavNode}
    (isChild : child ∈ position.node.children) :
    ∃ sub, catalog.LinksTo .down record sub ∧ child.bare = NavNode.leaf sub locale := by
  have shown := (truthful.children (List.ne_nil_of_mem isChild)).2
  have bareShown := List.mem_map_of_mem (f := NavNode.bare) isChild
  rw [shown] at bareShown
  obtain ⟨sub, stands, same⟩ := List.mem_map.mp bareShown
  exact ⟨sub, stands, same.symm⟩

/-- The subs of the record of a node with children are shown by its children. -/
theorem exists_child
    (truthful : position.Truthful catalog locale limit earlier record)
    (expanded : position.node.children ≠ [])
    {sub : Activity}
    (linked : catalog.LinksTo .down record sub) :
    ∃ child ∈ position.node.children, child.bare = NavNode.leaf sub locale := by
  have leafShown := List.mem_map_of_mem (f := fun sub => NavNode.leaf sub locale) linked
  have shown := (truthful.children expanded).2
  apply List.mem_map.mp
  rw [shown]
  exact leafShown

/-- A node with children does not lie at the limit. -/
theorem length_path_ne
    (truthful : position.Truthful catalog locale limit earlier record)
    (expanded : position.node.children ≠ []) :
    position.path.length ≠ limit := by
  obtain ⟨unmarked, shown⟩ := truthful.children expanded
  have noMark : ∀ mark ∈ position.node.marks, mark = false := by
    simpa using List.count_eq_zero.mp unmarked
  simp only [NavNode.marks, List.forall_mem_cons] at noMark
  obtain ⟨notCycle, notRepeated, notTruncated, -⟩ := noMark
  intro atLimit
  have hasSubs : catalog.resolveAll record.subs ≠ [] := by
    intro noSubs
    rw [noSubs] at shown
    exact expanded (by simpa using shown)
  have truncated := truthful.truncated.mpr
    ⟨by simp [notCycle], by simp [notRepeated], hasSubs, atLimit⟩
  exact absurd truncated (by simp [notTruncated])

/-- A node without children whose record has subs carries a mark. -/
theorem marked
    (truthful : position.Truthful catalog locale limit earlier record)
    (childless : position.node.children = [])
    (hasSubs : catalog.resolveAll record.subs ≠ []) :
    position.node.cycle ∨ position.node.repeated ∨ position.node.truncated := by
  have oneMark := truthful.childless childless
  rw [if_neg hasSubs] at oneMark
  have someMark : true ∈ position.node.marks := by
    apply List.count_pos_iff.mp
    omega
  simpa [NavNode.marks] using someMark

end Position.Truthful

namespace Catalog

/-- A key lies within a depth if it is that of the root or the walk down to there finds it. -/
def Within (catalog : Catalog) (root : Activity) (limit : Option Nat) (key : Key) : Prop :=
  root.key? = some key ∨ ∃ item ∈ catalog.walk root .down limit, item.2.key? = some key

namespace Closed

variable
  {catalog : Catalog}
  {root : Activity}

/-- A key lies within a depth if chains of subs that are no longer lead to a record with it. -/
theorem within_iff
    (closed : catalog.Closed)
    (member : root ∈ catalog.records)
    {limit : Option Nat}
    {key : Key} :
    catalog.Within root limit key ↔
      ∃ length record,
        catalog.Chain .down root length record ∧
          (∀ bound, limit = some bound → length ≤ bound) ∧
          record.key? = some key := by
  obtain ⟨items, final, -, ended, walked, ⟨rfl, sameDirection, rfl⟩, frontier⟩ :=
    Traversal.exists_collected closed member .down limit
  unfold Within
  rw [walked]
  constructor
  · rintro (isRoot | ⟨item, isItem, keyed⟩)
    · exact ⟨0, root, .start, fun _ _ => Nat.zero_le _, isRoot⟩
    · have visited : item ∈ (0, root) :: items ++ final.queue :=
        List.mem_append_left _ (List.mem_cons_of_mem _ isItem)
      have chain := frontier.chained item visited
      rw [sameDirection] at chain
      exact ⟨item.1, item.2, chain, frontier.within item visited, keyed⟩
  · rintro ⟨length, record, chain, within, keyed⟩
    rw [← sameDirection] at chain
    obtain ⟨item, given, rfl, -⟩ := frontier.exists_of_chain ended chain within
    rcases List.mem_cons.mp given with isRoot | isItem
    · subst isRoot
      exact Or.inl keyed
    · exact Or.inr ⟨item, isItem, keyed⟩

section Tree

variable
  {locale : String}
  {limit : Nat}
  {position : Position}

/-- A node tells the truth about the record of its key, given some of the expanded keys. -/
theorem exists_truthful
    (closed : catalog.Closed)
    (member : root ∈ catalog.records)
    (inTree : position ∈ (catalog.navTree root locale limit).positions [])
    {record : Activity}
    (recordMember : record ∈ catalog.records)
    (keyed : record.key? = some position.node.key) :
    ∃ earlier,
      earlier ⊆ expandedKeys ((catalog.navTree root locale limit).positions []) ∧
        position.Truthful catalog locale limit earlier record := by
  obtain ⟨-, faithful⟩ := closed.navTree_faithful member locale limit
  obtain ⟨before, after, split⟩ := List.append_of_mem inTree
  rw [split] at faithful ⊢
  obtain ⟨told, toldMember, toldKeyed, truthful⟩ := faithful.exists_record
  obtain rfl : told = record :=
    closed.eq_of_key?_eq toldMember recordMember (toldKeyed.trans keyed.symm)
  refine ⟨_, ?_, truthful⟩
  simp

/-- A node shows what a chain of subs as long as its path leads to. -/
theorem exists_chain
    (closed : catalog.Closed)
    (member : root ∈ catalog.records)
    (inTree : position ∈ (catalog.navTree root locale limit).positions []) :
    ∃ record,
      catalog.Chain .down root position.path.length record ∧
        record.key? = some position.node.key ∧
        position.path.length ≤ limit := by
  revert position
  apply NavNode.positions_induction
  · obtain ⟨entry, -, -, keyed⟩ := closed.exists_entry member
    have shown := (closed.navTree_faithful member locale limit).1
    have rootKey : (catalog.navTree root locale limit).key = entry.key :=
      (congrArg NavNode.key shown).trans (key_leaf locale keyed)
    exact ⟨root, .start, keyed.trans (congrArg some rootKey.symm), Nat.zero_le limit⟩
  · rintro position inTree ⟨record, chain, keyed, reached⟩ child isChild
    have recordMember := closed.mem_records_of_chain member chain
    obtain ⟨earlier, -, truthful⟩ := closed.exists_truthful member inTree recordMember keyed
    obtain ⟨sub, linked, shown⟩ := truthful.exists_sub isChild
    have subMember := closed.mem_records_of_mem_resolveAll recordMember linked
    obtain ⟨entry, -, -, subKeyed⟩ := closed.exists_entry subMember
    have childKey : child.key = entry.key :=
      (congrArg NavNode.key shown).trans (key_leaf locale subKeyed)
    have aboveLimit := truthful.length_path_ne (List.ne_nil_of_mem isChild)
    refine ⟨sub, .link chain linked, subKeyed.trans (congrArg some childKey.symm), ?_⟩
    exact Nat.lt_of_le_of_ne reached aboveLimit

/-- The subs of an expanded record are shown. -/
theorem mem_keys_of_expanded
    (closed : catalog.Closed)
    (member : root ∈ catalog.records)
    {record sub : Activity}
    {key subKey : Key}
    (recordMember : record ∈ catalog.records)
    (keyed : record.key? = some key)
    (expanded : key ∈ expandedKeys ((catalog.navTree root locale limit).positions []))
    (linked : catalog.LinksTo .down record sub)
    (subKeyed : sub.key? = some subKey) :
    subKey ∈ (catalog.navTree root locale limit).keys := by
  obtain ⟨position, inTree, hasChildren, rfl⟩ := NavNode.mem_expandedKeys.mp expanded
  obtain ⟨earlier, -, truthful⟩ := closed.exists_truthful member inTree recordMember keyed
  obtain ⟨child, isChild, shown⟩ := truthful.exists_child hasChildren linked
  have childKey : child.key = subKey :=
    (congrArg NavNode.key shown).trans (key_leaf locale subKeyed)
  exact NavNode.mem_keys.mpr ⟨_, NavNode.mem_positions_of_child inTree isChild, childKey⟩

/-- A record with subs that a node shows is expanded in the tree, or the node is truncated. -/
theorem expanded_or_truncated
    (closed : catalog.Closed)
    (member : root ∈ catalog.records)
    (inTree : position ∈ (catalog.navTree root locale limit).positions [])
    {record sub : Activity}
    (recordMember : record ∈ catalog.records)
    (keyed : record.key? = some position.node.key)
    (linked : catalog.LinksTo .down record sub) :
    position.node.key ∈ expandedKeys ((catalog.navTree root locale limit).positions []) ∨
      position.node.truncated := by
  obtain ⟨earlier, expandedEarlier, truthful⟩ :=
    closed.exists_truthful member inTree recordMember keyed
  by_cases childless : position.node.children = []
  · rcases truthful.marked childless (List.ne_nil_of_mem linked) with cycle | repeated | cut
    · have above := truthful.cycle.mp cycle
      exact Or.inl (NavNode.path_subset_expandedKeys inTree above)
    · obtain ⟨-, -, again⟩ := truthful.repeated.mp repeated
      exact Or.inl (expandedEarlier again)
    · exact Or.inr cut
  · exact Or.inl (NavNode.mem_expandedKeys.mpr ⟨position, inTree, childless, rfl⟩)

/-- Whatever a tree shows lies within its depth limit. -/
theorem within_of_mem_keys
    (closed : catalog.Closed)
    (member : root ∈ catalog.records)
    {key : Key}
    (shown : key ∈ (catalog.navTree root locale limit).keys) :
    catalog.Within root (some limit) key := by
  obtain ⟨position, inTree, rfl⟩ := NavNode.mem_keys.mp shown
  obtain ⟨record, chain, keyed, reached⟩ := closed.exists_chain member inTree
  apply (closed.within_iff member).mpr
  refine ⟨_, record, chain, ?_, keyed⟩
  rintro bound same
  cases same
  exact reached

/-- A tree shows what a chain leads to if it shows the subs of all that is cut off on the way. -/
theorem mem_keys_of_chain
    (closed : catalog.Closed)
    (member : root ∈ catalog.records)
    {bound : Option Nat}
    (shownBehind :
      ∀ length record,
        catalog.Chain .down root length record →
        (∀ most, bound = some most → length < most) →
        ∀ cut ∈ (catalog.navTree root locale limit).cutKeys, record.key? = some cut →
        ∀ sub, catalog.LinksTo .down record sub →
        ∀ key, sub.key? = some key → key ∈ (catalog.navTree root locale limit).keys)
    {length : Nat}
    {record : Activity}
    (chain : catalog.Chain .down root length record)
    (within : ∀ most, bound = some most → length ≤ most)
    {key : Key}
    (keyed : record.key? = some key) :
    key ∈ (catalog.navTree root locale limit).keys := by
  induction chain generalizing key with
  | start =>
      have shown := (closed.navTree_faithful member locale limit).1
      have rootKey := (congrArg NavNode.key shown).trans (key_leaf locale keyed)
      exact NavNode.mem_keys.mpr ⟨_, NavNode.mem_positions_self _ _, rootKey⟩
  | @link length middle last chain linked inductionHypothesis =>
      have middleMember := closed.mem_records_of_chain member chain
      obtain ⟨entry, -, -, middleKeyed⟩ := closed.exists_entry middleMember
      have middleShown :=
        inductionHypothesis (fun most isBound => Nat.le_of_succ_le (within most isBound))
          middleKeyed
      obtain ⟨position, inTree, isKey⟩ := NavNode.mem_keys.mp middleShown
      rw [← isKey] at middleKeyed
      rcases closed.expanded_or_truncated member inTree middleMember middleKeyed linked with
        expanded | cut
      · exact closed.mem_keys_of_expanded member middleMember middleKeyed expanded linked keyed
      · have isCut := NavNode.mem_cutKeys.mpr ⟨position, inTree, cut, rfl⟩
        exact shownBehind length middle chain within _ isCut middleKeyed last linked key keyed

end Tree

/-- What lies within a depth lies within a greater one, and within none at all. -/
theorem within_mono
    (closed : catalog.Closed)
    (member : root ∈ catalog.records)
    {limit wider : Option Nat}
    {key : Key}
    (isWider : ∀ bound, wider = some bound → ∃ least, limit = some least ∧ least ≤ bound)
    (within : catalog.Within root limit key) :
    catalog.Within root wider key := by
  obtain ⟨length, record, chain, short, keyed⟩ := (closed.within_iff member).mp within
  apply (closed.within_iff member).mpr
  refine ⟨length, record, chain, ?_, keyed⟩
  intro bound isBound
  obtain ⟨least, isLimit, lower⟩ := isWider bound isBound
  exact Nat.le_trans (short least isLimit) lower

end Closed

/--
The navigation tree of a record of a built catalog shows the record and all that a walk
down its subs gives out without a limit, and nothing else, if none of its nodes is truncated.
-/
theorem navTree_complete
    {listing : Listing}
    {catalog : Catalog}
    {root : Activity}
    (built : build listing = .ok catalog)
    (member : root ∈ catalog.records)
    {locale : String}
    {limit : Nat}
    (uncut :
      ∀ position ∈ (catalog.navTree root locale limit).positions [], ¬position.node.truncated)
    (key : Key) :
    key ∈ (catalog.navTree root locale limit).keys ↔ catalog.Within root none key := by
  have closed := closed_of_build built
  constructor
  · intro shown
    apply closed.within_mono member _ (closed.within_of_mem_keys member shown)
    rintro bound ⟨⟩
  · intro within
    obtain ⟨length, record, chain, short, keyed⟩ := (closed.within_iff member).mp within
    apply closed.mem_keys_of_chain member _ chain short keyed
    intro _ _ _ _ _ isCut
    obtain ⟨position, inTree, cut, -⟩ := NavNode.mem_cutKeys.mp isCut
    exact absurd cut (uncut position inTree)

/-- In the tree of the trip one node is marked as a cycle and one as repeated, none as truncated. -/
theorem navTree_complete_trip :
    build tripListing = .ok tripCatalog ∧
      trip ∈ tripCatalog.records ∧
      (∀ position ∈ (tripCatalog.navTree trip "en" 8).positions [], ¬position.node.truncated) ∧
      tripCatalog.Within trip none ⟨"day", "1"⟩ ∧
      ¬tripCatalog.Within trip none ⟨"trip", ""⟩ := by
  have member : trip ∈ tripCatalog.records :=
    List.mem_cons_self
  have uncut :
      ∀ position ∈ (tripCatalog.navTree trip "en" 8).positions [], ¬position.node.truncated := by
    rw [navTree_trip]
    decide
  have shows := navTree_complete build_tripListing member uncut
  have keys :
      (tripCatalog.navTree trip "en" 8).keys =
        [⟨"trip", "1"⟩, ⟨"hotel", "1"⟩, ⟨"trip", "1"⟩, ⟨"day", "1"⟩, ⟨"hotel", "1"⟩] := by
    rw [navTree_trip]
    rfl
  refine ⟨build_tripListing, member, uncut, (shows _).mp ?_, fun within => ?_⟩
  · simp [keys]
  · have shown := (shows _).mpr within
    simp [keys] at shown

end Catalog

end ActivityCatalog
