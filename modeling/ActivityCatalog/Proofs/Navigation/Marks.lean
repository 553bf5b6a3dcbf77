import ActivityCatalog.Proofs.Catalog.Closure
import ActivityCatalog.Proofs.Navigation.Growth
import ActivityCatalog.Proofs.Navigation.Positions

namespace ActivityCatalog

/-!
# The marks of a navigation tree are truthful

`Position.Truthful` says what the marks and the children of a node tell about its
record, given the keys expanded earlier.  `Faithful` passes these keys along the
positions of a tree in preorder.

By induction on how trees grow, every tree is faithful to its catalog: the keys
that a visit finds expanded are those of the nodes with children that come earlier,
and those on the path belong to records that have subs.
-/

/--
What a node tells about its record is true, given the depth limit and the keys
expanded earlier in the tree.
-/
structure Position.Truthful (catalog : Catalog) (locale : String) (limit : Nat)
    (earlier : List Key) (position : Position) (record : Activity) : Prop where
  shown : position.node.bare = NavNode.leaf record locale
  once : position.node.children ≠ [] → position.node.key ∉ earlier
  children :
    position.node.children ≠ [] →
      position.node.marks.count true = 0 ∧
        position.node.children.map NavNode.bare =
          (catalog.resolveAll record.subs).map fun sub => NavNode.leaf sub locale
  childless :
    position.node.children = [] →
      position.node.marks.count true = if catalog.resolveAll record.subs = [] then 0 else 1
  cycle : position.node.cycle ↔ position.node.key ∈ position.path
  repeated :
    position.node.repeated ↔
      ¬position.node.cycle ∧ catalog.resolveAll record.subs ≠ [] ∧ position.node.key ∈ earlier
  truncated :
    position.node.truncated ↔
      ¬position.node.cycle ∧ ¬position.node.repeated ∧
        catalog.resolveAll record.subs ≠ [] ∧ position.path.length = limit

/-- Every position tells the truth about a record of the catalog that has its key. -/
def Faithful (catalog : Catalog) (locale : String) (limit : Nat) :
    List Key → List Position → Prop
  | _, [] =>
      True
  | earlier, position :: rest =>
      (∃ record ∈ catalog.records, record.key? = some position.node.key ∧
        position.Truthful catalog locale limit earlier record) ∧
      Faithful catalog locale limit (expandedKeys [position] ++ earlier) rest

namespace Faithful

variable {catalog : Catalog} {locale : String} {limit : Nat}

theorem append_iff
    {earlier : List Key}
    {positions more : List Position} :
    Faithful catalog locale limit earlier (positions ++ more) ↔
      Faithful catalog locale limit earlier positions ∧
        Faithful catalog locale limit (expandedKeys positions ++ earlier) more := by
  induction positions generalizing earlier with
  | nil =>
      simp [Faithful]
  | cons position rest inductionHypothesis =>
      rw [List.cons_append, Faithful, Faithful, inductionHypothesis,
        expandedKeys_cons position rest, List.append_assoc, and_assoc]

/-- A position tells the truth, given the keys expanded at those before it. -/
theorem exists_record
    {earlier : List Key}
    {before after : List Position}
    {position : Position}
    (faithful : Faithful catalog locale limit earlier (before ++ position :: after)) :
    ∃ record ∈ catalog.records, record.key? = some position.node.key ∧
      position.Truthful catalog locale limit (expandedKeys before ++ earlier) record :=
  (append_iff.mp faithful).2.1

/-- No key is expanded twice along faithful positions. -/
theorem expandedKeys_nodup
    {earlier : List Key}
    {positions : List Position}
    (faithful : Faithful catalog locale limit earlier positions)
    (earlierNodup : earlier.Nodup) :
    (expandedKeys positions ++ earlier).Nodup := by
  induction positions generalizing earlier with
  | nil =>
      simpa using earlierNodup
  | cons position rest inductionHypothesis =>
      obtain ⟨⟨record, -, -, truthful⟩, restFaithful⟩ := faithful
      rw [expandedKeys_cons, List.append_assoc]
      refine inductionHypothesis restFaithful ?_
      by_cases childless : position.node.children = []
      · simpa [expandedKeys_of_childless childless] using earlierNodup
      · rw [expandedKeys_of_expanded childless, List.singleton_append, List.nodup_cons]
        exact ⟨truthful.once childless, earlierNodup⟩

end Faithful

section Visits

variable {catalog : Catalog} {locale : String} {limit : Nat}

theorem key_leaf
    (locale : String)
    {activity : Activity}
    {key : Key}
    (keyed : activity.key? = some key) :
    (NavNode.leaf activity locale).key = key :=
  (Activity.key?_eq_some.mp keyed).2.symm

/-- A node that has to stay without children has one mark, and one without subs has none. -/
theorem count_marks
    {node : NavNode}
    {onPath noSubs again : Prop}
    [Decidable noSubs]
    (cycle : node.cycle ↔ onPath)
    (repeated : node.repeated ↔ ¬onPath ∧ ¬noSubs ∧ again)
    (truncated : node.truncated ↔ ¬onPath ∧ ¬noSubs ∧ ¬again)
    (parents : onPath → ¬noSubs) :
    node.marks.count true = if noSubs then 0 else 1 := by
  rw [NavNode.marks]
  by_cases childless : noSubs
  · have notOnPath : ¬onPath := fun isOnPath => parents isOnPath childless
    simp_all
  · by_cases isOnPath : onPath <;> by_cases isAgain : again <;> simp_all

/-- A record that is not expanded shows as a truthful node without children. -/
theorem truthful_of_leaf
    {activity : Activity}
    {path expanded noted : List Key}
    {node : NavNode}
    {key : Key}
    (keyed : activity.key? = some key)
    (parents : key ∈ path → catalog.resolveAll activity.subs ≠ [])
    (reached : path.length ≤ limit)
    (visited :
      catalog.visit locale limit activity path.length path.contains expanded =
        (.leaf node, noted)) :
    noted = expanded ∧ node.bare = NavNode.leaf activity locale ∧ node.children = [] ∧
      node.key = key ∧
      Position.Truthful catalog locale limit expanded ⟨path, node⟩ activity := by
  obtain ⟨rfl, shape, deep⟩ := Catalog.of_visit_leaf keyed visited
  have childless : node.children = [] := by
    rw [shape, NavNode.leaf]
  have nodeKey : node.key = key := by
    rw [shape]
    exact key_leaf locale keyed
  have bare : node.bare = NavNode.leaf activity locale := by
    rw [shape]
    rfl
  have cycle : node.cycle ↔ key ∈ path := by
    simp [shape]
  have repeated :
      node.repeated ↔ key ∉ path ∧ catalog.resolveAll activity.subs ≠ [] ∧ key ∈ noted := by
    simp [shape]
  have truncated :
      node.truncated ↔ key ∉ path ∧ catalog.resolveAll activity.subs ≠ [] ∧ key ∉ noted := by
    simp [shape]
  refine ⟨rfl, bare, childless, nodeKey, ?_⟩
  refine
    { shown := bare
      once := fun hasChildren => absurd childless hasChildren
      children := fun hasChildren => absurd childless hasChildren
      childless := ?_
      cycle := ?_
      repeated := ?_
      truncated := ?_ }
  · exact fun _ => count_marks cycle repeated truncated parents
  · rw [nodeKey]
    exact cycle
  · rw [nodeKey, cycle]
    exact repeated
  · rw [cycle, repeated, truncated]
    constructor
    · rintro ⟨notOnPath, hasSubs, isNew⟩
      have limited : limit ≤ path.length :=
        deep (by simpa using notOnPath) hasSubs isNew
      exact ⟨notOnPath, fun again => isNew again.2.2, hasSubs, Nat.le_antisymm reached limited⟩
    · rintro ⟨notOnPath, notRepeated, hasSubs, -⟩
      exact ⟨notOnPath, hasSubs, fun again => notRepeated ⟨notOnPath, hasSubs, again⟩⟩

/-- A record that is expanded shows as a truthful node with what its subs grow into. -/
theorem truthful_of_expand
    {activity : Activity}
    {path expanded noted : List Key}
    {frame : Frame}
    {children : List NavNode}
    (visited :
      catalog.visit locale limit activity path.length path.contains expanded =
        (.expand frame, noted))
    (shown :
      children.map NavNode.bare = frame.waiting.map fun sub => NavNode.leaf sub locale) :
    children ≠ [] ∧
      NavNode.key { frame.node with children } = frame.key ∧
      NavNode.bare { frame.node with children } = NavNode.leaf activity locale ∧
      Position.Truthful catalog locale limit expanded ⟨path, { frame.node with children }⟩
        activity := by
  obtain ⟨keyed, notOnPath, hasSubs, isNew, below, shape, -⟩ := Catalog.of_visit_expand visited
  have notCycle : frame.key ∉ path := by
    simpa using notOnPath
  have waiting : frame.waiting = catalog.resolveAll activity.subs := by
    rw [shape]
  have node : frame.node = NavNode.leaf activity locale := by
    rw [shape]
  have nodeKey : (NavNode.leaf activity locale).key = frame.key :=
    key_leaf locale keyed
  have hasChildren : children ≠ [] := by
    intro none
    rw [none, waiting, List.map_nil, eq_comm, List.map_eq_nil_iff] at shown
    exact hasSubs shown
  rw [node]
  refine ⟨hasChildren, nodeKey, rfl, ?_⟩
  refine
    { shown := rfl
      once := fun _ => nodeKey ▸ isNew
      children := fun _ => ⟨rfl, waiting ▸ shown⟩
      childless := fun none => absurd none hasChildren
      cycle := ?_
      repeated := ?_
      truncated := ?_ }
  · exact iff_of_false Bool.false_ne_true fun onPath => notCycle (nodeKey ▸ onPath)
  · exact iff_of_false Bool.false_ne_true fun again => isNew (nodeKey ▸ again.2.2)
  · exact iff_of_false Bool.false_ne_true fun cut => Nat.ne_of_lt below cut.2.2.2

/-- The keys on a path belong to records with subs. -/
def Parents (catalog : Catalog) (path : List Key) : Prop :=
  ∀ record ∈ catalog.records, ∀ key ∈ path,
    record.key? = some key → catalog.resolveAll record.subs ≠ []

/-- A record whose subs are visited can stand on the path to them. -/
theorem Parents.cons
    (closed : catalog.Closed)
    {path : List Key}
    {activity : Activity}
    {key : Key}
    (parents : Parents catalog path)
    (member : activity ∈ catalog.records)
    (keyed : activity.key? = some key)
    (hasSubs : catalog.resolveAll activity.subs ≠ []) :
    Parents catalog (key :: path) := by
  intro record recordMember other onPath recordKeyed
  rcases List.mem_cons.mp onPath with isKey | above
  · have same : record = activity :=
      closed.eq_of_key?_eq recordMember member (by rw [recordKeyed, keyed, isKey])
    rw [same]
    exact hasSubs
  · exact parents record recordMember other above recordKeyed

/--
Nodes on a path show some records, are faithful to the catalog, and what is noted as
expanded after them are the keys of those with children among them and below them.
-/
structure Shows (catalog : Catalog) (locale : String) (limit : Nat)
    (path expanded : List Key) (activities : List Activity) (nodes : List NavNode)
    (final : List Key) : Prop where
  shown : nodes.map NavNode.bare = activities.map fun activity => NavNode.leaf activity locale
  noted : final = expandedKeys (NavNode.positionsAll path nodes) ++ expanded
  faithful : Faithful catalog locale limit expanded (NavNode.positionsAll path nodes)

/-- What shows some records goes before what shows others. -/
theorem Shows.append
    {path expanded noted final : List Key}
    {activities rest : List Activity}
    {nodes more : List NavNode}
    (first : Shows catalog locale limit path expanded activities nodes noted)
    (later : Shows catalog locale limit path noted rest more final) :
    Shows catalog locale limit path expanded (activities ++ rest) (nodes ++ more) final := by
  have split :
      NavNode.positionsAll path (nodes ++ more) =
        NavNode.positionsAll path nodes ++ NavNode.positionsAll path more :=
    NavNode.positionsAll_append path nodes more
  refine ⟨?_, ?_, ?_⟩
  · rw [List.map_append, List.map_append, first.shown, later.shown]
  · rw [split, expandedKeys_append, List.append_assoc, ← first.noted]
    exact later.noted
  · rw [split, Faithful.append_iff, ← first.noted]
    exact ⟨first.faithful, later.faithful⟩

/-- A leaf shows its record. -/
theorem Shows.leaf
    {path expanded noted : List Key}
    {activity : Activity}
    {node : NavNode}
    {key : Key}
    (member : activity ∈ catalog.records)
    (keyed : activity.key? = some key)
    (parents : Parents catalog path)
    (reached : path.length ≤ limit)
    (visited :
      catalog.visit locale limit activity path.length path.contains expanded =
        (.leaf node, noted)) :
    Shows catalog locale limit path expanded [activity] [node] noted := by
  obtain ⟨rfl, bare, childless, nodeKey, truthful⟩ :=
    truthful_of_leaf keyed (fun onPath => parents activity member key onPath keyed) reached
      visited
  have alone : NavNode.positionsAll path [node] = [⟨path, node⟩] := by
    rw [NavNode.positionsAll_singleton, NavNode.positions_eq, childless, NavNode.positionsAll]
  refine ⟨?_, ?_, ?_⟩
  · rw [List.map_singleton, List.map_singleton, bare]
  · rw [alone, expandedKeys_of_childless childless, List.nil_append]
  · rw [alone, Faithful, Faithful]
    exact ⟨⟨activity, member, nodeKey ▸ keyed, truthful⟩, trivial⟩

/-- A node shows its record if its children show those that waited in its frame. -/
theorem Shows.expand
    {path expanded noted grown : List Key}
    {activity : Activity}
    {frame : Frame}
    {children : List NavNode}
    (member : activity ∈ catalog.records)
    (visited :
      catalog.visit locale limit activity path.length path.contains expanded =
        (.expand frame, noted))
    (below :
      Shows catalog locale limit (frame.key :: path) noted frame.waiting children grown) :
    Shows catalog locale limit path expanded [activity] [{ frame.node with children }] grown := by
  obtain ⟨keyed, -, -, -, -, -, rfl⟩ := Catalog.of_visit_expand visited
  obtain ⟨hasChildren, nodeKey, bare, truthful⟩ := truthful_of_expand visited below.shown
  have preorder :
      NavNode.positionsAll path [{ frame.node with children }] =
        ⟨path, { frame.node with children }⟩ ::
          NavNode.positionsAll (frame.key :: path) children := by
    rw [NavNode.positionsAll_singleton, NavNode.positions_eq, nodeKey]
  have nodeExpanded :
      expandedKeys [⟨path, { frame.node with children }⟩] = [frame.key] := by
    rw [expandedKeys_of_expanded hasChildren, nodeKey]
  refine ⟨?_, ?_, ?_⟩
  · rw [List.map_singleton, List.map_singleton, bare]
  · rw [preorder, expandedKeys_cons, nodeExpanded, List.append_assoc, List.singleton_append]
    exact below.noted
  · rw [preorder, Faithful, nodeExpanded]
    exact ⟨⟨activity, member, nodeKey ▸ keyed, truthful⟩, below.faithful⟩

/-- What records of a closed catalog grow into shows them. -/
theorem Grows.shows
    (closed : catalog.Closed)
    {path expanded final : List Key}
    {activities : List Activity}
    {nodes : List NavNode}
    (grows : Grows catalog locale limit path expanded activities nodes final)
    (members : ∀ activity ∈ activities, activity ∈ catalog.records)
    (parents : Parents catalog path)
    (reached : path.length ≤ limit) :
    Shows catalog locale limit path expanded activities nodes final := by
  induction grows with
  | done path expanded =>
      exact ⟨rfl, rfl, trivial⟩
  | leaf visited _ inductionHypothesis =>
      obtain ⟨member, restMembers⟩ := List.forall_mem_cons.mp members
      obtain ⟨entry, -, -, keyed⟩ := closed.exists_entry member
      have first := Shows.leaf member keyed parents reached visited
      exact first.append (inductionHypothesis restMembers parents reached)
  | @expand path expanded noted grown final activity rest frame children nodes visited _ _
      childrenHypothesis restHypothesis =>
      obtain ⟨member, restMembers⟩ := List.forall_mem_cons.mp members
      obtain ⟨keyed, -, hasSubs, -, above, shape, -⟩ := Catalog.of_visit_expand visited
      have subMembers : ∀ sub ∈ frame.waiting, sub ∈ catalog.records := by
        intro sub waits
        rw [shape] at waits
        have stands : sub ∈ catalog.resolveAll (activity.linked .down) := waits
        exact closed.mem_records_of_mem_resolveAll member stands
      have below :=
        childrenHypothesis subMembers (parents.cons closed member keyed hasSubs) above
      have first := Shows.expand member visited below
      exact first.append (restHypothesis restMembers parents reached)

end Visits

namespace Catalog

/-- The navigation tree of a record shows the record and is faithful to the catalog. -/
theorem Closed.navTree_faithful
    {catalog : Catalog}
    (closed : catalog.Closed)
    {root : Activity}
    (member : root ∈ catalog.records)
    (locale : String)
    (limit : Nat) :
    (catalog.navTree root locale limit).bare = NavNode.leaf root locale ∧
      Faithful catalog locale limit [] ((catalog.navTree root locale limit).positions []) := by
  obtain ⟨nodes, final, grows⟩ := exists_grows catalog locale limit [] [] [root]
  have isRoot : ∀ activity ∈ [root], activity ∈ catalog.records := by
    simpa using member
  have noParents : Parents catalog [] := by
    intro record _ key onPath
    cases onPath
  have shows := grows.shows closed isRoot noParents (Nat.zero_le limit)
  rw [navTree_of_grows grows] at shows
  have faithful := shows.faithful
  rw [NavNode.positionsAll_singleton] at faithful
  exact ⟨List.head_eq_of_cons_eq shows.shown, faithful⟩

/--
In the navigation tree of a record of a built catalog no key is expanded twice, and
every node shows the record that the catalog has under the node's key.  A node with
children has no mark and shows the subs of its record; a node without them has one
mark if its record has subs and none otherwise; and each mark says what it means.
-/
theorem navTree_truthful
    {listing : Listing}
    {catalog : Catalog}
    {root : Activity}
    (built : build listing = .ok catalog)
    (member : root ∈ catalog.records)
    (locale : String)
    (limit : Nat) :
    (catalog.navTree root locale limit).bare = NavNode.leaf root locale ∧
      (expandedKeys ((catalog.navTree root locale limit).positions [])).Nodup ∧
      ∀ before position after,
        (catalog.navTree root locale limit).positions [] = before ++ position :: after →
          ∃ record,
            catalog.get? position.node.key.id (some position.node.key.version) = some record ∧
              position.Truthful catalog locale limit (expandedKeys before) record := by
  have closed := closed_of_build built
  obtain ⟨shown, faithful⟩ := closed.navTree_faithful member locale limit
  have nodup := faithful.expandedKeys_nodup List.nodup_nil
  rw [List.append_nil] at nodup
  refine ⟨shown, nodup, ?_⟩
  intro before position after split
  rw [split] at faithful
  obtain ⟨record, recordMember, keyed, truthful⟩ := faithful.exists_record
  rw [List.append_nil] at truthful
  exact ⟨record, closed.get?_of_key? recordMember keyed, truthful⟩

/-- The navigation tree of the trip, to which the hotel leads back. -/
def tripTree : NavNode :=
  { NavNode.leaf trip "en" with
    children :=
      [ { NavNode.leaf hotel "en" with
          children := [{ NavNode.leaf trip "en" with cycle := true }] },
        { NavNode.leaf day "en" with
          children := [{ NavNode.leaf hotel "en" with repeated := true }] } ] }

theorem navTree_trip : tripCatalog.navTree trip "en" 8 = tripTree := by
  have tripOpens :
      tripCatalog.visit "en" 8 trip 0 [].contains [] =
        (.expand ⟨.leaf trip "en", ⟨"trip", "1"⟩, [hotel, day]⟩, [⟨"trip", "1"⟩]) :=
    rfl
  have hotelOpens :
      tripCatalog.visit "en" 8 hotel 1 [⟨"trip", "1"⟩].contains [⟨"trip", "1"⟩] =
        (.expand ⟨.leaf hotel "en", ⟨"hotel", "1"⟩, [trip]⟩,
          [⟨"hotel", "1"⟩, ⟨"trip", "1"⟩]) :=
    rfl
  have dayOpens :
      tripCatalog.visit "en" 8 day 1 [⟨"trip", "1"⟩].contains
          [⟨"hotel", "1"⟩, ⟨"trip", "1"⟩] =
        (.expand ⟨.leaf day "en", ⟨"day", "1"⟩, [hotel]⟩,
          [⟨"day", "1"⟩, ⟨"hotel", "1"⟩, ⟨"trip", "1"⟩]) :=
    rfl
  have dayGrows :
      Grows tripCatalog "en" 8 [⟨"trip", "1"⟩] [⟨"hotel", "1"⟩, ⟨"trip", "1"⟩] [day] _
        [⟨"day", "1"⟩, ⟨"hotel", "1"⟩, ⟨"trip", "1"⟩] :=
    .expand dayOpens (.leaf rfl (.done _ _)) (.done _ _)
  have subsGrow :
      Grows tripCatalog "en" 8 [⟨"trip", "1"⟩] [⟨"trip", "1"⟩] [hotel, day] _
        [⟨"day", "1"⟩, ⟨"hotel", "1"⟩, ⟨"trip", "1"⟩] :=
    .expand hotelOpens (.leaf rfl (.done _ _)) dayGrows
  have tripGrows :
      Grows tripCatalog "en" 8 [] [] [trip] _
        [⟨"day", "1"⟩, ⟨"hotel", "1"⟩, ⟨"trip", "1"⟩] :=
    .expand tripOpens subsGrow (.done _ _)
  exact (List.head_eq_of_cons_eq (navTree_of_grows tripGrows)).symm

/-- In the tree of the trip the hotel is marked below the day: it was expanded before. -/
theorem navTree_truthful_trip :
    build tripListing = .ok tripCatalog ∧
      trip ∈ tripCatalog.records ∧
      (expandedKeys ((tripCatalog.navTree trip "en" 8).positions [])).Nodup ∧
      ∃ before record,
        (tripCatalog.navTree trip "en" 8).positions [] =
          before ++
            [⟨[⟨"day", "1"⟩, ⟨"trip", "1"⟩],
              { NavNode.leaf hotel "en" with repeated := true }⟩] ∧
          tripCatalog.get? "hotel" (some "1") = some record ∧
          tripCatalog.resolveAll record.subs ≠ [] ∧
          ⟨"hotel", "1"⟩ ∈ expandedKeys before := by
  have member : trip ∈ tripCatalog.records :=
    List.mem_cons_self
  obtain ⟨-, nodup, truthful⟩ := navTree_truthful build_tripListing member "en" 8
  have split :
      (tripCatalog.navTree trip "en" 8).positions [] =
        ((tripCatalog.navTree trip "en" 8).positions []).take 4 ++
          [⟨[⟨"day", "1"⟩, ⟨"trip", "1"⟩],
            { NavNode.leaf hotel "en" with repeated := true }⟩] := by
    rw [navTree_trip]
    rfl
  obtain ⟨record, found, told⟩ := truthful _ _ [] split
  obtain ⟨-, hasSubs, again⟩ := told.repeated.mp rfl
  exact ⟨build_tripListing, member, nodup, _, record, split, found, hasSubs, again⟩

end Catalog

end ActivityCatalog
