import ActivityCatalog.Proofs.Catalog.Walk

namespace ActivityCatalog

/-!
# Walks find what can be reached, at its distance

`Traversal.Frontier` says what holds at every state of a walk: the records given
out and those that wait have different keys, stand at the end of a chain as long
as their depth says, are ordered by depth, and leave out nothing that a record
given out links to.

In a closed catalog a walk therefore ends, and what it has given out then is
exactly what a chain of links leads to, at the length of the shortest chain.
-/

namespace Traversal

/--
What holds at every state of a walk, over the records given out and those that
wait.  The start counts as the first record given out, at depth zero.
-/
structure Frontier (first : Activity) (given : List (Nat × Activity))
    (walk : Traversal) : Prop where
  closed : walk.catalog.Closed
  indexed : first ∈ walk.catalog.records
  origin : (given ++ walk.queue).head? = some (0, first)
  met : ∀ key, key ∈ walk.seen ↔ some key ∈ (given ++ walk.queue).map itemKey?
  keysNodup : ((given ++ walk.queue).map itemKey?).Nodup
  chained :
    ∀ item ∈ given ++ walk.queue,
      walk.catalog.Chain walk.direction first item.1 item.2
  within :
    ∀ item ∈ given ++ walk.queue, ∀ bound, walk.limit = some bound → item.1 ≤ bound
  ordered : (given ++ walk.queue).Pairwise fun earlier later => earlier.1 ≤ later.1
  near : ∀ earlier ∈ walk.queue, ∀ later ∈ walk.queue, later.1 ≤ earlier.1 + 1
  expanded :
    ∀ item ∈ given, walk.isLimit item.1 = false →
      ∀ target, walk.catalog.LinksTo walk.direction item.2 target →
        ∃ other ∈ given ++ walk.queue, other.2 = target ∧ other.1 ≤ item.1 + 1

namespace Frontier

variable {first : Activity} {given : List (Nat × Activity)} {walk : Traversal}

/-- What a walk has come to is a record of the catalog. -/
theorem mem_records
    (frontier : Frontier first given walk)
    {item : Nat × Activity}
    (member : item ∈ given ++ walk.queue) :
    item.2 ∈ walk.catalog.records :=
  frontier.closed.mem_records_of_chain frontier.indexed (frontier.chained item member)

/-- A walk never comes to more records than the catalog has. -/
theorem length_le
    (frontier : Frontier first given walk) :
    (given ++ walk.queue).length ≤ walk.catalog.size := by
  have included :
      (given ++ walk.queue).map itemKey? ⊆ walk.catalog.records.map Activity.key? := by
    intro key occurs
    obtain ⟨item, member, rfl⟩ := List.mem_map.mp occurs
    exact List.mem_map_of_mem (frontier.mem_records member)
  have bounded := (frontier.keysNodup.subperm included).length_le
  simpa [Catalog.records, Catalog.size, frontier.closed.count] using bounded

/-- The state after a record was given out has come to the newcomers as well. -/
theorem visited_after
    {depth : Nat}
    {activity : Activity}
    {rest : List (Nat × Activity)}
    (waiting : walk.queue = (depth, activity) :: rest) :
    given ++ [(depth, activity)] ++ (walk.after rest depth activity).queue =
      given ++ walk.queue ++ (walk.newcomers depth activity).map (depth + 1, ·) := by
  simp [after, waiting]

/-- No key occurs twice among what the state has come to and the newcomers. -/
theorem keysNodup_after
    (frontier : Frontier first given walk)
    (depth : Nat)
    (activity : Activity) :
    ((given ++ walk.queue ++ (walk.newcomers depth activity).map (depth + 1, ·)).map
      itemKey?).Nodup := by
  rw [List.map_append, List.nodup_append]
  refine ⟨frontier.keysNodup, ?_, ?_⟩
  · rw [List.map_map]
    exact newcomers_keysNodup walk depth activity
  · intro oldKey old newKey new same
    subst same
    obtain ⟨item, newcomer, rfl⟩ := List.mem_map.mp new
    obtain ⟨record, member, rfl⟩ := List.mem_map.mp newcomer
    obtain ⟨-, -, key, keyed, notMet⟩ := of_mem_newcomers member
    rw [itemKey?, keyed] at old
    exact notMet ((frontier.met key).mpr old)

/-- The keys met after a step are those of what the state has come to then. -/
theorem met_after
    (frontier : Frontier first given walk)
    (rest : List (Nat × Activity))
    (depth : Nat)
    (activity : Activity)
    (key : Key) :
    key ∈ (walk.after rest depth activity).seen ↔
      some key ∈ (given ++ walk.queue ++
        (walk.newcomers depth activity).map (depth + 1, ·)).map itemKey? := by
  rw [List.map_append, List.mem_append, ← frontier.met key]
  simp [after, itemKey?, or_comm]

/-- A record that a given one links to was met before or is a newcomer. -/
theorem exists_after
    (frontier : Frontier first given walk)
    {depth : Nat}
    {activity target : Activity}
    (member : activity ∈ walk.catalog.records)
    (near : ∀ item ∈ given ++ walk.queue, item.1 ≤ depth + 1)
    (notLimited : walk.isLimit depth = false)
    (linked : walk.catalog.LinksTo walk.direction activity target) :
    ∃ other ∈ given ++ walk.queue ++ (walk.newcomers depth activity).map (depth + 1, ·),
      other.2 = target ∧ other.1 ≤ depth + 1 := by
  have targetMember := frontier.closed.mem_records_of_mem_resolveAll member linked
  obtain ⟨entry, -, -, keyed⟩ := frontier.closed.exists_entry targetMember
  rcases mem_seen_or_newcomers notLimited linked keyed with met | ⟨newcomer, isNew, same⟩
  · obtain ⟨other, visited, otherKey⟩ := List.mem_map.mp ((frontier.met entry.key).mp met)
    refine ⟨other, List.mem_append_left _ visited, ?_, near other visited⟩
    exact frontier.closed.eq_of_key?_eq (frontier.mem_records visited) targetMember
      (by rw [keyed, ← otherKey, itemKey?])
  · have newcomerMember :=
      frontier.closed.mem_records_of_mem_resolveAll member (of_mem_newcomers isNew).2.1
    refine ⟨(depth + 1, newcomer), ?_, ?_, Nat.le_refl _⟩
    · exact List.mem_append_right _ (List.mem_map_of_mem isNew)
    · exact frontier.closed.eq_of_key?_eq newcomerMember targetMember (by rw [same, keyed])

/-- Nothing lies deeper than one below the record that is next. -/
theorem depth_le_succ
    (frontier : Frontier first given walk)
    {next item : Nat × Activity}
    (isNext : walk.queue.head? = some next)
    (visited : item ∈ given ++ walk.queue) :
    item.1 ≤ next.1 + 1 := by
  have waits : next ∈ walk.queue :=
    List.mem_of_head? isNext
  rcases List.mem_append.mp visited with before | later
  · exact Nat.le_succ_of_le
      ((List.pairwise_append.mp frontier.ordered).2.2 item before next waits)
  · exact frontier.near next waits item later

/-- What waits after a record was given out lies at its depth or one below. -/
theorem depth_after
    (frontier : Frontier first given walk)
    {depth : Nat}
    {activity : Activity}
    {rest : List (Nat × Activity)}
    (waiting : walk.queue = (depth, activity) :: rest)
    {item : Nat × Activity}
    (waits : item ∈ (walk.after rest depth activity).queue) :
    depth ≤ item.1 ∧ item.1 ≤ depth + 1 := by
  rcases List.mem_append.mp waits with old | new
  · have queueOrdered := (List.pairwise_append.mp frontier.ordered).2.1
    rw [waiting] at queueOrdered
    refine ⟨List.rel_of_pairwise_cons queueOrdered old, ?_⟩
    exact frontier.near (depth, activity) (by simp [waiting]) item (by simp [waiting, old])
  · obtain ⟨newcomer, -, rfl⟩ := List.mem_map.mp new
    exact ⟨Nat.le_succ depth, Nat.le_refl _⟩

/-- Depths do not decrease towards the newcomers either. -/
theorem ordered_after
    (frontier : Frontier first given walk)
    {next : Nat × Activity}
    (isNext : walk.queue.head? = some next)
    (newcomers : List Activity) :
    (given ++ walk.queue ++ newcomers.map (next.1 + 1, ·)).Pairwise
      fun earlier later => earlier.1 ≤ later.1 := by
  rw [List.pairwise_append]
  refine ⟨frontier.ordered, ?_, ?_⟩
  · rw [List.pairwise_map]
    exact List.pairwise_of_forall fun _ _ => Nat.le_refl _
  · intro earlier old later new
    obtain ⟨newcomer, -, rfl⟩ := List.mem_map.mp new
    exact frontier.depth_le_succ isNext old

/-- A step keeps what holds at every state of a walk. -/
theorem step
    (frontier : Frontier first given walk)
    {item : Nat × Activity}
    {next : Traversal}
    (gives : walk.next? = some (item, next)) :
    Frontier first (given ++ [item]) next := by
  obtain ⟨rest, waiting, rfl⟩ := next?_eq_some.mp gives
  obtain ⟨depth, activity⟩ := item
  have isNext : walk.queue.head? = some (depth, activity) := by
    rw [waiting, List.head?_cons]
  have visited : (depth, activity) ∈ given ++ walk.queue :=
    List.mem_append_right _ (List.mem_of_head? isNext)
  refine
    { closed := frontier.closed
      indexed := frontier.indexed
      origin := ?_
      met := ?_
      keysNodup := ?_
      chained := ?_
      within := ?_
      ordered := ?_
      near := ?_
      expanded := ?_ }
  all_goals simp only [visited_after waiting]
  · rw [List.head?_append, frontier.origin, Option.some_or]
  · exact frontier.met_after rest depth activity
  · exact frontier.keysNodup_after depth activity
  · rw [List.forall_mem_append]
    refine ⟨frontier.chained, ?_⟩
    intro item new
    obtain ⟨newcomer, member, rfl⟩ := List.mem_map.mp new
    exact .link (frontier.chained _ visited) (of_mem_newcomers member).2.1
  · rw [List.forall_mem_append]
    refine ⟨frontier.within, ?_⟩
    intro item new bound limited
    obtain ⟨newcomer, member, rfl⟩ := List.mem_map.mp new
    exact lt_of_isLimit_eq_false (of_mem_newcomers member).1 limited
  · exact frontier.ordered_after isNext (walk.newcomers depth activity)
  · intro earlier earlierWaits later laterWaits
    have earlierFar := (frontier.depth_after waiting earlierWaits).1
    have laterNear := (frontier.depth_after waiting laterWaits).2
    exact Nat.le_trans laterNear (Nat.succ_le_succ earlierFar)
  · intro item member notLimited target linked
    rcases List.mem_append.mp member with before | isItem
    · obtain ⟨other, old, isTarget, bounded⟩ :=
        frontier.expanded item before notLimited target linked
      exact ⟨other, List.mem_append_left _ old, isTarget, bounded⟩
    · obtain rfl := List.mem_singleton.mp isItem
      exact frontier.exists_after (frontier.mem_records visited)
        (fun item => frontier.depth_le_succ isNext) notLimited linked

/-- A walk from a state with these properties ends in one, before it runs out of records. -/
theorem exists_end
    (frontier : Frontier first given walk) :
    ∃ items final,
      Produces walk items final ∧ final.next? = none ∧ Frontier first (given ++ items) final := by
  generalize room : walk.catalog.size - given.length = left
  induction left generalizing given walk with
  | zero =>
      have bounded := frontier.length_le
      have noneWaits : walk.queue = [] := by
        rw [← List.length_eq_zero_iff]
        rw [List.length_append] at bounded
        omega
      exact ⟨[], walk, .done walk, next?_eq_none.mpr noneWaits, by simpa using frontier⟩
  | succ left inductionHypothesis =>
      cases gives : walk.next? with
      | none =>
          exact ⟨[], walk, .done walk, gives, by simpa using frontier⟩
      | some taken =>
          obtain ⟨item, next⟩ := taken
          have sameCatalog : next.catalog = walk.catalog := by
            obtain ⟨rest, -, rfl⟩ := next?_eq_some.mp gives
            rfl
          have smaller : next.catalog.size - (given ++ [item]).length = left := by
            rw [sameCatalog, List.length_append, List.length_singleton]
            omega
          obtain ⟨items, final, produces, ended, holds⟩ :=
            inductionHypothesis (frontier.step gives) smaller
          exact ⟨item :: items, final, .give gives produces, ended, by simpa using holds⟩

/-- When nothing waits, every chain within the limit leads to a record given out. -/
theorem exists_of_chain
    (frontier : Frontier first given walk)
    (ended : walk.next? = none)
    {length : Nat}
    {last : Activity}
    (chain : walk.catalog.Chain walk.direction first length last)
    (within : ∀ bound, walk.limit = some bound → length ≤ bound) :
    ∃ item ∈ given, item.2 = last ∧ item.1 ≤ length := by
  have noneWaits := next?_eq_none.mp ended
  induction chain with
  | start =>
      have isFirst := frontier.origin
      rw [noneWaits, List.append_nil] at isFirst
      exact ⟨(0, first), List.mem_of_head? isFirst, rfl, Nat.le_refl 0⟩
  | link chain linked inductionHypothesis =>
      obtain ⟨item, member, rfl, shorter⟩ :=
        inductionHypothesis fun bound limited => Nat.le_of_succ_le (within bound limited)
      have notLimited : walk.isLimit item.1 = false :=
        isLimit_eq_false fun bound limited =>
          Nat.lt_of_le_of_lt shorter (within bound limited)
      obtain ⟨other, visited, isLast, bounded⟩ :=
        frontier.expanded item member notLimited _ linked
      rw [noneWaits, List.append_nil] at visited
      exact ⟨other, visited, isLast, Nat.le_trans bounded (Nat.succ_le_succ shorter)⟩

/-- When nothing waits, a record given out has the length of the shortest chain as depth. -/
theorem mem_iff_distance
    (frontier : Frontier first given walk)
    (ended : walk.next? = none)
    (depth : Nat)
    (record : Activity) :
    (depth, record) ∈ given ↔
      walk.catalog.Distance walk.direction first record depth ∧
        ∀ bound, walk.limit = some bound → depth ≤ bound := by
  have all : given ++ walk.queue = given := by
    rw [next?_eq_none.mp ended, List.append_nil]
  have atMostOnce : ∀ item ∈ given, ∀ other ∈ given, item.2 = other.2 → item = other := by
    intro item member other otherMember same
    have keysNodup := frontier.keysNodup
    rw [all] at keysNodup
    exact List.inj_on_of_nodup_map keysNodup member otherMember (by rw [itemKey?, same, itemKey?])
  constructor
  · intro member
    have visited : (depth, record) ∈ given ++ walk.queue :=
      List.mem_append_left _ member
    have within := frontier.within _ visited
    refine ⟨⟨frontier.chained _ visited, ?_⟩, within⟩
    intro shorter chain
    by_contra notLe
    have lower : shorter < depth :=
      Nat.lt_of_not_le notLe
    obtain ⟨other, otherMember, same, bounded⟩ :=
      frontier.exists_of_chain ended chain
        fun bound limited => Nat.le_of_lt (Nat.lt_of_lt_of_le lower (within bound limited))
    have equal := atMostOnce other otherMember _ member same
    rw [equal] at bounded
    exact notLe bounded
  · rintro ⟨⟨chain, shortest⟩, within⟩
    obtain ⟨⟨otherDepth, other⟩, member, rfl, bounded⟩ :=
      frontier.exists_of_chain ended chain within
    have visited : (otherDepth, other) ∈ given ++ walk.queue :=
      List.mem_append_left _ member
    have sameDepth : otherDepth = depth :=
      Nat.le_antisymm bounded (shortest otherDepth (frontier.chained _ visited))
    rwa [← sameDepth]

end Frontier

section Start

variable {catalog : Catalog} {first : Activity} {direction : Direction} {limit : Option Nat}

/-- A walk whose first record is the one that it starts from, at depth zero. -/
def before (catalog : Catalog) (first : Activity) (direction : Direction)
    (limit : Option Nat) : Traversal :=
  ⟨catalog, direction, limit, [(0, first)], first.key?.toList⟩

theorem frontier_before
    (closed : catalog.Closed)
    (member : first ∈ catalog.records) :
    Frontier first [] (before catalog first direction limit) := by
  obtain ⟨entry, -, -, keyed⟩ := closed.exists_entry member
  refine
    { closed := closed
      indexed := member
      origin := rfl
      met := ?_
      keysNodup := ?_
      chained := ?_
      within := ?_
      ordered := ?_
      near := ?_
      expanded := ?_ }
  · simp [before, itemKey?, keyed]
  · simp [before]
  · simpa [before] using Catalog.Chain.start
  · simp [before]
  · simp [before]
  · simp [before]
  · simp

/-- The state that a walk starts in has given out the record it starts from. -/
theorem frontier_start
    (closed : catalog.Closed)
    (member : first ∈ catalog.records) :
    Frontier first [(0, first)] (start catalog first direction limit) :=
  (frontier_before closed member).step rfl

/-- A walk in a closed catalog ends, and then what it collected is what it gave out. -/
theorem exists_collected
    (closed : catalog.Closed)
    (member : first ∈ catalog.records)
    (direction : Direction)
    (limit : Option Nat) :
    ∃ items final,
      Produces (start catalog first direction limit) items final ∧
        final.next? = none ∧
        catalog.walk first direction limit = items ∧
        (final.catalog = catalog ∧ final.direction = direction ∧ final.limit = limit) ∧
        Frontier first ((0, first) :: items) final := by
  obtain ⟨items, final, produces, ended, frontier⟩ := (frontier_start closed member).exists_end
  have fromBefore : Produces (before catalog first direction limit) ((0, first) :: items) final :=
    .give rfl produces
  exact ⟨items, final, produces, ended, produces.collect_eq ended [],
    fromBefore.settings_eq, frontier⟩

/-- A walk gives out nothing but records of the catalog. -/
theorem mem_records_of_mem_walk
    (closed : catalog.Closed)
    (member : first ∈ catalog.records)
    {item : Nat × Activity}
    (reached : item ∈ catalog.walk first direction limit) :
    item.2 ∈ catalog.records := by
  obtain ⟨items, final, -, -, rfl, ⟨sameCatalog, -, -⟩, frontier⟩ :=
    exists_collected closed member direction limit
  rw [← sameCatalog]
  exact frontier.mem_records (List.mem_append_left _ (List.mem_cons_of_mem _ reached))

end Start

end Traversal

namespace Catalog

/--
A walk from a record of a built catalog ends, after fewer records than the catalog
has.  It gives out a record at a depth exactly when the record is another one of the
catalog, the shortest chain of links to it has that length, and the limit allows it;
no key comes twice, and depths never decrease.
-/
theorem walk_reaches
    {listing : Listing}
    {catalog : Catalog}
    {first : Activity}
    (built : build listing = .ok catalog)
    (member : first ∈ catalog.records)
    (direction : Direction)
    (limit : Option Nat) :
    ∃ items final,
      Traversal.Produces (.start catalog first direction limit) items final ∧
        final.next? = none ∧
        items.length ≤ catalog.size - 1 ∧
        catalog.walk first direction limit = items ∧
        (∀ depth record,
          (depth, record) ∈ items ↔
            record ∈ catalog.records ∧
              record.key? ≠ first.key? ∧
              catalog.Distance direction first record depth ∧
              ∀ bound, limit = some bound → depth ≤ bound) ∧
        (items.map fun item => item.2.key?).Nodup ∧
        (items.map Prod.fst).Pairwise (· ≤ ·) := by
  have closed := closed_of_build built
  obtain ⟨items, final, produces, ended, collected, ⟨sameCatalog, sameDirection, sameLimit⟩,
      frontier⟩ :=
    Traversal.exists_collected closed member direction limit
  have keysNodup := (List.nodup_append.mp (List.map_append ▸ frontier.keysNodup)).1
  have ordered := (List.pairwise_append.mp frontier.ordered).1
  obtain ⟨firstNotAgain, itemsNodup⟩ := List.nodup_cons.mp keysNodup
  refine ⟨items, final, produces, ended, ?_, collected, ?_, itemsNodup, ?_⟩
  · have bounded := frontier.length_le
    rw [sameCatalog, List.length_append, List.length_cons] at bounded
    omega
  · intro depth record
    have exactly := frontier.mem_iff_distance ended depth record
    rw [sameCatalog, sameDirection, sameLimit] at exactly
    constructor
    · intro isItem
      obtain ⟨distance, within⟩ := exactly.mp (List.mem_cons_of_mem _ isItem)
      refine ⟨closed.mem_records_of_chain member distance.1, ?_, distance, within⟩
      intro sameKey
      exact firstNotAgain (List.mem_map.mpr ⟨(depth, record), isItem, sameKey⟩)
    · rintro ⟨-, otherKey, distance, within⟩
      rcases List.mem_cons.mp (exactly.mpr ⟨distance, within⟩) with isFirst | isItem
      · cases isFirst
        exact absurd rfl otherKey
      · exact isItem
  · rw [List.pairwise_map]
    exact (List.pairwise_cons.mp ordered).2

/-- From the trip the hotel is one link away, although the day leads to it as well. -/
theorem walk_reaches_trip :
    build tripListing = .ok tripCatalog ∧
      trip ∈ tripCatalog.records ∧
      tripCatalog.walk trip .down none = [(1, hotel), (1, day)] ∧
      tripCatalog.Distance .down trip hotel 1 := by
  have member : trip ∈ tripCatalog.records :=
    List.mem_cons_self
  obtain ⟨items, final, -, -, -, collected, exactly, -, -⟩ :=
    walk_reaches build_tripListing member .down none
  have produced :
      Traversal.Produces (.start tripCatalog trip .down none) [(1, hotel), (1, day)]
        ⟨tripCatalog, .down, none, [], [⟨"day", "1"⟩, ⟨"hotel", "1"⟩, ⟨"trip", "1"⟩]⟩ :=
    .give rfl (.give rfl (.done _))
  have walked : tripCatalog.walk trip .down none = [(1, hotel), (1, day)] :=
    produced.collect_eq rfl []
  have isItem : (1, hotel) ∈ items := by
    rw [← collected, walked]
    exact List.mem_cons_self
  exact ⟨build_tripListing, member, walked, ((exactly 1 hotel).mp isItem).2.2.1⟩

end Catalog

end ActivityCatalog
