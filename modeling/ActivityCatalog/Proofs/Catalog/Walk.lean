import ActivityCatalog.Catalog.Walk
import ActivityCatalog.Proofs.Catalog.Closure

namespace ActivityCatalog

/-!
# Chains of links and the steps of a walk

`Catalog.Chain` says that links lead from a record to another, and
`Catalog.Distance` how many it takes at least.  `Traversal.Produces` follows a walk
from one state to a later one; a step lets the newcomers among what the given
record links to wait behind the others, and changes nothing else.
-/

namespace Catalog

/-- A link of one record, in a direction, stands for another. -/
def LinksTo (catalog : Catalog) (direction : Direction) (source target : Activity) : Prop :=
  target ∈ catalog.resolveAll (source.linked direction)

/-- So many links lead, one after another, from a record to another. -/
inductive Chain (catalog : Catalog) (direction : Direction) (first : Activity) :
    Nat → Activity → Prop where
  | start :
      Chain catalog direction first 0 first
  | link
      {length : Nat}
      {middle last : Activity} :
      Chain catalog direction first length middle →
      catalog.LinksTo direction middle last →
      Chain catalog direction first (length + 1) last

/-- The shortest chain of links from a record to another has this length. -/
def Distance (catalog : Catalog) (direction : Direction) (first last : Activity)
    (length : Nat) : Prop :=
  catalog.Chain direction first length last ∧
    ∀ shorter, catalog.Chain direction first shorter last → length ≤ shorter

/-- A chain from a record of a closed catalog leads to a record of the catalog. -/
theorem Closed.mem_records_of_chain
    {catalog : Catalog}
    (closed : catalog.Closed)
    {direction : Direction}
    {first last : Activity}
    {length : Nat}
    (member : first ∈ catalog.records)
    (chain : catalog.Chain direction first length last) :
    last ∈ catalog.records := by
  induction chain with
  | start =>
      exact member
  | link chain linked inductionHypothesis =>
      exact closed.mem_records_of_mem_resolveAll inductionHypothesis linked

end Catalog

namespace Traversal

/-- Depths at which links are still followed lie below the limit. -/
theorem lt_of_isLimit_eq_false
    {walk : Traversal}
    {depth bound : Nat}
    (notLimited : walk.isLimit depth = false)
    (limited : walk.limit = some bound) :
    depth < bound := by
  simpa [isLimit, limited] using notLimited

theorem isLimit_eq_false
    {walk : Traversal}
    {depth : Nat}
    (below : ∀ bound, walk.limit = some bound → depth < bound) :
    walk.isLimit depth = false := by
  unfold isLimit
  split
  · rename_i bound limited
    simpa using below bound limited
  · rfl

/-- The records of a list whose keys were not met before, each key once. -/
def unmet (seen : List Key) : List Activity → List Activity
  | [] =>
      []
  | activity :: rest =>
      match activity.key? with
      | none => unmet seen rest
      | some key =>
          if seen.contains key then
            unmet seen rest
          else
            activity :: unmet (key :: seen) rest

/-- An unmet record is one of the list and has a key that was not met. -/
theorem of_mem_unmet
    {seen : List Key}
    {activities : List Activity}
    {activity : Activity}
    (member : activity ∈ unmet seen activities) :
    activity ∈ activities ∧ ∃ key, activity.key? = some key ∧ key ∉ seen := by
  induction activities generalizing seen with
  | nil =>
      simp [unmet] at member
  | cons head rest inductionHypothesis =>
      unfold unmet at member
      split at member
      · obtain ⟨inRest, fresh⟩ := inductionHypothesis member
        exact ⟨List.mem_cons_of_mem _ inRest, fresh⟩
      · rename_i key keyed
        split at member
        · obtain ⟨inRest, fresh⟩ := inductionHypothesis member
          exact ⟨List.mem_cons_of_mem _ inRest, fresh⟩
        · rename_i isNew
          rcases List.mem_cons.mp member with isHead | later
          · subst isHead
            exact ⟨List.mem_cons_self, key, keyed, by simpa using isNew⟩
          · obtain ⟨inRest, other, otherKeyed, fresh⟩ := inductionHypothesis later
            exact ⟨List.mem_cons_of_mem _ inRest, other, otherKeyed,
              fun met => fresh (List.mem_cons_of_mem _ met)⟩

theorem unmet_keysNodup (seen : List Key) (activities : List Activity) :
    ((unmet seen activities).map Activity.key?).Nodup := by
  induction activities generalizing seen with
  | nil =>
      simp [unmet]
  | cons head rest inductionHypothesis =>
      unfold unmet
      split
      · exact inductionHypothesis seen
      · rename_i key keyed
        split
        · exact inductionHypothesis seen
        · rw [List.map_cons, List.nodup_cons]
          refine ⟨?_, inductionHypothesis (key :: seen)⟩
          intro again
          obtain ⟨other, later, sameKey⟩ := List.mem_map.mp again
          obtain ⟨-, otherKey, otherKeyed, fresh⟩ := of_mem_unmet later
          rw [otherKeyed, keyed, Option.some.injEq] at sameKey
          exact fresh (by simp [sameKey])

/-- Every key of the list was met before or belongs to an unmet record. -/
theorem mem_seen_or_unmet
    (seen : List Key)
    {activities : List Activity}
    {activity : Activity}
    {key : Key}
    (member : activity ∈ activities)
    (keyed : activity.key? = some key) :
    key ∈ seen ∨ ∃ other ∈ unmet seen activities, other.key? = some key := by
  induction activities generalizing seen with
  | nil =>
      simp at member
  | cons head rest inductionHypothesis =>
      unfold unmet
      rcases List.mem_cons.mp member with isHead | inRest
      · subst isHead
        simp only [keyed]
        split
        · rename_i met
          exact .inl (by simpa using met)
        · exact .inr ⟨activity, List.mem_cons_self, keyed⟩
      · split
        · exact inductionHypothesis seen inRest
        · rename_i headKey headKeyed
          split
          · exact inductionHypothesis seen inRest
          · rcases inductionHypothesis (headKey :: seen) inRest with met | ⟨other, later, same⟩
            · rcases List.mem_cons.mp met with isHeadKey | metBefore
              · exact .inr ⟨head, List.mem_cons_self, by rw [headKeyed, isHeadKey]⟩
              · exact .inl metBefore
            · exact .inr ⟨other, List.mem_cons_of_mem _ later, same⟩

/-- Queueing records lets the unmet ones wait, and meets their keys. -/
theorem foldl_enqueue (depth : Nat) (walk : Traversal) (activities : List Activity) :
    activities.foldl (enqueue depth) walk =
      { walk with
        queue := walk.queue ++ (unmet walk.seen activities).map (depth, ·),
        seen := ((unmet walk.seen activities).filterMap Activity.key?).reverse ++ walk.seen } := by
  induction activities generalizing walk with
  | nil =>
      simp [unmet]
  | cons head rest inductionHypothesis =>
      rw [List.foldl_cons, inductionHypothesis, unmet, enqueue]
      cases keyed : head.key? with
      | none =>
          rfl
      | some key =>
          by_cases met : key ∈ walk.seen
          · simp only [List.contains_iff_mem, met, ↓reduceIte]
          · simp [met, keyed]

/-- The records that wait because of a record at a depth. -/
def newcomers (walk : Traversal) (depth : Nat) (activity : Activity) : List Activity :=
  if walk.isLimit depth then
    []
  else
    unmet walk.seen (walk.catalog.resolveAll (activity.linked walk.direction))

/-- A newcomer is a record that the given one links to, and its key is new. -/
theorem of_mem_newcomers
    {walk : Traversal}
    {depth : Nat}
    {activity newcomer : Activity}
    (member : newcomer ∈ walk.newcomers depth activity) :
    walk.isLimit depth = false ∧
      walk.catalog.LinksTo walk.direction activity newcomer ∧
      ∃ key, newcomer.key? = some key ∧ key ∉ walk.seen := by
  unfold newcomers at member
  split at member
  · cases member
  · rename_i notLimited
    obtain ⟨linked, fresh⟩ := of_mem_unmet member
    exact ⟨by simpa using notLimited, linked, fresh⟩

theorem newcomers_keysNodup (walk : Traversal) (depth : Nat) (activity : Activity) :
    ((walk.newcomers depth activity).map Activity.key?).Nodup := by
  unfold newcomers
  split
  · exact List.nodup_nil
  · exact unmet_keysNodup _ _

/-- What a record links to has a key met before, or the key of a newcomer. -/
theorem mem_seen_or_newcomers
    {walk : Traversal}
    {depth : Nat}
    {activity target : Activity}
    {key : Key}
    (notLimited : walk.isLimit depth = false)
    (linked : walk.catalog.LinksTo walk.direction activity target)
    (keyed : target.key? = some key) :
    key ∈ walk.seen ∨ ∃ other ∈ walk.newcomers depth activity, other.key? = some key := by
  rw [newcomers, if_neg (by simp [notLimited])]
  exact mem_seen_or_unmet walk.seen linked keyed

/-- The walk after a record at a depth was given out of the queue. -/
def after (walk : Traversal) (rest : List (Nat × Activity)) (depth : Nat)
    (activity : Activity) : Traversal :=
  { walk with
    queue := rest ++ (walk.newcomers depth activity).map (depth + 1, ·),
    seen := ((walk.newcomers depth activity).filterMap Activity.key?).reverse ++ walk.seen }

/-- What a record at a depth links to waits behind the rest of the queue. -/
theorem expand_eq (walk : Traversal) (rest : List (Nat × Activity)) (depth : Nat)
    (activity : Activity) :
    expand { walk with queue := rest } depth activity = walk.after rest depth activity := by
  unfold expand after newcomers
  by_cases limited : walk.isLimit depth
  · have stillLimited : isLimit { walk with queue := rest } depth :=
      limited
    simp [limited, stillLimited]
  · have notLimited : ¬isLimit { walk with queue := rest } depth :=
      limited
    rw [if_neg notLimited, if_neg limited, foldl_enqueue]

/-- A walk has a next record as long as one waits. -/
theorem next?_eq_some
    {walk next : Traversal}
    {item : Nat × Activity} :
    walk.next? = some (item, next) ↔
      ∃ rest, walk.queue = item :: rest ∧ next = walk.after rest item.1 item.2 := by
  unfold next?
  split
  · rename_i isEmpty
    simp [isEmpty]
  · rename_i depth activity rest waiting
    rw [expand_eq, waiting]
    constructor
    · intro same
      cases same
      exact ⟨rest, rfl, rfl⟩
    · rintro ⟨others, same, rfl⟩
      cases same
      rfl

theorem next?_eq_none
    {walk : Traversal} :
    walk.next? = none ↔ walk.queue = [] := by
  unfold next?
  split
  · rename_i isEmpty
    simp [isEmpty]
  · rename_i depth activity rest waiting
    simp [waiting]

/-- The key of a record that is given out. -/
def itemKey? (item : Nat × Activity) : Option Key :=
  item.2.key?

/-- A walk gives out a list of records on the way from one state to another. -/
inductive Produces : Traversal → List (Nat × Activity) → Traversal → Prop where
  | done (walk : Traversal) :
      Produces walk [] walk
  | give
      {walk next final : Traversal}
      {item : Nat × Activity}
      {items : List (Nat × Activity)} :
      walk.next? = some (item, next) →
      Produces next items final →
      Produces walk (item :: items) final

/-- What a walk gives out until it ends is what is collected of it. -/
theorem Produces.collect_eq
    {walk final : Traversal}
    {items : List (Nat × Activity)}
    (produces : Produces walk items final)
    (ended : final.next? = none)
    (given : List (Nat × Activity)) :
    collect given walk = given.reverse ++ items := by
  induction produces generalizing given with
  | done walk =>
      rw [Traversal.collect_eq, ended, List.append_nil]
  | give gives _ inductionHypothesis =>
      rw [Traversal.collect_eq, gives]
      simp [inductionHypothesis ended]

/-- A walk keeps its catalog, its direction and its limit. -/
theorem Produces.settings_eq
    {walk final : Traversal}
    {items : List (Nat × Activity)}
    (produces : Produces walk items final) :
    final.catalog = walk.catalog ∧ final.direction = walk.direction ∧
      final.limit = walk.limit := by
  induction produces with
  | done walk =>
      exact ⟨rfl, rfl, rfl⟩
  | give gives _ inductionHypothesis =>
      obtain ⟨rest, -, rfl⟩ := next?_eq_some.mp gives
      exact inductionHypothesis

end Traversal

end ActivityCatalog
