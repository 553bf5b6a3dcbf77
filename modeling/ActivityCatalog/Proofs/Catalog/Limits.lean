import ActivityCatalog.Directory
import ActivityCatalog.Proofs.Catalog.Reach

namespace ActivityCatalog

/-!
# A limit cuts off the end of a walk

A walk with a limit follows the walk without one.  As long as records above the limit wait,
both have met the same keys and find the same newcomers; after that the limited walk finds
none, and the other one only such that lie too deep.  So `Traversal.Cut` holds between
the two all along: what waits in the limited walk is what waits in the other one within the
limit.

Depths never decrease along a walk.  What lies within the limit therefore comes first, and in
the same order.
-/

/-- The records of a list that have another key than a record, each key at its first place only. -/
def Activity.othersAmong (first : Activity) (activities : List Activity) : List Activity :=
  (activities.filter fun other => other.key? ≠ first.key?).eraseDupsBy
    fun later earlier => later.key? == earlier.key?

namespace Traversal

/-- In the order of their depths the records within a limit come first. -/
theorem takeWhile_eq_filter
    {items : List (Nat × Activity)}
    (ordered : items.Pairwise fun earlier later => earlier.1 ≤ later.1)
    (bound : Nat) :
    (items.takeWhile fun item => decide (item.1 ≤ bound)) =
      items.filter fun item => decide (item.1 ≤ bound) := by
  induction items with
  | nil =>
      rfl
  | cons item rest inductionHypothesis =>
      obtain ⟨isLeast, restOrdered⟩ := List.pairwise_cons.mp ordered
      by_cases within : item.1 ≤ bound
      · rw [List.takeWhile_cons_of_pos (by simpa using within),
          List.filter_cons_of_pos (by simpa using within), inductionHypothesis restOrdered]
      · rw [List.takeWhile_cons_of_neg (by simpa using within), eq_comm,
          List.filter_eq_nil_iff]
        intro other isItem
        rcases List.mem_cons.mp isItem with rfl | later
        · simpa using within
        · have deeper := isLeast other later
          simp only [decide_eq_true_eq]
          omega

/-- Of records with keys those are unmet that come first among the ones without a met key. -/
theorem unmet_eq
    {seen : List Key}
    {activities : List Activity}
    (keyed : ∀ activity ∈ activities, activity.key? ≠ none) :
    unmet seen activities =
      (activities.filter fun activity => activity.key? ∉ seen.map some).eraseDupsBy
        fun later earlier => later.key? == earlier.key? := by
  induction activities generalizing seen with
  | nil =>
      rfl
  | cons head rest inductionHypothesis =>
      obtain ⟨headKeyed, restKeyed⟩ := List.forall_mem_cons.mp keyed
      obtain ⟨key, isKey⟩ := Option.ne_none_iff_exists'.mp headKeyed
      rw [unmet, isKey, List.filter_cons]
      by_cases met : key ∈ seen
      · simp [isKey, met, inductionHypothesis restKeyed]
      · have laterUnmet :
            (rest.filter fun activity => activity.key? ∉ (key :: seen).map some) =
              (rest.filter fun activity => activity.key? ∉ seen.map some).filter
                fun activity => (activity.key? == head.key?) = false := by
          rw [List.filter_filter]
          refine List.filter_congr fun activity _ => ?_
          simp [isKey]
        have stays : head.key? ∉ seen.map some := by
          simp [isKey, met]
        simp only [stays, not_false_eq_true, decide_true, if_true]
        rw [List.eraseDupsBy_cons, ← laterUnmet, ← inductionHypothesis restKeyed]
        simp [met]

/-- A limited walk beside one without a limit: what waits in it is what lies within the limit. -/
structure Cut (bound : Nat) (whole limited : Traversal) : Prop where
  sameCatalog : limited.catalog = whole.catalog
  sameDirection : limited.direction = whole.direction
  unlimited : whole.limit = none
  isLimited : limited.limit = some bound
  queue : limited.queue = whole.queue.filter fun item => item.1 ≤ bound
  seen : ∀ item ∈ whole.queue, item.1 < bound → limited.seen = whole.seen

/-- At the limit no newcomers are found. -/
theorem newcomers_of_isLimit
    {walk : Traversal}
    {depth : Nat}
    (atLimit : walk.isLimit depth = true)
    (activity : Activity) :
    walk.newcomers depth activity = [] := by
  rw [newcomers, if_pos atLimit]

namespace Cut

variable
  {bound depth : Nat}
  {whole limited next : Traversal}
  {first activity : Activity}
  {given rest : List (Nat × Activity)}
  {item : Nat × Activity}

theorem isLimit_of_le
    (cut : Cut bound whole limited)
    (reached : bound ≤ depth) :
    limited.isLimit depth = true := by
  simpa [isLimit, cut.isLimited] using reached

/-- Above the limit both walks find the same newcomers. -/
theorem newcomers_eq
    (cut : Cut bound whole limited)
    (waits : (depth, activity) ∈ whole.queue)
    (above : depth < bound) :
    limited.newcomers depth activity = whole.newcomers depth activity := by
  have goesOn : limited.isLimit depth = false :=
    isLimit_eq_false fun other isLimit => by
      obtain rfl := Option.some.inj (cut.isLimited.symm.trans isLimit)
      exact above
  have wholeGoesOn : whole.isLimit depth = false :=
    isLimit_eq_false fun other isLimit => by
      rw [cut.unlimited] at isLimit
      cases isLimit
  rw [newcomers, newcomers, goesOn, wholeGoesOn, cut.seen _ waits above, cut.sameCatalog,
    cut.sameDirection]

/-- What the walk without a limit gives out within the limit is given out by the other one. -/
theorem exists_next
    (cut : Cut bound whole limited)
    (frontier : Frontier first given whole)
    (gives : whole.next? = some (item, next))
    (within : item.1 ≤ bound) :
    ∃ limitedNext, limited.next? = some (item, limitedNext) ∧ Cut bound next limitedNext := by
  obtain ⟨rest, waiting, rfl⟩ := next?_eq_some.mp gives
  obtain ⟨depth, activity⟩ := item
  have waits : (depth, activity) ∈ whole.queue := by
    simp [waiting]
  have limitedWaiting : limited.queue =
      (depth, activity) :: rest.filter fun item => item.1 ≤ bound := by
    rw [cut.queue, waiting, List.filter_cons_of_pos (by simpa using within)]
  refine ⟨_, next?_eq_some.mpr ⟨_, limitedWaiting, rfl⟩, ?_⟩
  refine
    { sameCatalog := cut.sameCatalog
      sameDirection := cut.sameDirection
      unlimited := cut.unlimited
      isLimited := cut.isLimited
      queue := ?_
      seen := ?_ }
  all_goals rcases Nat.lt_or_eq_of_le within with above | atLimit
  · have allWithin :
        ∀ newcomer ∈ (whole.newcomers depth activity).map (depth + 1, ·),
          decide (newcomer.1 ≤ bound) = true := by
      simpa using fun _ _ => Nat.succ_le_of_lt above
    simp only [after, List.filter_append, cut.newcomers_eq waits above,
      List.filter_eq_self.mpr allWithin]
  · have tooDeep :
        ∀ newcomer ∈ (whole.newcomers depth activity).map (depth + 1, ·),
          ¬decide (newcomer.1 ≤ bound) = true := by
      simp [← atLimit]
    simp only [after, List.filter_append, newcomers_of_isLimit (cut.isLimit_of_le atLimit.ge),
      List.filter_eq_nil_iff.mpr tooDeep, List.map_nil]
  · intro _ _ _
    simp only [after, cut.newcomers_eq waits above, cut.seen _ waits above]
  · -- Nothing above the limit waits any more, so that the keys met do not matter.
    intro later isLater above
    have notHigher := (frontier.depth_after waiting isLater).1
    exact absurd above (Nat.not_lt_of_le (atLimit ▸ notHigher))

/-- What the walk without a limit gives out beyond the limit changes nothing in the other one. -/
theorem skip
    (cut : Cut bound whole limited)
    (frontier : Frontier first given whole)
    (gives : whole.next? = some (item, next))
    (beyond : bound < item.1) :
    Cut bound next limited := by
  obtain ⟨rest, waiting, rfl⟩ := next?_eq_some.mp gives
  obtain ⟨depth, activity⟩ := item
  have tooDeep :
      ∀ newcomer ∈ (whole.newcomers depth activity).map (depth + 1, ·),
        ¬decide (newcomer.1 ≤ bound) = true := by
    intro newcomer isNew
    obtain ⟨_, -, rfl⟩ := List.mem_map.mp isNew
    simpa using Nat.lt_succ_of_lt beyond
  refine
    { cut with
      queue := ?_
      seen := ?_ }
  · rw [cut.queue, waiting, List.filter_cons_of_neg (by simpa using beyond)]
    simp only [after, List.filter_append, List.filter_eq_nil_iff.mpr tooDeep, List.append_nil]
  · intro later isLater above
    have notHigher := (frontier.depth_after waiting isLater).1
    exact absurd above (Nat.not_lt_of_le (beyond.le.trans notHigher))

/-- A limited walk gives out what the walk without a limit gives out within the limit. -/
theorem exists_produces
    {final : Traversal}
    {items : List (Nat × Activity)}
    (cut : Cut bound whole limited)
    (frontier : Frontier first given whole)
    (produces : Produces whole items final)
    (ended : final.next? = none) :
    ∃ limitedFinal,
      Produces limited (items.filter fun item => item.1 ≤ bound) limitedFinal ∧
        limitedFinal.next? = none := by
  induction produces generalizing limited given with
  | done whole =>
      refine ⟨limited, .done limited, next?_eq_none.mpr ?_⟩
      rw [cut.queue, next?_eq_none.mp ended]
      rfl
  | @give whole next final item items gives _ inductionHypothesis =>
      by_cases within : item.1 ≤ bound
      · obtain ⟨limitedNext, limitedGives, cutNext⟩ := cut.exists_next frontier gives within
        obtain ⟨limitedFinal, produces, limitedEnded⟩ :=
          inductionHypothesis cutNext (frontier.step gives) ended
        rw [List.filter_cons_of_pos (by simpa using within)]
        exact ⟨limitedFinal, .give limitedGives produces, limitedEnded⟩
      · rw [List.filter_cons_of_neg (by simpa using within)]
        exact inductionHypothesis (cut.skip frontier gives (Nat.lt_of_not_le within))
          (frontier.step gives) ended

end Cut

section Start

variable
  {catalog : Catalog}
  {first : Activity}
  {direction : Direction}

/-- A walk starts behind the record that it starts from. -/
theorem start_eq (limit : Option Nat) :
    start catalog first direction limit =
      (before catalog first direction limit).after [] 0 first :=
  expand_eq (before catalog first direction limit) [] 0 first

theorem cut_before (bound : Nat) :
    Cut bound (before catalog first direction none)
      (before catalog first direction (some bound)) where
  sameCatalog := rfl
  sameDirection := rfl
  unlimited := rfl
  isLimited := rfl
  queue := by simp [before]
  seen _ _ _ := rfl

/-- The walks from a record with a limit and without one start side by side. -/
theorem cut_start
    (closed : catalog.Closed)
    (member : first ∈ catalog.records)
    (bound : Nat) :
    Cut bound (start catalog first direction none)
      (start catalog first direction (some bound)) := by
  obtain ⟨next, gives, cut⟩ :=
    (cut_before bound).exists_next (frontier_before closed member) rfl (Nat.zero_le bound)
  cases gives
  exact cut

/-- A walk in which all that waits lies at the limit gives out just that. -/
theorem exists_produces_queue
    {walk : Traversal}
    (atLimit : ∀ item ∈ walk.queue, walk.isLimit item.1 = true) :
    ∃ final, Produces walk walk.queue final ∧ final.next? = none := by
  generalize waiting : walk.queue = items
  induction items generalizing walk with
  | nil =>
      exact ⟨walk, .done walk, next?_eq_none.mpr waiting⟩
  | cons item rest inductionHypothesis =>
      rw [waiting, List.forall_mem_cons] at atLimit
      obtain ⟨isLimit, restLimits⟩ := atLimit
      have queue : (walk.after rest item.1 item.2).queue = rest := by
        simp [after, newcomers_of_isLimit isLimit]
      obtain ⟨final, produces, ended⟩ := inductionHypothesis (queue.symm ▸ restLimits) queue
      exact ⟨final, .give (next?_eq_some.mpr ⟨rest, waiting, rfl⟩) produces, ended⟩

/-- One level deep a walk finds the other records that the links of its start stand for. -/
theorem walk_one
    (closed : catalog.Closed)
    (member : first ∈ catalog.records)
    (direction : Direction) :
    catalog.walk first direction (some 1) =
      (first.othersAmong (catalog.resolveAll (first.linked direction))).map (1, ·) := by
  have keyed : ∀ other ∈ catalog.resolveAll (first.linked direction), other.key? ≠ none := by
    intro other linked
    have isRecord := closed.mem_records_of_mem_resolveAll member linked
    obtain ⟨entry, -, -, isKey⟩ := closed.exists_entry isRecord
    simp [isKey]
  obtain ⟨entry, -, -, isKey⟩ := closed.exists_entry member
  have found :
      (before catalog first direction (some 1)).newcomers 0 first =
        first.othersAmong (catalog.resolveAll (first.linked direction)) := by
    have goesOn : (before catalog first direction (some 1)).isLimit 0 = false := rfl
    have met : (before catalog first direction (some 1)).seen = [entry.key] := by
      simp [before, isKey]
    rw [newcomers, goesOn, if_neg Bool.false_ne_true, met]
    refine (unmet_eq keyed).trans ?_
    simp [Activity.othersAmong, isKey]
  have queue : (start catalog first direction (some 1)).queue =
      (first.othersAmong (catalog.resolveAll (first.linked direction))).map (1, ·) := by
    rw [start_eq, after, found]
    rfl
  have atLimit :
      ∀ item ∈ (start catalog first direction (some 1)).queue,
        (start catalog first direction (some 1)).isLimit item.1 = true := by
    rw [queue]
    intro item waits
    obtain ⟨_, -, rfl⟩ := List.mem_map.mp waits
    rw [start_eq]
    rfl
  obtain ⟨final, produces, ended⟩ := exists_produces_queue atLimit
  exact (produces.collect_eq ended []).trans queue

end Start

end Traversal

namespace Catalog

/--
From a record of a built catalog a walk ends with a limit and without one.  With a limit it gives
out the longest beginning of the other walk in which nothing lies deeper than the limit.  One
level deep these are the records that the links of the start stand for, but for those with its
own key and those with a key that came before; from the latest version of an id they are taken
from the list of its subs or supers.
-/
theorem walk_limited
    {listing : Listing}
    {catalog : Catalog}
    {first : Activity}
    (built : build listing = .ok catalog)
    (member : first ∈ catalog.records)
    (direction : Direction)
    (bound : Nat) :
    (∃ items final limitedFinal,
      Traversal.Produces (.start catalog first direction none) items final ∧
        final.next? = none ∧
        Traversal.Produces (.start catalog first direction (some bound))
          (items.takeWhile fun item => item.1 ≤ bound) limitedFinal ∧
        limitedFinal.next? = none) ∧
      catalog.walk first direction (some bound) =
        (catalog.walk first direction none).takeWhile (fun item => item.1 ≤ bound) ∧
      catalog.walk first direction (some 1) =
        (first.othersAmong (catalog.resolveAll (first.linked direction))).map (1, ·) ∧
      ∀ id links,
        catalog.latest id = .ok first →
          catalog.linkedTo id direction = .ok links →
            catalog.walkFrom id direction (some 1) =
              .ok ((first.othersAmong links).map (1, ·)) := by
  have closed := closed_of_build built
  obtain ⟨items, final, produces, ended, collected, -, frontier⟩ :=
    Traversal.exists_collected closed member direction none
  have ordered : items.Pairwise fun earlier later => earlier.1 ≤ later.1 :=
    (List.pairwise_cons.mp (List.pairwise_append.mp frontier.ordered).1).2
  obtain ⟨limitedFinal, limitedProduces, limitedEnded⟩ :=
    (Traversal.cut_start closed member bound).exists_produces
      (Traversal.frontier_start closed member) produces ended
  rw [← Traversal.takeWhile_eq_filter ordered] at limitedProduces
  have oneLevel := Traversal.walk_one closed member direction
  refine ⟨⟨items, final, limitedFinal, produces, ended, limitedProduces, limitedEnded⟩, ?_,
    oneLevel, ?_⟩
  · rw [collected]
    exact limitedProduces.collect_eq limitedEnded []
  · intro id links isLatest areLinks
    obtain ⟨start, isStart, rfl⟩ := map_eq_ok.mp areLinks
    obtain rfl : start = first := Except.ok.inj (isStart.symm.trans isLatest)
    exact map_eq_ok.mpr ⟨start, isLatest, oneLevel⟩

/-- One level below the hotel is the trip, to which it leads back; the day is two levels below. -/
theorem walk_limited_trip :
    build tripListing = .ok tripCatalog ∧
      hotel ∈ tripCatalog.records ∧
      tripCatalog.walk hotel .down none = [(1, trip), (2, day)] ∧
      tripCatalog.walk hotel .down (some 1) = [(1, trip)] ∧
      tripCatalog.linkedTo "hotel" .down = .ok [trip] ∧
      tripCatalog.walkFrom "hotel" .down (some 1) = .ok [(1, trip)] := by
  have member : hotel ∈ tripCatalog.records :=
    List.mem_cons_of_mem _ List.mem_cons_self
  have produced :
      Traversal.Produces (.start tripCatalog hotel .down none) [(1, trip), (2, day)]
        ⟨tripCatalog, .down, none, [], [⟨"day", "1"⟩, ⟨"trip", "1"⟩, ⟨"hotel", "1"⟩]⟩ :=
    .give rfl (.give rfl (.done _))
  have walked := produced.collect_eq rfl []
  obtain ⟨-, limited, -, fromLatest⟩ := walk_limited build_tripListing member .down 1
  have linked : tripCatalog.linkedTo "hotel" .down = .ok [trip] := rfl
  refine ⟨build_tripListing, member, walked, ?_, linked, fromLatest "hotel" [trip] rfl linked⟩
  rw [limited, walk, walked]
  rfl

end Catalog

end ActivityCatalog
