import ActivityCatalog.Activity.Embedded

namespace ActivityCatalog.Activity

/-!
# The levels of embedded records

The records linked from a list of records are met level by level: first the
subs and then the supers of each record of a level, in listed order.  A record
without a key is passed over together with everything below it.

A level weighs more than the next one, so that a list of records has no more
levels than it weighs.  Together its levels are closed: what a record of the list
or of a level links to stands on a level, if it has a key.  So the levels hold just
the records that links lead to, by way of records that all have keys.
-/

/-- The records with a key that a level links to. -/
def nextLevel (level : List Activity) : List Activity :=
  (level.flatMap links).filter hasKey

/-- The levels below a level, at most a number of them, one after another. -/
def levelsBelow : Nat → List Activity → List Activity
  | 0, _ =>
      []
  | budget + 1, level =>
      nextLevel level ++ levelsBelow budget (nextLevel level)

/-- All records embedded in a list of records, level by level. -/
def embedded (activities : List Activity) : List Activity :=
  levelsBelow (weightAll activities) activities

/-- A list of records weighs one for each of them more than what they link to. -/
theorem weightAll_eq (level : List Activity) :
    weightAll level = weightAll (level.flatMap links) + level.length := by
  induction level with
  | nil =>
      rfl
  | cons activity rest inductionHypothesis =>
      simp only [weightAll, List.flatMap_cons, weightAll_append, List.length_cons, weight_eq]
      omega

theorem weightAll_filter_le (keep : Activity → Bool) (level : List Activity) :
    weightAll (level.filter keep) ≤ weightAll level := by
  induction level with
  | nil =>
      simp
  | cons activity rest inductionHypothesis =>
      by_cases kept : keep activity
      · simp only [List.filter_cons, kept, ↓reduceIte, weightAll]
        omega
      · simp only [List.filter_cons, kept, Bool.false_eq_true, ↓reduceIte, weightAll]
        omega

/-- The next level weighs less than a level with a record. -/
theorem weightAll_nextLevel_le (level : List Activity) :
    weightAll (nextLevel level) ≤ weightAll level - level.length := by
  have filtered :
      weightAll (nextLevel level) ≤ weightAll (level.flatMap links) :=
    weightAll_filter_le hasKey (level.flatMap links)
  have levelWeight := weightAll_eq level
  omega

theorem levelsBelow_nil (budget : Nat) : levelsBelow budget [] = [] := by
  induction budget with
  | zero =>
      rfl
  | succ budget inductionHypothesis =>
      exact inductionHypothesis

/-- A budget that lets one more level follow is enough for the next level. -/
theorem weightAll_nextLevel_le_of_le_succ
    {level : List Activity}
    {budget : Nat}
    (enough : weightAll level ≤ budget + 1) :
    weightAll (nextLevel level) ≤ budget := by
  have lighter := weightAll_nextLevel_le level
  cases level with
  | nil =>
      simp [nextLevel, weightAll]
  | cons activity rest =>
      simp only [List.length_cons] at lighter
      omega

theorem eq_nil_of_weightAll_le_zero
    {level : List Activity}
    (weightless : weightAll level ≤ 0) :
    level = [] := by
  have levelWeight := weightAll_eq level
  exact List.length_eq_zero_iff.mp (by omega)

/-- What a record of a level links to is on the next level, if it has a key. -/
theorem mem_nextLevel
    {level : List Activity}
    {link : Activity} :
    link ∈ nextLevel level ↔
      (∃ activity ∈ level, link ∈ activity.links) ∧ link.hasKey := by
  simp [nextLevel]

/-- More levels than a list of records weighs add nothing. -/
theorem levelsBelow_eq_of_enough
    {budget other : Nat}
    {level : List Activity}
    (enough : weightAll level ≤ budget)
    (alsoEnough : weightAll level ≤ other) :
    levelsBelow budget level = levelsBelow other level := by
  induction budget generalizing other level with
  | zero =>
      rw [eq_nil_of_weightAll_le_zero enough]
      exact (levelsBelow_nil other).symm
  | succ budget inductionHypothesis =>
      cases other with
      | zero =>
          rw [eq_nil_of_weightAll_le_zero alsoEnough]
          exact levelsBelow_nil (budget + 1)
      | succ other =>
          rw [levelsBelow, levelsBelow,
            inductionHypothesis (weightAll_nextLevel_le_of_le_succ enough)
              (weightAll_nextLevel_le_of_le_succ alsoEnough)]

/-- The embedded records are those of the next level and those embedded in it. -/
theorem embedded_eq (activities : List Activity) :
    embedded activities = nextLevel activities ++ embedded (nextLevel activities) := by
  have enough : weightAll activities ≤ weightAll activities + 1 :=
    Nat.le_succ _
  have nextEnough : weightAll (nextLevel activities) ≤ weightAll activities :=
    weightAll_nextLevel_le_of_le_succ enough
  rw [embedded, levelsBelow_eq_of_enough (Nat.le_refl _) enough, levelsBelow, embedded,
    levelsBelow_eq_of_enough nextEnough (Nat.le_refl _)]

/-- The levels below a level are closed under links to records with a key. -/
theorem mem_levelsBelow_of_mem_links
    {budget : Nat}
    {level : List Activity}
    {activity link : Activity}
    (enough : weightAll level ≤ budget)
    (member : activity ∈ level ++ levelsBelow budget level)
    (linked : link ∈ activity.links)
    (hasKey : link.hasKey) :
    link ∈ levelsBelow budget level := by
  induction budget generalizing level with
  | zero =>
      rw [eq_nil_of_weightAll_le_zero enough] at member
      simp [levelsBelow] at member
  | succ budget inductionHypothesis =>
      rw [levelsBelow]
      rcases List.mem_append.mp member with onLevel | below
      · exact List.mem_append_left _
          (mem_nextLevel.mpr ⟨⟨activity, onLevel, linked⟩, hasKey⟩)
      · exact List.mem_append_right _
          (inductionHypothesis (weightAll_nextLevel_le_of_le_succ enough) below)

/-- What a listed or an embedded record links to is embedded, if it has a key. -/
theorem mem_embedded_of_mem_links
    {activities : List Activity}
    {activity link : Activity}
    (member : activity ∈ activities ++ embedded activities)
    (linked : link ∈ activity.links)
    (hasKey : link.hasKey) :
    link ∈ embedded activities :=
  mem_levelsBelow_of_mem_links (Nat.le_refl _) member linked hasKey

theorem nextLevel_append (first second : List Activity) :
    nextLevel (first ++ second) = nextLevel first ++ nextLevel second := by
  simp only [nextLevel, List.flatMap_append, List.filter_append]

/-- Links lead from a record of a list to a record, by way of records that all have keys. -/
inductive IsEmbedded (activities : List Activity) : Activity → Prop where
  | linked
      {activity link : Activity}
      (isListed : activity ∈ activities)
      (isLink : link ∈ activity.links)
      (hasKey : link.hasKey) :
      IsEmbedded activities link
  | deeper
      {activity link : Activity}
      (isEmbedded : IsEmbedded activities activity)
      (isLink : link ∈ activity.links)
      (hasKey : link.hasKey) :
      IsEmbedded activities link

section IsEmbedded

variable
  {activities first second : List Activity}
  {activity : Activity}

theorem IsEmbedded.hasKey (isEmbedded : IsEmbedded activities activity) : activity.hasKey := by
  cases isEmbedded with
  | linked _ _ hasKey => exact hasKey
  | deeper _ _ hasKey => exact hasKey

theorem isEmbedded_of_mem_levelsBelow
    {budget : Nat}
    {level : List Activity}
    (onLevel : ∀ source ∈ level, source ∈ activities ∨ IsEmbedded activities source)
    (member : activity ∈ levelsBelow budget level) :
    IsEmbedded activities activity := by
  induction budget generalizing level with
  | zero =>
      cases member
  | succ budget inductionHypothesis =>
      have next : ∀ link ∈ nextLevel level, IsEmbedded activities link := by
        intro link isNext
        obtain ⟨⟨source, isSource, isLink⟩, hasKey⟩ := mem_nextLevel.mp isNext
        rcases onLevel source isSource with isListed | isEmbedded
        · exact .linked isListed isLink hasKey
        · exact .deeper isEmbedded isLink hasKey
      rcases List.mem_append.mp member with isNext | isBelow
      · exact next activity isNext
      · exact inductionHypothesis (fun link isNext => .inr (next link isNext)) isBelow

/-- The levels hold the records that links lead to, and no others. -/
theorem mem_embedded : activity ∈ embedded activities ↔ IsEmbedded activities activity := by
  constructor
  · exact isEmbedded_of_mem_levelsBelow fun _ isListed => .inl isListed
  · intro isEmbedded
    induction isEmbedded with
    | linked isListed isLink hasKey =>
        exact mem_embedded_of_mem_links (List.mem_append_left _ isListed) isLink hasKey
    | deeper _ isLink hasKey inductionHypothesis =>
        exact mem_embedded_of_mem_links (List.mem_append_right _ inductionHypothesis) isLink hasKey

theorem IsEmbedded.of_subset
    (subset : first ⊆ second)
    (isEmbedded : IsEmbedded first activity) :
    IsEmbedded second activity := by
  induction isEmbedded with
  | linked isListed isLink hasKey => exact .linked (subset isListed) isLink hasKey
  | deeper _ isLink hasKey inductionHypothesis => exact .deeper inductionHypothesis isLink hasKey

/-- What two lists of records embed together, one of them embeds. -/
theorem IsEmbedded.of_append
    (isEmbedded : IsEmbedded (first ++ second) activity) :
    IsEmbedded first activity ∨ IsEmbedded second activity := by
  induction isEmbedded with
  | linked isListed isLink hasKey =>
      rcases List.mem_append.mp isListed with inFirst | inSecond
      · exact .inl (.linked inFirst isLink hasKey)
      · exact .inr (.linked inSecond isLink hasKey)
  | deeper _ isLink hasKey inductionHypothesis =>
      rcases inductionHypothesis with inFirst | inSecond
      · exact .inl (.deeper inFirst isLink hasKey)
      · exact .inr (.deeper inSecond isLink hasKey)

end IsEmbedded

theorem nextLevel_subset
    {first second : List Activity}
    (subset : first ⊆ second) :
    nextLevel first ⊆ nextLevel second := by
  intro link isLink
  obtain ⟨⟨source, isSource, isLinked⟩, hasKey⟩ := mem_nextLevel.mp isLink
  exact mem_nextLevel.mpr ⟨⟨source, subset isSource, isLinked⟩, hasKey⟩

end ActivityCatalog.Activity
