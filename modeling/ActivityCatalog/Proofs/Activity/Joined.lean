import ActivityCatalog.Proofs.Activity.Embedded
import ActivityCatalog.Proofs.Activity.Same
import ActivityCatalog.Proofs.Stepwise

namespace ActivityCatalog

/-!
# Records joined to others

Records are joined to those that are held by adding them one after another, where each may be
left out that equals one that is there by then.  What the joined records embed is, level by
level, joined in the same way from what the given ones embed: a record that is left out
embeds equals of what the one that stays in its place embeds.

So a run of steps that leave the state as it is for equals of records that came before gives
the same result for the joined records as for the given ones.
-/

namespace Activity

/-- Given records joined to those that are held, and all records that there are then. -/
inductive Joined (held : List Activity) : List Activity → List Activity → Prop where
  | start : Joined held [] held
  | added
      {given all : List Activity}
      (activity : Activity)
      (before : Joined held given all) :
      Joined held (given ++ [activity]) (all ++ [activity])
  | leftOut
      {given all : List Activity}
      {activity stored : Activity}
      (before : Joined held given all)
      (isStored : stored ∈ all)
      (isSame : stored.same activity = true) :
      Joined held (given ++ [activity]) all

namespace Joined

variable
  {held given all : List Activity}

/-- What is held stays first. -/
theorem held_prefix (joined : Joined held given all) : held <+: all := by
  induction joined with
  | start =>
      exact List.prefix_rfl
  | added activity before inductionHypothesis =>
      exact inductionHypothesis.trans (List.prefix_append _ _)
  | leftOut before isStored isSame inductionHypothesis =>
      exact inductionHypothesis

/-- Nothing comes but what was held or given. -/
theorem subset (joined : Joined held given all) : all ⊆ held ++ given := by
  induction joined with
  | start =>
      exact List.subset_append_left _ _
  | added activity before inductionHypothesis =>
      rw [← List.append_assoc]
      exact List.append_subset.mpr
        ⟨List.subset_append_of_subset_left _ inductionHypothesis, List.subset_append_right _ _⟩
  | leftOut before isStored isSame inductionHypothesis =>
      rw [← List.append_assoc]
      exact List.subset_append_of_subset_left _ inductionHypothesis

/-- Whatever was held or given equals something that is there. -/
theorem exists_same (joined : Joined held given all) :
    ∀ activity ∈ held ++ given, ∃ stored ∈ all, stored.same activity = true := by
  induction joined with
  | start =>
      intro activity isHeld
      rw [List.append_nil] at isHeld
      exact ⟨activity, isHeld, same_refl activity⟩
  | added activity before inductionHypothesis =>
      rw [← List.append_assoc]
      refine List.forall_mem_append.mpr ⟨?_, ?_⟩
      · intro earlier isEarlier
        obtain ⟨stored, isStored, isSame⟩ := inductionHypothesis earlier isEarlier
        exact ⟨stored, List.mem_append_left _ isStored, isSame⟩
      · exact List.forall_mem_singleton.mpr
          ⟨activity, List.mem_append_right _ (List.mem_singleton_self activity),
            same_refl activity⟩
  | leftOut before isStored isSame inductionHypothesis =>
      rw [← List.append_assoc]
      exact List.forall_mem_append.mpr
        ⟨inductionHypothesis, List.forall_mem_singleton.mpr ⟨_, isStored, isSame⟩⟩

/-- Joined records have the keys of those that were held or given. -/
theorem mem_keys
    (joined : Joined held given all)
    {key : Option Key} :
    key ∈ all.map key? ↔ key ∈ (held ++ given).map key? := by
  constructor
  · exact fun isKey => List.map_subset key? joined.subset isKey
  · intro isKey
    obtain ⟨activity, isThere, rfl⟩ := List.mem_map.mp isKey
    obtain ⟨stored, isStored, isSame⟩ := joined.exists_same activity isThere
    exact List.mem_map.mpr ⟨stored, isStored, key?_eq_of_same isSame⟩

/-- Records can all be added. -/
theorem addAll (joined : Joined held given all) (more : List Activity) :
    Joined held (given ++ more) (all ++ more) := by
  induction more generalizing given all with
  | nil =>
      rw [List.append_nil, List.append_nil]
      exact joined
  | cons activity rest inductionHypothesis =>
      rw [List.append_cons given, List.append_cons all]
      exact inductionHypothesis (joined.added activity)

/-- Records can all be left out that equal some that are there. -/
theorem leaveAllOut
    (joined : Joined held given all)
    {stored more : List Activity}
    (isStored : stored ⊆ all)
    (sameAll : List.Forall₂ (fun present activity => present.same activity = true) stored more) :
    Joined held (given ++ more) all := by
  induction sameAll generalizing given with
  | nil =>
      rw [List.append_nil]
      exact joined
  | @cons present activity presents activities isSame sameRest inductionHypothesis =>
      obtain ⟨isHeld, areHeld⟩ := List.cons_subset.mp isStored
      rw [List.append_cons]
      exact inductionHypothesis (joined.leftOut isHeld isSame) areHeld

/-- Records joined to none are joined as well behind others. -/
theorem append
    {otherGiven others : List Activity}
    (joined : Joined held given all)
    (otherJoined : Joined [] otherGiven others) :
    Joined held (given ++ otherGiven) (all ++ others) := by
  induction otherJoined with
  | start =>
      rw [List.append_nil, List.append_nil]
      exact joined
  | added activity before inductionHypothesis =>
      rw [← List.append_assoc, ← List.append_assoc]
      exact inductionHypothesis.added activity
  | leftOut before isStored isSame inductionHypothesis =>
      rw [← List.append_assoc]
      exact inductionHypothesis.leftOut (List.mem_append_right _ isStored) isSame

end Joined

/-- Below equal records stand equal records. -/
theorem nextLevel_of_same
    {stored activity : Activity}
    (isSame : stored.same activity = true) :
    List.Forall₂ (fun held other => held.same other = true) (nextLevel [stored])
      (nextLevel [activity]) := by
  rw [nextLevel, nextLevel, List.flatMap_singleton, List.flatMap_singleton]
  refine List.rel_filter ?_ (links_of_same isSame)
  intro held other isSame
  change held.hasKey = true ↔ other.hasKey = true
  unfold hasKey
  rw [key?_eq_of_same isSame]

section Levels

variable
  {given all : List Activity}

/-- The next level of joined records is joined from that of the given ones. -/
theorem Joined.nextLevel (joined : Joined [] given all) :
    Joined [] (nextLevel given) (nextLevel all) := by
  induction joined with
  | start =>
      exact .start
  | added activity before inductionHypothesis =>
      rw [nextLevel_append, nextLevel_append]
      exact inductionHypothesis.addAll _
  | leftOut before isStored isSame inductionHypothesis =>
      rw [nextLevel_append]
      have isHeld := List.cons_subset.mpr ⟨isStored, List.nil_subset _⟩
      exact inductionHypothesis.leaveAllOut (nextLevel_subset isHeld) (nextLevel_of_same isSame)

theorem Joined.levelsBelow (joined : Joined [] given all) (budget : Nat) :
    Joined [] (levelsBelow budget given) (levelsBelow budget all) := by
  induction budget generalizing given all with
  | zero =>
      exact .start
  | succ budget inductionHypothesis =>
      exact joined.nextLevel.append (inductionHypothesis joined.nextLevel)

/-- What joined records embed is joined from what the given ones embed. -/
theorem Joined.embedded (joined : Joined [] given all) :
    Joined [] (embedded given) (embedded all) := by
  have givenEnough : weightAll given ≤ max (weightAll given) (weightAll all) :=
    Nat.le_max_left _ _
  have allEnough : weightAll all ≤ max (weightAll given) (weightAll all) :=
    Nat.le_max_right _ _
  rw [Activity.embedded, Activity.embedded, levelsBelow_eq_of_enough (Nat.le_refl _) givenEnough,
    levelsBelow_eq_of_enough (Nat.le_refl _) allEnough]
  exact joined.levelsBelow _

end Levels

/-- A run that equals of earlier records do not change is the same for joined records. -/
theorem Joined.foldlM_eq_ok
    {Fault State : Type}
    {step : State → Activity → Except Fault State}
    {start final : State}
    {given all : List Activity}
    (joined : Joined [] given all)
    (unchanged :
      ∀ {done state stored activity next},
        List.foldlM step start done = .ok state →
        stored ∈ done →
        stored.same activity = true →
        step state activity = .ok next →
        next = state)
    (ran : given.foldlM step start = .ok final) :
    all.foldlM step start = .ok final := by
  induction joined generalizing final with
  | start =>
      exact ran
  | added activity before inductionHypothesis =>
      rw [List.foldlM_append] at ran ⊢
      obtain ⟨state, givenRan, stepped⟩ := bind_eq_ok.mp ran
      exact bind_eq_ok.mpr ⟨state, inductionHypothesis givenRan, stepped⟩
  | @leftOut given all activity stored before isStored isSame inductionHypothesis =>
      rw [List.foldlM_append] at ran
      obtain ⟨state, givenRan, ran⟩ := bind_eq_ok.mp ran
      obtain ⟨next, stepped, finished⟩ := bind_eq_ok.mp ran
      cases finished
      have allRan := inductionHypothesis givenRan
      rw [unchanged allRan isStored isSame stepped]
      exact allRan

end Activity

end ActivityCatalog
