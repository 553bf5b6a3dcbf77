import ActivityCatalog.Archive.Opened
import ActivityCatalog.Proofs.Archive.Layouts
import ActivityCatalog.Proofs.Stepwise

namespace ActivityCatalog.OpenArchive

/-!
# Changes of open archives

What changes an open archive changes the archive in it as the same operation changes that
alone, and leaves all else of it as it is.  Where nothing hinders changes, an operation on the
open archive succeeds and fails as it does on the archive in it.
-/

theorem archive_withArchive (opened : OpenArchive) (archive : Archive) :
    (opened.withArchive archive).archive = archive :=
  rfl

section Changes

variable
  {opened after : OpenArchive}

theorem insert_eq_ok
    {activity : Activity}
    {key : Key}
    (inserted : opened.insert activity = .ok (after, key)) :
    opened.archive.insert activity = .ok (after.archive, key) ∧
      after = opened.withArchive after.archive := by
  obtain ⟨⟨archive, _⟩, stored, rest⟩ := bind_eq_ok.mp inserted
  dsimp only at rest
  split at rest
  · obtain ⟨_, -, finished⟩ := bind_eq_ok.mp rest
    cases finished
    exact ⟨stored, rfl⟩
  · cases rest
    exact ⟨stored, rfl⟩

theorem setRoot_eq_ok
    {id : String}
    (designated : opened.setRoot id = .ok after) :
    opened.archive.setRoot id = .ok after.archive ∧
      after = opened.withArchive after.archive := by
  obtain ⟨_, -, rest⟩ := bind_eq_ok.mp designated
  obtain ⟨archive, marked, finished⟩ := bind_eq_ok.mp rest
  cases finished
  exact ⟨marked, rfl⟩

theorem setRoot?_eq_ok
    {root : Option String}
    (designated : opened.setRoot? root = .ok after) :
    opened.archive.setRoot? root = .ok after.archive ∧
      after = opened.withArchive after.archive := by
  cases root with
  | none =>
      cases designated
      exact ⟨rfl, rfl⟩
  | some id =>
      exact setRoot_eq_ok designated

theorem insertAll_eq_ok
    {activities : List Activity}
    (inserted :
      activities.foldlM (fun held activity => (insert held activity).map Prod.fst) opened =
        .ok after) :
    activities.foldlM (fun held activity => (Archive.insert held activity).map Prod.fst)
        opened.archive = .ok after.archive ∧
      after = opened.withArchive after.archive := by
  induction activities generalizing opened with
  | nil =>
      cases inserted
      exact ⟨rfl, rfl⟩
  | cons activity rest inductionHypothesis =>
      obtain ⟨next, stepped, restInserted⟩ := bind_eq_ok.mp inserted
      obtain ⟨⟨_, key⟩, stored, rfl⟩ := map_eq_ok.mp stepped
      obtain ⟨archiveStored, isChanged⟩ := insert_eq_ok stored
      obtain ⟨restStored, isLast⟩ := inductionHypothesis restInserted
      refine ⟨bind_eq_ok.mpr ⟨_, map_eq_ok.mpr ⟨_, archiveStored, rfl⟩, restStored⟩, ?_⟩
      rw [isLast, isChanged]
      rfl

/-- Storing a listing in an open archive stores it in the archive that is open. -/
theorem importListing_eq_ok
    {listing : Listing}
    {count : Nat}
    (imported : opened.importListing listing = .ok (after, count)) :
    opened.archive.importListing listing = .ok (after.archive, count) ∧
      after = opened.withArchive after.archive := by
  obtain ⟨stored, inserted, rest⟩ := bind_eq_ok.mp imported
  obtain ⟨designated, marked, finished⟩ := bind_eq_ok.mp rest
  cases finished
  obtain ⟨archiveInserted, isStored⟩ := insertAll_eq_ok inserted
  obtain ⟨archiveMarked, isDesignated⟩ := setRoot?_eq_ok marked
  refine ⟨bind_eq_ok.mpr ⟨_, archiveInserted, bind_eq_ok.mpr ⟨_, archiveMarked, rfl⟩⟩, ?_⟩
  rw [isDesignated, isStored]
  rfl

end Changes

/-- Nothing hinders changes of an open archive, and all columns of its rows are laid out. -/
structure Unhindered (opened : OpenArchive) : Prop where
  noObstacle : opened.obstacle = none
  isStandard : opened.kept.layout = .standard

section Unhindered

variable
  {opened : OpenArchive}

theorem Unhindered.withArchive
    (unhindered : opened.Unhindered)
    (archive : Archive) :
    (opened.withArchive archive).Unhindered :=
  ⟨unhindered.noObstacle, unhindered.isStandard⟩

theorem checkWritable_of_obstacle
    (unhindered : opened.obstacle = none)
    (touches : Bool) :
    opened.checkWritable touches = .ok () := by
  rw [checkWritable, unhindered]

theorem checkFilled_of_unhindered (unhindered : opened.Unhindered) :
    opened.checkFilled = .ok () := by
  rw [checkFilled, unhindered.isStandard, Layout.checkFilled_standard,
    checkWritable_of_obstacle unhindered.noObstacle, Layout.checkRequired_rowTable]
  rfl

theorem insert_of_unhindered
    (unhindered : opened.Unhindered)
    (activity : Activity) :
    opened.insert activity =
      (opened.archive.insert activity).map fun made => (opened.withArchive made.1, made.2) := by
  rw [insert]
  cases opened.archive.insert activity with
  | error fault =>
      rfl
  | ok made =>
      dsimp only [bind, Except.bind]
      rw [checkFilled_of_unhindered unhindered]
      split <;> rfl

theorem insertAll_of_unhindered
    (unhindered : opened.Unhindered)
    (activities : List Activity) :
    activities.foldlM (fun held activity => (insert held activity).map Prod.fst) opened =
      (activities.foldlM (fun held activity => (Archive.insert held activity).map Prod.fst)
        opened.archive).map opened.withArchive := by
  induction activities generalizing opened with
  | nil =>
      rfl
  | cons activity rest inductionHypothesis =>
      rw [List.foldlM_cons, List.foldlM_cons, insert_of_unhindered unhindered]
      cases opened.archive.insert activity with
      | error fault =>
          rfl
      | ok made =>
          exact inductionHypothesis (unhindered.withArchive made.1)

theorem setRoot_of_obstacle
    (unhindered : opened.obstacle = none)
    (id : String) :
    opened.setRoot id = (opened.archive.setRoot id).map opened.withArchive := by
  rw [setRoot, checkWritable_of_obstacle unhindered]
  rfl

theorem setRoot?_of_obstacle
    (unhindered : opened.obstacle = none)
    (root : Option String) :
    opened.setRoot? root = (opened.archive.setRoot? root).map opened.withArchive := by
  cases root with
  | none =>
      rfl
  | some id =>
      exact setRoot_of_obstacle unhindered id

/-- A listing is stored in an open archive that nothing hinders as in the archive alone. -/
theorem importListing_of_unhindered
    (unhindered : opened.Unhindered)
    (listing : Listing) :
    opened.importListing listing =
      (opened.archive.importListing listing).map fun made =>
        (opened.withArchive made.1, made.2) := by
  rw [importListing, Archive.importListing, insertAll_of_unhindered unhindered]
  cases listing.activities.foldlM
      (fun held activity => (Archive.insert held activity).map Prod.fst) opened.archive with
  | error fault =>
      rfl
  | ok stored =>
      dsimp only [bind, Except.bind, Except.map]
      rw [setRoot?_of_obstacle (unhindered.withArchive stored).noObstacle, archive_withArchive]
      cases stored.setRoot? listing.root <;> rfl

end Unhindered

end ActivityCatalog.OpenArchive
