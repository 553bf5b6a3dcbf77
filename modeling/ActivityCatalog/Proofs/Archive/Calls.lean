import ActivityCatalog.Proofs.Archive.Rows
import ActivityCatalog.Proofs.Archive.Statements
import ActivityCatalog.Proofs.Catalog.Flattening

namespace ActivityCatalog.Archive

/-!
# Calls on an archive, one after another

Records are stored alone or as a listing, and main activities are designated.  A call that
fails leaves the archive as it was.  One that succeeds keeps all rows and adds others behind
them, and the main activity is the one that it designates or else the one there was.

So whatever calls were made of an archive without rows, each of its rows is read as a record
under the key of the row, which no other row has, and the flagged rows tell one main activity,
which is stored.
-/

/-- A call on an archive. -/
inductive Call where
  | insert (activity : Activity)
  | importListing (listing : Listing)
  | setRoot (id : String)

namespace Call

/-- The records that a call is to store. -/
def activities : Call → List Activity
  | .insert activity => [activity]
  | .importListing listing => listing.activities
  | .setRoot _ => []

/-- The main activity that a call is to designate. -/
def root? : Call → Option String
  | .insert _ => none
  | .importListing listing => listing.root
  | .setRoot id => some id

/-- The statements of a call. -/
def script : Call → Script Unit
  | .insert activity => do
      let _ ← Script.insert activity
  | .importListing listing => do
      let _ ← Script.importListing listing
  | .setRoot id => Script.setRoot id

/-- Whether a call fails, and the archive after it. -/
def perform (call : Call) (archive : Archive) : Except ArchiveFault Unit × Archive :=
  call.script.perform archive

/-- The archive that a call makes, or its fault. -/
def made (call : Call) (archive : Archive) : Except ArchiveFault Archive :=
  match call with
  | .insert activity => (archive.insert activity).map Prod.fst
  | .importListing listing => (archive.importListing listing).map Prod.fst
  | .setRoot id => archive.setRoot id

/-- A call leaves the archive that it makes, or as it was if it fails. -/
theorem perform_eq (call : Call) (archive : Archive) :
    call.perform archive =
      Script.outcome archive ((call.made archive).map fun after => (after, ())) := by
  cases call with
  | insert activity =>
      have performed := Script.perform_insert activity archive
      rw [perform, script, made]
      cases inserted : archive.insert activity with
      | error fault =>
          rw [inserted] at performed
          exact Script.perform_bind_error performed
      | ok stored =>
          rw [inserted] at performed
          exact Script.perform_bind_ok performed
  | importListing listing =>
      have performed := Script.perform_importListing listing archive
      rw [perform, script, made]
      cases imported : archive.importListing listing with
      | error fault =>
          rw [imported] at performed
          exact Script.perform_bind_error performed
      | ok stored =>
          rw [imported] at performed
          exact Script.perform_bind_ok performed
  | setRoot id =>
      exact Script.perform_setRoot id archive

section Step

variable
  {call : Call}
  {archive after : Archive}

/-- A call that fails leaves the archive as it was. -/
theorem after_eq_of_error
    {fault : ArchiveFault}
    (performed : call.perform archive = (.error fault, after)) :
    after = archive := by
  rw [perform_eq] at performed
  cases made : call.made archive with
  | error fault =>
      rw [made] at performed
      exact (congrArg Prod.snd performed).symm
  | ok stored =>
      rw [made] at performed
      cases congrArg Prod.fst performed

theorem made_of_ok
    (performed : call.perform archive = (.ok (), after)) :
    call.made archive = .ok after := by
  rw [perform_eq] at performed
  cases made : call.made archive with
  | error fault =>
      rw [made] at performed
      cases congrArg Prod.fst performed
  | ok stored =>
      rw [made] at performed
      exact congrArg Except.ok (congrArg Prod.snd performed)

/-- A call that succeeds joins its records to those that the archive holds. -/
theorem holds_of_ok
    {records : List Activity}
    (holds : archive.Holds records)
    (storable : ∀ activity ∈ call.activities, activity.Storable)
    (performed : call.perform archive = (.ok (), after)) :
    ∃ all, Activity.Joined records call.activities all ∧ after.Holds all ∧
      archive.contents <+: after.contents ∧ after.root? = call.root?.or archive.root? := by
  have made := made_of_ok performed
  cases call with
  | insert activity =>
      have inserted : [activity].foldlM
          (fun held activity => (Archive.insert held activity).map Prod.fst) archive =
            .ok after := by
        rw [List.foldlM_cons]
        exact bind_eq_ok.mpr ⟨after, made, rfl⟩
      exact holds.insertAll storable inserted
  | importListing listing =>
      obtain ⟨⟨_, count⟩, imported, rfl⟩ := map_eq_ok.mp made
      exact holds.importListing storable imported
  | setRoot id =>
      obtain ⟨afterHolds, sameContents, afterRoot⟩ := holds.setRoot made
      exact ⟨records, .start, afterHolds, sameContents ▸ List.prefix_rfl, afterRoot⟩

end Step

end Call

/-- The archive after calls, one after another. -/
def performAll (calls : List Call) (archive : Archive) : Archive :=
  calls.foldl (fun held call => (call.perform held).2) archive

theorem performAll_append (first second : List Call) (archive : Archive) :
    archive.performAll (first ++ second) = (archive.performAll first).performAll second :=
  List.foldl_append

/--
Whatever calls are made, an archive goes on to hold records, and what it holds stays in place.
A main activity is not lost.
-/
theorem Holds.performAll
    {archive : Archive}
    {records : List Activity}
    (holds : archive.Holds records)
    {calls : List Call}
    (storable : ∀ call ∈ calls, ∀ activity ∈ call.activities, activity.Storable) :
    ∃ all, (archive.performAll calls).Holds all ∧
      archive.contents <+: (archive.performAll calls).contents ∧
        (archive.root?.isSome → (archive.performAll calls).root?.isSome) := by
  induction calls generalizing archive records with
  | nil =>
      exact ⟨records, holds, List.prefix_rfl, id⟩
  | cons call rest inductionHypothesis =>
      obtain ⟨callStorable, restStorable⟩ := List.forall_mem_cons.mp storable
      cases performed : call.perform archive with
      | mk result after =>
          have next : archive.performAll (call :: rest) = after.performAll rest := by
            rw [Archive.performAll, List.foldl_cons, performed]
            rfl
          rw [next]
          cases result with
          | error fault =>
              rw [Call.after_eq_of_error performed]
              exact inductionHypothesis holds restStorable
          | ok _ =>
              obtain ⟨joined, -, afterHolds, grown, afterRoot⟩ :=
                Call.holds_of_ok holds callStorable performed
              obtain ⟨all, allHolds, grownOn, rootStays⟩ :=
                inductionHypothesis afterHolds restStorable
              refine ⟨all, allHolds, grown.trans grownOn, fun isRoot => rootStays ?_⟩
              rw [afterRoot, Option.isSome_or, isRoot, Bool.or_true]

/-- Every row is read as the record of its own key, and the flags tell one stored activity. -/
structure Consistent (archive : Archive) : Prop where
  different : (archive.rows.map Row.key).Nodup
  readable : ∀ row ∈ archive.rows, ∃ activity, RowHolds row activity
  flagged : ∀ row ∈ archive.rows, row.isRoot = true → archive.root? = some row.key.id
  rootStored : ∀ id, archive.root? = some id → ∃ row ∈ archive.rows, row.key.id = id

/-- An archive that holds records is consistent. -/
theorem Holds.consistent
    {archive : Archive}
    {records : List Activity}
    (holds : archive.Holds records) :
    archive.Consistent := by
  refine ⟨holds.different, ?_, ?_, ?_⟩
  · intro row isRow
    obtain ⟨activity, -, rowHolds⟩ := holds.exists_record isRow
    exact ⟨activity, rowHolds⟩
  · intro row isRow isFlagged
    exact holds.root?_eq_some.mpr ⟨row, isRow, isFlagged, rfl⟩
  · intro id isRoot
    obtain ⟨row, isRow, -, isId⟩ := holds.root?_eq_some.mp isRoot
    exact ⟨row, isRow, isId⟩

/-- A call that fails changes nothing; one that succeeds only adds rows behind the others. -/
def Keeps (before : Archive) (call : Call) : Except ArchiveFault Unit × Archive → Prop
  | (.error _, after) =>
      after.list = before.list ∧ after.count = before.count ∧ after.root? = before.root?
  | (.ok _, after) =>
      before.contents <+: after.contents ∧
        (∃ records added, before.list = .ok records ∧ after.list = .ok (records ++ added)) ∧
          after.root? = call.root?.or before.root?

/--
Whatever calls are made of an archive without rows, it stays consistent, and a main activity
that was designated is not lost.  The next call changes nothing if it fails; if it succeeds, it
keeps all that is stored in place and designates the main activity that it asks for or else
leaves it as it is.
-/
theorem calls_keep
    {start : Archive}
    (noRows : start.rows = [])
    {calls : List Call}
    {next : Call}
    (storable : ∀ call ∈ calls ++ [next], ∀ activity ∈ call.activities, activity.Storable) :
    (start.performAll calls).Consistent ∧
      (∀ earlier later, calls = earlier ++ later →
        (start.performAll earlier).root?.isSome → (start.performAll calls).root?.isSome) ∧
      (start.performAll calls).Keeps next (next.perform (start.performAll calls)) := by
  obtain ⟨callsStorable, nextStorable⟩ := List.forall_mem_append.mp storable
  obtain ⟨records, holds, -⟩ := (holds_nil noRows).performAll callsStorable
  refine ⟨holds.consistent, ?_, ?_⟩
  · rintro earlier later rfl isRoot
    obtain ⟨earlierStorable, laterStorable⟩ := List.forall_mem_append.mp callsStorable
    obtain ⟨_, earlierHolds, -⟩ := (holds_nil noRows).performAll earlierStorable
    obtain ⟨_, -, -, rootStays⟩ := earlierHolds.performAll laterStorable
    rw [performAll_append]
    exact rootStays isRoot
  · cases performed : next.perform (start.performAll calls) with
    | mk result after =>
        cases result with
        | error fault =>
            rw [Call.after_eq_of_error performed]
            exact ⟨rfl, rfl, rfl⟩
        | ok _ =>
            obtain ⟨all, joined, afterHolds, grown, afterRoot⟩ :=
              Call.holds_of_ok holds (List.forall_mem_singleton.mp nextStorable) performed
            obtain ⟨added, rfl⟩ := joined.held_prefix
            exact ⟨grown, ⟨records, added, holds.list_eq, afterHolds.list_eq⟩, afterRoot⟩

/-- The hotel is stored alone, then the trip that holds it, and the hotel is made the main one. -/
def tripCalls : List Call :=
  [.insert Catalog.hotel, .importListing Catalog.tripListing, .setRoot "hotel"]

/-- A listing with a new day, which is its main activity, and another hotel than was stored. -/
def clash : Call :=
  .importListing ⟨some "day", [Catalog.day, Activity.stub "hotel" "1"]⟩

theorem storable_tripCalls :
    ∀ call ∈ tripCalls ++ [clash], ∀ activity ∈ call.activities, activity.Storable := by
  have hotel : Catalog.hotel.Storable :=
    Activity.storable_of_reader_written rfl (by decide) rfl
  have trip : Catalog.trip.Storable :=
    Activity.storable_of_reader_written rfl (by decide) rfl
  have day : Catalog.day.Storable :=
    Activity.storable_of_reader_written rfl (by decide) rfl
  have stub : (Activity.stub "hotel" "1").Storable :=
    Activity.storable_of_reader_written rfl (by decide) rfl
  simp [tripCalls, clash, Call.activities, Catalog.tripListing, hotel, trip, day, stub]

/-- The listing is refused for its hotel, and its day is not stored either. -/
theorem calls_keep_trip :
    (clash.perform (fresh.performAll tripCalls)).1 = .error (.conflict ⟨"hotel", "1"⟩) ∧
      (fresh.performAll tripCalls).Consistent ∧
      (∀ earlier later, tripCalls = earlier ++ later →
        (fresh.performAll earlier).root?.isSome → (fresh.performAll tripCalls).root?.isSome) ∧
      (fresh.performAll tripCalls).Keeps clash (clash.perform (fresh.performAll tripCalls)) :=
  ⟨by decide +kernel, calls_keep (rfl : fresh.rows = []) storable_tripCalls⟩

end ActivityCatalog.Archive
