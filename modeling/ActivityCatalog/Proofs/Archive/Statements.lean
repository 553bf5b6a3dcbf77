import ActivityCatalog.Archive
import ActivityCatalog.Proofs.Stepwise

namespace ActivityCatalog

/-!
# Archives changed statement by statement

A call on an archive is a script of statements, each of which takes effect at once; where one
fails, what those before it did is left.  A transaction takes that back.  Each script gives
the same result and leaves the same archive as the operation it stands for, which gives the
archive after it or else a fault.
-/

/-- Statements on an archive, which may fail and leave what was done before. -/
abbrev Script (Result : Type) :=
  ExceptT ArchiveFault (StateM Archive) Result

namespace Script

variable {Result : Type}

/-- The result of a script and the archive that it leaves. -/
def perform (script : Script Result) (archive : Archive) :
    Except ArchiveFault Result × Archive :=
  script.run.run archive

/-- Take back all statements if one of them fails. -/
def transaction (script : Script Result) : Script Result := fun archive =>
  match script.perform archive with
  | (.ok result, after) => (.ok result, after)
  | (.error fault, _) => (.error fault, archive)

/-- The payload under a key, if there is one. -/
def payload? (key : Key) : Script (Option Cell) := do
  pure (((← get).row? key).map Row.payload)

/-- Add a row. -/
def addRow (row : Row) : Script Unit :=
  modify fun archive => { archive with rows := archive.rows ++ [row] }

/-- Take the flag off every row. -/
def clearRoot : Script Unit :=
  modify fun archive =>
    { archive with rows := archive.rows.map fun row => { row with isRoot := false } }

/-- Flag the rows of an id, and tell how many there are. -/
def flagRoot (id : String) : Script Nat :=
  modifyGet fun archive =>
    ((archive.rows.filter fun row => row.key.id == id).length,
      { archive with rows := archive.rows.map fun row =>
          if row.key.id == id then { row with isRoot := true } else row })

/-- Store a record. -/
def insert (activity : Activity) : Script Key :=
  match activity.key? with
  | none => throw .missingId
  | some key => do
      match ← payload? key with
      | none =>
          addRow ⟨key, .text activity.text, false⟩
          pure key
      | some (.text text) =>
          match Archive.readText text with
          | .error fault => throw fault
          | .ok stored => if stored.same activity then pure key else throw (.conflict key)
      | some other =>
          throw (.mistyped "payload" other.kind)

/-- Take the flag off all rows and flag those of an id, of which there has to be one. -/
def markRoot (id : String) : Script Unit := do
  clearRoot
  let flagged ← flagRoot id
  if flagged = 0 then
    throw (.notStored id)

/-- Mark the main activity, if there is one to mark. -/
def markRoot? : Option String → Script Unit
  | none => pure ()
  | some id => markRoot id

/-- Designate the main activity. -/
def setRoot (id : String) : Script Unit :=
  transaction (markRoot id)

/-- Store records one after another. -/
def insertAll : List Activity → Script Unit
  | [] => pure ()
  | activity :: rest => do
      let _ ← insert activity
      insertAll rest

/-- Store a listing as a whole, and tell how many records it has. -/
def importListing (listing : Listing) : Script Nat :=
  transaction do
    insertAll listing.activities
    markRoot? listing.root
    pure listing.activities.length

/-- What an operation gives, and the archive after it, which is as before if it failed. -/
def outcome (before : Archive) :
    Except ArchiveFault (Archive × Result) → Except ArchiveFault Result × Archive
  | .ok (after, result) => (.ok result, after)
  | .error fault => (.error fault, before)

/-- A script gives what an operation gives, but may leave something where that fails. -/
def Gives (script : Script Result) (before : Archive) :
    Except ArchiveFault (Archive × Result) → Prop
  | .ok (after, result) => script.perform before = (.ok result, after)
  | .error fault => ∃ left, script.perform before = (.error fault, left)

/-- In a transaction nothing is left. -/
theorem perform_transaction
    {script : Script Result}
    {before : Archive}
    {operation : Except ArchiveFault (Archive × Result)}
    (gives : Gives script before operation) :
    (transaction script).perform before = outcome before operation := by
  cases operation with
  | error fault =>
      obtain ⟨left, performed⟩ := gives
      simp only [transaction, perform, ExceptT.run, StateT.run] at performed ⊢
      rw [performed]
      rfl
  | ok made =>
      simp only [Gives, transaction, perform, ExceptT.run, StateT.run] at gives ⊢
      rw [gives]
      rfl

section Bind

variable
  {Next : Type}
  {script : Script Result}
  {next : Result → Script Next}
  {before after : Archive}

theorem perform_bind_ok
    {result : Result}
    (performed : script.perform before = (.ok result, after)) :
    (script >>= next).perform before = (next result).perform after :=
  run_bind_ok performed

theorem perform_bind_error
    {fault : ArchiveFault}
    (performed : script.perform before = (.error fault, after)) :
    (script >>= next).perform before = (.error fault, after) :=
  run_bind_error performed

theorem Gives.of_perform
    {later : Script Next}
    {earlier : Script Next}
    {operation : Except ArchiveFault (Archive × Next)}
    (gives : Gives later after operation)
    (performed : earlier.perform before = later.perform after) :
    Gives earlier before operation := by
  cases operation with
  | error fault =>
      obtain ⟨left, failed⟩ := gives
      exact ⟨left, performed.trans failed⟩
  | ok made =>
      exact performed.trans gives

end Bind

/-- Storing a record is its script. -/
theorem perform_insert (activity : Activity) (archive : Archive) :
    (insert activity).perform archive = outcome archive (archive.insert activity) := by
  unfold insert Archive.insert
  cases activity.key? with
  | none =>
      rfl
  | some key =>
      have looked : (payload? key).perform archive =
          (.ok ((archive.row? key).map Row.payload), archive) :=
        rfl
      refine (perform_bind_ok looked).trans ?_
      dsimp only
      cases (archive.row? key).map Row.payload with
      | none =>
          rfl
      | some payload =>
          cases payload with
          | text text =>
              dsimp only
              cases Archive.readText text with
              | error fault =>
                  rfl
              | ok stored =>
                  simp only [bind, Except.bind]
                  split <;> rfl
          | null | integer | real | bytes =>
              rfl

/-- Flagging the rows of an id after the flag was taken off all is designating it. -/
theorem gives_markRoot (id : String) (archive : Archive) :
    Gives (markRoot id) archive ((archive.setRoot id).map fun after => (after, ())) := by
  let cleared := archive.rows.map fun row => { row with isRoot := false }
  let flagged := (cleared.filter fun row => row.key.id == id).length
  let after : Archive := { archive with rows := cleared.map fun row =>
    if row.key.id == id then { row with isRoot := true } else row }
  have performed : (markRoot id).perform archive =
      (if flagged = 0 then .error (.notStored id) else .ok (), after) := by
    have clears : clearRoot.perform archive = (.ok (), { archive with rows := cleared }) :=
      rfl
    have flags : (flagRoot id).perform { archive with rows := cleared } = (.ok flagged, after) :=
      rfl
    refine (perform_bind_ok clears).trans ((perform_bind_ok flags).trans ?_)
    split <;> rfl
  have sameRows : after.rows = archive.rows.map fun row =>
      { row with isRoot := row.key.id == id } := by
    refine List.map_map.trans (List.map_congr_left fun row _ => ?_)
    by_cases isId : row.key.id = id <;> simp [isId]
  have noneFlagged : flagged = 0 ↔ (archive.rows.any fun row => row.key.id == id) = false := by
    simp only [flagged, cleared, List.length_eq_zero_iff, List.filter_eq_nil_iff,
      List.forall_mem_map, List.any_eq_false]
  unfold Archive.setRoot
  split
  · rename_i someRow
    have isFlagged : flagged ≠ 0 := fun isZero => by
      rw [noneFlagged.mp isZero] at someRow
      cases someRow
    rw [if_neg isFlagged] at performed
    refine performed.trans ?_
    rw [← sameRows]
  · rename_i noRow
    rw [if_pos (noneFlagged.mpr (Bool.eq_false_iff.mpr noRow))] at performed
    exact ⟨after, performed⟩

theorem gives_markRoot? (root : Option String) (archive : Archive) :
    Gives (markRoot? root) archive ((archive.setRoot? root).map fun after => (after, ())) := by
  cases root with
  | none =>
      rfl
  | some id =>
      exact gives_markRoot id archive

/-- Designating the main activity is its script. -/
theorem perform_setRoot (id : String) (archive : Archive) :
    (setRoot id).perform archive =
      outcome archive ((archive.setRoot id).map fun after => (after, ())) :=
  perform_transaction (gives_markRoot id archive)

theorem gives_insertAll (activities : List Activity) (archive : Archive) :
    Gives (insertAll activities) archive
      ((activities.foldlM (fun held activity => (Archive.insert held activity).map Prod.fst)
        archive).map fun after => (after, ())) := by
  induction activities generalizing archive with
  | nil =>
      rfl
  | cons activity rest inductionHypothesis =>
      have performed := perform_insert activity archive
      rw [List.foldlM_cons]
      cases inserted : archive.insert activity with
      | error fault =>
          rw [inserted] at performed
          exact ⟨archive, perform_bind_error performed⟩
      | ok made =>
          rw [inserted] at performed
          exact (inductionHypothesis made.1).of_perform (perform_bind_ok performed)

/-- Storing a listing is its script. -/
theorem perform_importListing (listing : Listing) (archive : Archive) :
    (importListing listing).perform archive = outcome archive (archive.importListing listing) := by
  refine perform_transaction ?_
  have storing := gives_insertAll listing.activities archive
  unfold Archive.importListing
  cases stored : listing.activities.foldlM
      (fun held activity => (Archive.insert held activity).map Prod.fst) archive with
  | error fault =>
      rw [stored] at storing
      obtain ⟨left, failed⟩ := storing
      exact ⟨left, perform_bind_error failed⟩
  | ok after =>
      rw [stored] at storing
      refine Gives.of_perform ?_ (perform_bind_ok storing)
      have marking := gives_markRoot? listing.root after
      change Gives _ after ((after.setRoot? listing.root) >>= fun designated =>
        pure (designated, listing.activities.length))
      cases marked : after.setRoot? listing.root with
      | error fault =>
          rw [marked] at marking
          obtain ⟨left, failed⟩ := marking
          exact ⟨left, perform_bind_error failed⟩
      | ok designated =>
          rw [marked] at marking
          exact perform_bind_ok marking

end Script

end ActivityCatalog
