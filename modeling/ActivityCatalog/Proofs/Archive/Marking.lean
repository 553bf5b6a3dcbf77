import ActivityCatalog.Archive.Kept
import ActivityCatalog.Proofs.Archive.Completion

namespace ActivityCatalog

/-!
# Opening an archive by its schema version

An archive that is opened is first prepared: its file is marked for a log, and what is missing is
laid out.  All that is independent of the schema versions that it tells, and done once for all.
Then the first of the versions decides.  One that can be read and is supported lets the archive be
opened as it is, and one that is newer is the reason to refuse it.  One that cannot be read is
taken for none, so that the supported version is added behind it.
-/

namespace Archive

variable {archive : Archive}

theorem opened_of_supported
    {version : Int}
    (isRead : archive.schemaVersion? = some version)
    (supported : version ≤ currentSchema) :
    archive.opened = .ok archive := by
  unfold opened
  rw [isRead]
  exact if_neg (Int.not_lt.mpr supported)

theorem opened_of_newer
    {version : Int}
    (isRead : archive.schemaVersion? = some version)
    (newer : currentSchema < version) :
    archive.opened = .error (.newerSchema version currentSchema) := by
  unfold opened
  rw [isRead]
  exact if_pos newer

theorem opened_of_unread (unread : archive.schemaVersion? = none) :
    archive.opened = .ok { archive with
      schemaVersions := archive.schemaVersions ++ [.integer currentSchema] } := by
  unfold opened
  rw [unread]

/-- A number is read as a schema version if it is neither negative nor too great. -/
theorem schemaVersion?_of_readable
    {version : Int}
    (isFirst : archive.schemaVersions.head? = some (.integer version))
    (notNegative : 0 ≤ version)
    (notTooGreat : version ≤ greatestSchema) :
    archive.schemaVersion? = some version := by
  rw [schemaVersion?, isFirst]
  simp [Cell.integer?, notNegative, notTooGreat]

theorem schemaVersion?_of_unreadable
    {version : Int}
    (isFirst : archive.schemaVersions.head? = some (.integer version))
    (unreadable : version < 0 ∨ greatestSchema < version) :
    archive.schemaVersion? = none := by
  rw [schemaVersion?, isFirst]
  simp only [Option.bind_some, Cell.integer?, Option.filter_some, Bool.and_eq_true,
    decide_eq_true_eq, ite_eq_right_iff, reduceCtorEq, imp_false]
  omega

end Archive

namespace KeptArchive

/-- The archive with other schema versions. -/
def telling (kept : KeptArchive) (versions : List Cell) : KeptArchive :=
  { kept with archive := { kept.archive with schemaVersions := versions } }

/-- The archive in a file that is marked for a log, which a sealed file has to be already. -/
def logged (kept : KeptArchive) : Except ArchiveFault KeptArchive :=
  if kept.keepsLog then .ok kept
  else if kept.isSealed then .error (.storage .preparation .readOnly)
  else .ok { kept with keepsLog := true }

/-- The archive before its schema versions are looked at. -/
def prepared (kept : KeptArchive) : Except ArchiveFault KeptArchive := do
  let logged ← kept.logged
  logged.laidOut logged.isSealed

/-- Open an archive where it is kept; with the answer goes the archive as it is kept then. -/
def openedInPlace (kept : KeptArchive) : Except ArchiveFault Unit × KeptArchive :=
  match kept.logged with
  | .error fault =>
      (.error fault, kept)
  | .ok logged =>
      match logged.opened logged.isSealed with
      | .error fault => (.error fault, logged)
      | .ok opened => (.ok (), opened)

/-- Refuse an archive to which no schema version can be added. -/
def checkMarkable (isReadOnly : Bool) (kept : KeptArchive) : Except ArchiveFault Unit := do
  let _ ← kept.layout.versionColumnOf.mapError (.storage .marking)
  if isReadOnly then
    throw (.storage .marking .readOnly)
  (kept.layout.checkRequired Layout.versionTable [Layout.versionColumn]).mapError
    (.storage .marking)

/-- Prepare an archive, and refuse it if no schema version can be added to it then. -/
def markable (kept : KeptArchive) : Except ArchiveFault Unit := do
  let ready ← kept.prepared
  ready.checkMarkable ready.isSealed

section Preparing

variable
  {kept logged ready : KeptArchive}
  {versions : List Cell}
  {isReadOnly : Bool}

theorem telling_self (kept : KeptArchive) : kept.telling kept.archive.schemaVersions = kept :=
  rfl

theorem logged_telling (kept : KeptArchive) (versions : List Cell) :
    (kept.telling versions).logged = kept.logged.map fun logged => logged.telling versions := by
  obtain ⟨archive, layout, keepsLog, isSealed, canGrow⟩ := kept
  cases keepsLog <;> cases isSealed <;> rfl

theorem laidOut_eq (kept : KeptArchive) (isReadOnly : Bool) :
    kept.laidOut isReadOnly =
      ((kept.layout.completed (kept.refusal? isReadOnly)).mapError (.storage .layout)).map
        fun layout => { kept with layout } := by
  unfold laidOut
  dsimp only
  cases kept.layout.completed (kept.refusal? isReadOnly) <;> rfl

theorem laidOut_telling (kept : KeptArchive) (versions : List Cell) (isReadOnly : Bool) :
    (kept.telling versions).laidOut isReadOnly =
      (kept.laidOut isReadOnly).map fun laid => laid.telling versions := by
  have sameLayout : (kept.telling versions).layout.completed
      ((kept.telling versions).refusal? isReadOnly) =
        kept.layout.completed (kept.refusal? isReadOnly) := rfl
  rw [laidOut_eq, laidOut_eq, sameLayout]
  cases kept.layout.completed (kept.refusal? isReadOnly) <;> rfl

theorem laidOut_eq_ok :
    kept.laidOut isReadOnly = .ok ready ↔
      ∃ layout, kept.layout.completed (kept.refusal? isReadOnly) = .ok layout ∧
        { kept with layout } = ready := by
  rw [laidOut_eq, map_eq_ok]
  simp only [mapError_eq_ok]

/-- An archive that was laid out stays as it is when it is laid out again. -/
theorem laidOut_laidOut (laidOut : kept.laidOut isReadOnly = .ok ready) (other : Bool) :
    ready.laidOut other = .ok ready := by
  obtain ⟨layout, completes, rfl⟩ := laidOut_eq_ok.mp laidOut
  have again := Layout.completed_completed completes
  exact laidOut_eq_ok.mpr ⟨layout, again _, rfl⟩

theorem logged_of_keepsLog (keepsLog : kept.keepsLog = true) : kept.logged = .ok kept := by
  rw [logged, if_pos keepsLog]

theorem keepsLog_of_logged (isLogged : kept.logged = .ok logged) : logged.keepsLog = true := by
  unfold KeptArchive.logged at isLogged
  split at isLogged
  · cases isLogged
    assumption
  · split at isLogged
    · cases isLogged
    · cases isLogged
      rfl

theorem archive_of_logged (isLogged : kept.logged = .ok logged) :
    logged.archive = kept.archive ∧ logged.layout = kept.layout := by
  unfold KeptArchive.logged at isLogged
  split at isLogged
  · cases isLogged
    exact ⟨rfl, rfl⟩
  · split at isLogged
    · cases isLogged
    · cases isLogged
      exact ⟨rfl, rfl⟩

theorem prepared_telling (kept : KeptArchive) (versions : List Cell) :
    (kept.telling versions).prepared = kept.prepared.map fun ready => ready.telling versions := by
  unfold prepared
  rw [logged_telling]
  cases kept.logged with
  | error fault =>
      rfl
  | ok logged =>
      exact laidOut_telling logged versions logged.isSealed

theorem prepared_of_logged (isLogged : kept.logged = .ok logged) :
    kept.prepared = logged.laidOut logged.isSealed := by
  rw [prepared, isLogged]
  rfl

/-- Marking the file for a log is not done twice. -/
theorem prepared_logged (isLogged : kept.logged = .ok logged) :
    logged.prepared = kept.prepared := by
  rw [prepared_of_logged isLogged,
    prepared_of_logged (logged_of_keepsLog (keepsLog_of_logged isLogged))]

/-- An archive that is prepared stays as it is when it is prepared again. -/
theorem prepared_prepared (isPrepared : kept.prepared = .ok ready) :
    ready.prepared = .ok ready := by
  obtain ⟨logged, isLogged, laidOut⟩ := bind_eq_ok.mp isPrepared
  have again := laidOut_laidOut laidOut ready.isSealed
  have keepsLog := keepsLog_of_logged isLogged
  obtain ⟨layout, -, rfl⟩ := laidOut_eq_ok.mp laidOut
  have stays : ({ logged with layout } : KeptArchive).logged = .ok { logged with layout } :=
    logged_of_keepsLog keepsLog
  rw [prepared_of_logged stays]
  exact again

theorem archive_of_prepared (isPrepared : kept.prepared = .ok ready) :
    ready.archive = kept.archive := by
  obtain ⟨logged, isLogged, laidOut⟩ := bind_eq_ok.mp isPrepared
  obtain ⟨layout, -, rfl⟩ := laidOut_eq_ok.mp laidOut
  exact (archive_of_logged isLogged).1

theorem versionColumnOf_of_prepared
    {column : Column}
    (isPrepared : kept.prepared = .ok ready)
    (hasColumn : kept.layout.versionColumnOf = .ok column) :
    ready.layout.versionColumnOf = .ok column := by
  obtain ⟨logged, isLogged, laidOut⟩ := bind_eq_ok.mp isPrepared
  obtain ⟨layout, completes, rfl⟩ := laidOut_eq_ok.mp laidOut
  refine Layout.versionColumnOf_of_completed completes ?_
  rw [(archive_of_logged isLogged).2]
  exact hasColumn

end Preparing

section Marking

variable
  {kept : KeptArchive}
  {version : Int}

theorem schemaVersion?_telling
    {versions : List Int}
    (kept : KeptArchive)
    (isFirst : versions.head? = some version)
    (notNegative : 0 ≤ version)
    (notTooGreat : version ≤ Archive.greatestSchema) :
    (kept.telling (versions.map .integer)).archive.schemaVersion? = some version := by
  refine Archive.schemaVersion?_of_readable ?_ notNegative notTooGreat
  rw [telling, List.head?_map, isFirst]
  rfl

theorem schemaVersion?_telling_eq_none
    {versions : List Int}
    (kept : KeptArchive)
    (isFirst : versions.head? = some version)
    (unreadable : version < 0 ∨ Archive.greatestSchema < version) :
    (kept.telling (versions.map .integer)).archive.schemaVersion? = none := by
  refine Archive.schemaVersion?_of_unreadable ?_ unreadable
  rw [telling, List.head?_map, isFirst]
  rfl

theorem marked_of_supported
    (isReadOnly : Bool)
    (isRead : kept.archive.schemaVersion? = some version)
    (supported : version ≤ Archive.currentSchema) :
    kept.marked isReadOnly = .ok kept := by
  unfold marked
  rw [Archive.opened_of_supported isRead supported]
  refine bind_eq_ok.mpr ⟨_, rfl, ?_⟩
  rw [beq_self_eq_true]
  rfl

theorem marked_of_newer
    (isReadOnly : Bool)
    (isRead : kept.archive.schemaVersion? = some version)
    (newer : Archive.currentSchema < version) :
    kept.marked isReadOnly = .error (.newerSchema version Archive.currentSchema) := by
  unfold marked
  rw [Archive.opened_of_newer isRead newer]
  rfl

/-- The supported version is added behind those that cannot be read, if one can be added. -/
theorem marked_of_unread
    (isReadOnly : Bool)
    (unread : kept.archive.schemaVersion? = none) :
    kept.marked isReadOnly = (kept.checkMarkable isReadOnly).map fun _ =>
      kept.withVersionsOf { kept.archive with
        schemaVersions := kept.archive.schemaVersions ++ [.integer Archive.currentSchema] } := by
  have isChanged : ({ kept.archive with schemaVersions := kept.archive.schemaVersions ++
      [.integer Archive.currentSchema] } == kept.archive) = false := by
    rw [beq_eq_false_iff_ne]
    intro isSame
    have sameLength := congrArg (fun archive => archive.schemaVersions.length) isSame
    simp at sameLength
  unfold marked checkMarkable
  rw [Archive.opened_of_unread unread]
  simp only [bind, Except.bind]
  rw [isChanged, if_neg Bool.false_ne_true]
  cases kept.layout.versionColumnOf with
  | error failure =>
      rfl
  | ok column =>
      cases isReadOnly with
      | true =>
          rfl
      | false =>
          cases kept.layout.checkRequired Layout.versionTable [Layout.versionColumn] <;> rfl

theorem marked_answer_of_unread
    (isReadOnly : Bool)
    (unread : kept.archive.schemaVersion? = none) :
    ((kept.marked isReadOnly).map fun _ => ()) = kept.checkMarkable isReadOnly := by
  rw [marked_of_unread isReadOnly unread]
  cases kept.checkMarkable isReadOnly <;> rfl

/-- A column that stores one number as it is stores every number so. -/
theorem stored_of_stored
    {affinity : Affinity}
    (isStored : affinity.stored version = .integer version)
    (other : Int) :
    affinity.stored other = .integer other := by
  cases affinity with
  | integer | none =>
      rfl
  | text | real =>
      cases isStored

/-- Numbers in a column that stores them as they are stay what they are. -/
theorem withVersionsOf_integers
    {column : Column}
    (hasColumn : kept.layout.versionColumnOf = .ok column)
    (isStored : column.affinity.stored version = .integer version)
    (versions : List Int) :
    kept.withVersionsOf { kept.archive with schemaVersions := versions.map .integer } =
      kept.telling (versions.map .integer) := by
  have sameVersions : kept.layout.storedVersions (versions.map .integer) =
      versions.map .integer := by
    rw [Layout.storedVersions, hasColumn]
    dsimp only
    rw [List.map_map]
    refine List.map_congr_left ?_
    intro number _
    exact stored_of_stored isStored number
  rw [withVersionsOf]
  dsimp only
  rw [sameVersions]
  rfl

end Marking

section Opening

variable
  {kept ready after : KeptArchive}
  {fault : ArchiveFault}

/-- An archive that is refused is left as it is, but that its file may be marked for a log. -/
theorem openedInPlace_of_refused
    (refused : (kept.prepared >>= fun ready => ready.marked ready.isSealed) = .error fault) :
    kept.openedInPlace.1 = .error fault ∧ kept.openedInPlace.2.archive = kept.archive ∧
      kept.openedInPlace.2.layout = kept.layout ∧
        kept.openedInPlace.2.prepared = kept.prepared := by
  unfold openedInPlace
  cases isLogged : kept.logged with
  | error cause =>
      rw [prepared, isLogged] at refused
      cases refused
      exact ⟨rfl, rfl, rfl, rfl⟩
  | ok logged =>
      have sameArchive := archive_of_logged isLogged
      have notOpened : logged.opened logged.isSealed = .error fault := by
        rw [prepared_of_logged isLogged] at refused
        refine bind_eq_error.mpr ?_
        rcases bind_eq_error.mp refused with notLaidOut | ⟨ready, laidOut, notMarked⟩
        · exact .inl notLaidOut
        · obtain ⟨layout, -, rfl⟩ := laidOut_eq_ok.mp laidOut
          exact .inr ⟨_, laidOut, notMarked⟩
      dsimp only
      rw [notOpened]
      exact ⟨rfl, sameArchive.1, sameArchive.2, prepared_logged isLogged⟩

theorem openedInPlace_of_prepared
    (isPrepared : kept.prepared = .ok ready)
    (isMarked : ready.marked ready.isSealed = .ok after) :
    kept.openedInPlace = (.ok (), after) := by
  obtain ⟨logged, isLogged, laidOut⟩ := bind_eq_ok.mp isPrepared
  have opens : logged.opened logged.isSealed = .ok after := by
    refine bind_eq_ok.mpr ⟨ready, laidOut, ?_⟩
    obtain ⟨layout, -, rfl⟩ := laidOut_eq_ok.mp laidOut
    exact isMarked
  rw [openedInPlace, isLogged]
  dsimp only
  rw [opens]

/-- An archive is opened in the same way when its file was marked for a log before. -/
theorem openedInPlace_logged
    {logged : KeptArchive}
    (isLogged : kept.logged = .ok logged) :
    logged.openedInPlace = kept.openedInPlace := by
  rw [openedInPlace, openedInPlace, isLogged, logged_of_keepsLog (keepsLog_of_logged isLogged)]

/-- Opening answers by how the archive was prepared and then marked. -/
theorem openedInPlace_answer (kept : KeptArchive) :
    kept.openedInPlace.1 =
      (kept.prepared >>= fun ready => ready.marked ready.isSealed).map fun _ => () := by
  cases attempt : kept.prepared >>= fun ready => ready.marked ready.isSealed with
  | error fault =>
      exact (openedInPlace_of_refused attempt).1
  | ok after =>
      obtain ⟨ready, isReady, isMarked⟩ := bind_eq_ok.mp attempt
      rw [openedInPlace_of_prepared isReady isMarked]
      rfl

end Opening

/-- The table of the schema versions has a single row, with a number as its column stores it. -/
structure TellsOnly (kept : KeptArchive) (version : Int) : Prop where
  isOnly : kept.archive.schemaVersions = [.integer version]
  isStored : ∃ column, kept.layout.versionColumnOf = .ok column ∧
    column.affinity.stored version = .integer version

/-- An archive goes on from another, with the same rows and with some schema versions. -/
structure GoesOn (kept : KeptArchive) (versions : List Int) (now : KeptArchive) : Prop where
  isArchive : now.archive = ⟨kept.archive.rows, versions.map .integer⟩
  sameColumn : now.layout.versionColumnOf = kept.layout.versionColumnOf
  samePrepared : now.prepared = kept.prepared.map fun ready => ready.telling (versions.map .integer)

theorem TellsOnly.goesOn
    {kept : KeptArchive}
    {version : Int}
    (tellsOnly : kept.TellsOnly version) :
    kept.GoesOn [version] kept := by
  refine ⟨congrArg (Archive.mk kept.archive.rows) tellsOnly.isOnly, rfl, ?_⟩
  cases isReady : kept.prepared with
  | error fault =>
      rfl
  | ok ready =>
      have isTold : ready.archive.schemaVersions = [.integer version] := by
        rw [archive_of_prepared isReady, tellsOnly.isOnly]
      have stays := telling_self ready
      rw [isTold] at stays
      exact congrArg Except.ok stays.symm

namespace GoesOn

variable
  {kept now ready : KeptArchive}
  {version : Int}
  {versions : List Int}

/-- What goes on answers by its own versions, and else as the archive that it goes on from. -/
theorem answer_eq (goesOn : kept.GoesOn versions now) :
    now.openedInPlace.1 = kept.prepared >>= fun ready =>
      ((ready.telling (versions.map .integer)).marked ready.isSealed).map fun _ => () := by
  rw [openedInPlace_answer, goesOn.samePrepared]
  cases kept.prepared <;> rfl

/-- What hinders an archive to be opened before its versions are looked at does so again. -/
theorem of_refused
    {fault : ArchiveFault}
    (goesOn : kept.GoesOn versions now)
    (refused : now.openedInPlace.1 = .error fault) :
    kept.GoesOn versions now.openedInPlace.2 := by
  cases attempt : now.prepared >>= fun ready => ready.marked ready.isSealed with
  | error cause =>
      obtain ⟨-, sameArchive, sameLayout, samePrepared⟩ := openedInPlace_of_refused attempt
      refine ⟨sameArchive.trans goesOn.isArchive, ?_, samePrepared.trans goesOn.samePrepared⟩
      rw [sameLayout]
      exact goesOn.sameColumn
  | ok after =>
      obtain ⟨ready, isReady, isMarked⟩ := bind_eq_ok.mp attempt
      rw [openedInPlace_of_prepared isReady isMarked] at refused
      cases refused

/-- An archive that is opened goes on as it was prepared, with other versions perhaps. -/
theorem of_marked
    {others : List Int}
    (goesOn : kept.GoesOn versions now)
    (tellsOnly : kept.TellsOnly version)
    (isReady : kept.prepared = .ok ready)
    (isMarked : (ready.telling (versions.map .integer)).marked ready.isSealed =
      .ok (ready.telling (others.map .integer))) :
    now.openedInPlace.1 = .ok () ∧ kept.GoesOn others now.openedInPlace.2 := by
  have isPrepared : now.prepared = .ok (ready.telling (versions.map .integer)) := by
    rw [goesOn.samePrepared, isReady]
    rfl
  have again : (ready.telling (others.map .integer)).prepared =
      .ok (ready.telling (others.map .integer)) := by
    rw [prepared_telling, prepared_prepared isReady]
    rfl
  obtain ⟨column, hasColumn, -⟩ := tellsOnly.isStored
  rw [openedInPlace_of_prepared isPrepared isMarked]
  refine ⟨rfl, ?_, ?_, ?_⟩
  · exact congrArg (fun archive => Archive.mk archive.rows (others.map .integer))
      (archive_of_prepared isReady)
  · exact (versionColumnOf_of_prepared isReady hasColumn).trans hasColumn.symm
  · rw [again, isReady]
    rfl

/-- An archive with a supported version is opened if it can be, and goes on as it was. -/
theorem of_supported
    (goesOn : kept.GoesOn versions now)
    (tellsOnly : kept.TellsOnly version)
    (isFirst : versions.head? = some version)
    (notNegative : 0 ≤ version)
    (supported : version ≤ Archive.currentSchema) :
    now.openedInPlace.1 = kept.prepared.map (fun _ => ()) ∧
      kept.GoesOn versions now.openedInPlace.2 := by
  have answer := goesOn.answer_eq
  cases isReady : kept.prepared with
  | error fault =>
      rw [isReady] at answer
      exact ⟨answer, goesOn.of_refused answer⟩
  | ok ready =>
      have isRead := schemaVersion?_telling ready isFirst notNegative
        (supported.trans (by decide))
      exact goesOn.of_marked tellsOnly isReady (marked_of_supported _ isRead supported)

/-- An archive with a newer version is refused for that, if for nothing else. -/
theorem of_newer
    (goesOn : kept.GoesOn versions now)
    (isFirst : versions.head? = some version)
    (newer : Archive.currentSchema < version)
    (notTooGreat : version ≤ Archive.greatestSchema) :
    now.openedInPlace.1 =
        (kept.prepared >>= fun _ => .error (.newerSchema version Archive.currentSchema)) ∧
      kept.GoesOn versions now.openedInPlace.2 := by
  have answer := goesOn.answer_eq
  cases isReady : kept.prepared with
  | error fault =>
      rw [isReady] at answer
      exact ⟨answer, goesOn.of_refused answer⟩
  | ok ready =>
      have notNegative : 0 ≤ version := (by decide : 0 ≤ Archive.currentSchema).trans newer.le
      have isRead := schemaVersion?_telling ready isFirst notNegative notTooGreat
      have isRefused : now.openedInPlace.1 =
          .error (.newerSchema version Archive.currentSchema) := by
        rw [answer, isReady]
        exact congrArg (Except.map fun _ => ()) (marked_of_newer _ isRead newer)
      exact ⟨isRefused, goesOn.of_refused isRefused⟩

/-- An archive with a version that cannot be read is opened if the supported one can be added. -/
theorem of_unread
    (goesOn : kept.GoesOn versions now)
    (tellsOnly : kept.TellsOnly version)
    (isFirst : versions.head? = some version)
    (unreadable : version < 0 ∨ Archive.greatestSchema < version) :
    now.openedInPlace.1 = kept.markable ∧
      (∀ fault, kept.markable = .error fault → kept.GoesOn versions now.openedInPlace.2) ∧
      (kept.markable = .ok () →
        kept.GoesOn (versions ++ [Archive.currentSchema]) now.openedInPlace.2) := by
  have answer := goesOn.answer_eq
  unfold markable
  cases isReady : kept.prepared with
  | error fault =>
      rw [isReady] at answer
      exact ⟨answer, fun _ _ => goesOn.of_refused answer, nofun⟩
  | ok ready =>
      rw [isReady] at answer
      have unread := schemaVersion?_telling_eq_none ready isFirst unreadable
      have sameAnswer : now.openedInPlace.1 = ready.checkMarkable ready.isSealed :=
        answer.trans (marked_answer_of_unread ready.isSealed unread)
      refine ⟨sameAnswer, ?_, ?_⟩
      · intro fault notMarkable
        exact goesOn.of_refused (sameAnswer.trans notMarkable)
      · intro canMark
        obtain ⟨column, hasColumn, isStored⟩ := tellsOnly.isStored
        have added := withVersionsOf_integers (versionColumnOf_of_prepared isReady hasColumn)
          isStored (versions ++ [Archive.currentSchema])
        have isMarked : (ready.telling (versions.map .integer)).marked ready.isSealed =
            .ok (ready.telling ((versions ++ [Archive.currentSchema]).map .integer)) := by
          have isMarkable : (ready.telling (versions.map .integer)).checkMarkable
              ready.isSealed = .ok () := canMark
          rw [marked_of_unread ready.isSealed unread, isMarkable]
          rw [List.map_append] at added ⊢
          exact congrArg Except.ok added
        exact (goesOn.of_marked tellsOnly isReady isMarked).2

end GoesOn

end KeptArchive

end ActivityCatalog
