import ActivityCatalog.Archive.Opening
import ActivityCatalog.Proofs.Archive.Layouts
import ActivityCatalog.Proofs.FileTree

namespace ActivityCatalog

/-!
# Archives at rest

An archive that was made here rests in its file while it is not open: the file holds it, and
beside the file stand no journal, no log and no index.  When it is opened, a log is begun with
an index, and the archive is read as the file holds it.  When it is closed, its changes go from
the log to the file, and the log and the index are taken away.  So it rests again, with the
rows that it had when it was closed, and no other file has changed.

This is said of archives that are named in the current folder, without a way that leads there.
-/

namespace Attempt

variable
  {Result Next : Type}
  {attempt : Attempt Result}
  {files after : Files}
  {result : Result}

/-- What follows an attempt that succeeded is done on the files that it left. -/
theorem on_bind_ok
    {next : Result → Attempt Next}
    (done : attempt.on files = (.ok result, after)) :
    (attempt >>= next).on files = (next result).on after :=
  run_bind_ok done

/-- Nothing is handled of an attempt that succeeds. -/
theorem on_tryCatch_ok
    {handle : ArchiveFault → Attempt Result}
    (done : attempt.on files = (.ok result, after)) :
    (tryCatch attempt handle : Attempt Result).on files = (.ok result, after) := by
  simp only [Attempt.on] at done ⊢
  rw [ExceptT.run_tryCatch, StateT.run_bind, done]
  rfl

theorem on_get : (get : Attempt Files).on files = (.ok files, files) :=
  rfl

theorem on_set : (set after : Attempt PUnit).on files = (.ok ⟨⟩, after) :=
  rfl

end Attempt

namespace Files

@[simp] theorem ofText_journalEnding :
    FilePath.ofText journalEnding = [45, 106, 111, 117, 114, 110, 97, 108] := by
  decide +kernel

@[simp] theorem ofText_logEnding : FilePath.ofText logEnding = [45, 119, 97, 108] := by
  decide +kernel

@[simp] theorem ofText_indexEnding : FilePath.ofText indexEnding = [45, 115, 104, 109] := by
  decide +kernel

section Beside

variable
  {place : Place}
  {ending other : String}

/-- Files with different endings stand in different places beside an archive. -/
@[simp] theorem beside_eq_beside :
    place.beside ending = place.beside other ↔
      FilePath.ofText ending = FilePath.ofText other := by
  constructor
  · intro isSame
    have sameName := List.head_eq_of_cons_eq (List.append_cancel_left isSame)
    exact List.append_cancel_left sameName
  · intro sameEnding
    rw [Place.beside, Place.beside, sameEnding]

@[simp] theorem eq_beside :
    place = place.beside ending ↔ place ≠ [] ∧ FilePath.ofText ending = [] := by
  constructor
  · intro isSame
    have isName : (place.beside ending).name = place.name ++ FilePath.ofText ending := by
      simp [Place.beside, Place.name]
    refine ⟨?_, List.self_eq_append_right.mp ((congrArg Place.name isSame).trans isName)⟩
    rintro rfl
    cases isSame
  · rintro ⟨hasName, isEmpty⟩
    rw [Place.beside, isEmpty, List.append_nil, Place.name,
      List.getLast?_eq_getLast_of_ne_nil hasName]
    exact (List.dropLast_append_getLast hasName).symm

@[simp] theorem beside_eq :
    place.beside ending = place ↔ place ≠ [] ∧ FilePath.ofText ending = [] :=
  eq_comm.trans eq_beside

/-- A place beside an archive is neither the top nor a folder above. -/
theorem isGiven_beside (isLong : 2 < (FilePath.ofText ending).length) :
    (place.beside ending).isGiven = false := by
  have above : Place.above = [46, 46] := by
    decide +kernel
  have isLonger : 2 < (place.name ++ FilePath.ofText ending).length := by
    rw [List.length_append]
    omega
  have isLast : place.name ++ FilePath.ofText ending ∈ place.beside ending :=
    List.mem_append_right _ List.mem_cons_self
  have notTop : place.beside ending ≠ Place.top := by
    intro isTop
    rw [isTop] at isLast
    rw [List.mem_singleton.mp isLast] at isLonger
    exact absurd isLonger (by decide)
  have notAbove : (place.beside ending).all (· == Place.above) = false := by
    refine List.all_eq_false.mpr ⟨_, isLast, ?_⟩
    intro isAbove
    rw [beq_iff_eq.mp isAbove, above] at isLonger
    exact absurd isLonger (by decide)
  rw [Place.isGiven, notAbove, beq_eq_false_iff_ne.mpr notTop]
  rfl

@[simp] theorem isGiven_journal : (place.beside journalEnding).isGiven = false :=
  isGiven_beside (by simp)

@[simp] theorem isGiven_log : (place.beside logEnding).isGiven = false :=
  isGiven_beside (by simp)

@[simp] theorem isGiven_index : (place.beside indexEnding).isGiven = false :=
  isGiven_beside (by simp)

end Beside

section Keeping

variable
  {files : Files}
  {place : Place}

/-- Changes of an archive are written over the log that was begun for it. -/
theorem keepInLog_eq
    {log : OpenLog}
    {entries : StoredFile}
    (isCurrent : log.generation = files.generation (place.beside logEnding))
    (isLog : files.node? (place.beside logEnding) = some (.file entries))
    (kept : KeptArchive) :
    files.keepInLog place log kept =
      files.put (place.beside logEnding) (.file (entries.withEntries log kept)) := by
  rw [keepInLog, isCurrent, FileTree.nodeOf?_generation, isLog]
  exact FileTree.putOf_generation files _

/-- Changes of an archive without a journal are written over its file. -/
theorem keepInFile_eq
    (noJournal : files.node? (place.beside journalEnding) = none)
    (kept : KeptArchive) :
    files.keepInFile place (files.generation place) kept =
      files.put place (.file (.archive kept)) := by
  rw [keepInFile, dropBeside, noJournal]
  exact FileTree.putOf_generation files _

end Keeping

end Files

namespace OpenArchive

/-- An archive is opened in the place that its text names, unless it is one that is shared. -/
theorem on_ofText
    {text : String}
    {files : Files}
    {place : Place}
    (location : ArchiveLocation.ofText text = .ok (.ofFile (FilePath.ofText text)))
    (isKept : (ArchiveLocation.ofFile (FilePath.ofText text)).isTransient = false)
    (hasParents : files.makeParents (FilePath.ofText text) = (.ok (), files))
    (isNamed : files.nameOf? (FilePath.ofText text) = some place)
    (openings : List OpenArchive) :
    (ofText text openings).on files =
      ((⟨.ofFile (FilePath.ofText text), place, openings⟩ : ArchiveUse).openPlace text).on
        files := by
  have madeNone : (Attempt.checked (Except.mapError .cannotMakeFolder (.ok ()))).on files =
      (.ok (), files) := rfl
  have located : (Attempt.checked ((ArchiveLocation.ofText text).mapError .badLocation)).on files =
      (.ok (.ofFile (FilePath.ofText text)), files) := by
    rw [location]
    rfl
  have named : files.nameOf? (ArchiveLocation.ofFile (FilePath.ofText text)).path = some place :=
    isNamed
  have joinsNone : openings.find? (fun other =>
      (ArchiveLocation.ofFile (FilePath.ofText text)).joins other.location) = none := by
    refine List.find?_eq_none.mpr ?_
    intro other _
    rw [ArchiveLocation.joins, isKept]
    exact Bool.false_ne_true
  unfold ofText
  rw [Attempt.on_bind_ok Attempt.on_get]
  simp only [hasParents]
  rw [Attempt.on_bind_ok Attempt.on_set, Attempt.on_bind_ok madeNone, Attempt.on_bind_ok located]
  unfold ofLocation
  rw [Attempt.on_bind_ok Attempt.on_get]
  simp only [joinsNone, isKept, named, Option.elim_none]

end OpenArchive

namespace KeptArchive

/-- An archive that was made here, with some rows, as its file holds it. -/
def withRows (rows : List Row) : KeptArchive :=
  { KeptArchive.fresh true with archive := ⟨rows, [.integer Archive.currentSchema]⟩ }

/-- An archive that was made here is opened as it is. -/
theorem opened_withRows (rows : List Row) : (withRows rows).opened false = .ok (withRows rows) := by
  have laidOut : (withRows rows).laidOut false = .ok (withRows rows) :=
    bind_eq_ok.mpr ⟨_, mapError_eq_ok.mpr (Layout.completed_standard _), rfl⟩
  have marked : (withRows rows).marked false = .ok (withRows rows) := by
    refine bind_eq_ok.mpr ⟨(withRows rows).archive, rfl, ?_⟩
    rw [beq_self_eq_true, if_pos rfl]
    rfl
  exact bind_eq_ok.mpr ⟨_, laidOut, marked⟩

theorem withRows_ne_blank (rows : List Row) : (withRows rows == blank true) = false := by
  rw [beq_eq_false_iff_ne]
  intro isBlank
  cases congrArg layout isBlank

end KeptArchive

/-- A text that names an archive in the current folder, and leaves room for what stands beside. -/
structure NamesArchive (text : String) : Prop where
  location : ArchiveLocation.ofText text = .ok (.ofFile (FilePath.ofText text))
  isKept : (ArchiveLocation.ofFile (FilePath.ofText text)).isTransient = false
  pieces : FilePath.pieces (FilePath.ofText text) = [FilePath.ofText text]
  fromHere : FilePath.start (FilePath.ofText text) = Place.current
  leadsOn : FilePath.staysPut (FilePath.ofText text) = false
  notAbove : (FilePath.ofText text == Place.above) = false
  notTop : Place.isFromTop [FilePath.ofText text] = false
  isShort : (FilePath.ofText text).length + 8 ≤ FileTree.greatestName

namespace NamesArchive

variable
  {text : String}
  {files : Files}
  {node : FileNode StoredFile}

theorem isNotTop (names : NamesArchive text) : [FilePath.ofText text] ≠ Place.top := by
  intro isTop
  have fromTop := names.notTop
  rw [isTop] at fromTop
  cases fromTop

theorem notGiven (names : NamesArchive text) : Place.isGiven [FilePath.ofText text] = false := by
  simp [Place.isGiven, names.isNotTop, names.notAbove]

theorem goesOn (names : NamesArchive text) :
    FilePath.goOn Place.current (FilePath.ofText text) = [FilePath.ofText text] := by
  rw [FilePath.goOn, names.leadsOn, names.notAbove]
  rfl

/-- What stands under the name of an archive, if anything does. -/
theorem visit_eq (names : NamesArchive text) (files : Files) :
    files.visit [FilePath.ofText text] =
      (files.node? [FilePath.ofText text]).elim (.error .notFound) .ok := by
  have isShort : ¬FileTree.greatestName < (FilePath.ofText text).length := by
    have short := names.isShort
    omega
  rw [FileTree.visit, Place.origin, names.notTop]
  cases stands : files.node? [FilePath.ofText text] <;>
    simp [FileTree.follow, FileTree.step, isShort, names.goesOn, stands, bind, Except.bind,
      Except.map, pure, Except.pure]

theorem visit
    (names : NamesArchive text)
    (stands : files.node? [FilePath.ofText text] = some node) :
    files.visit [FilePath.ofText text] = .ok node := by
  rw [names.visit_eq, stands, Option.elim_some]

/-- No folders have to be made for an archive in the current folder. -/
theorem makeParents (names : NamesArchive text) (files : Files) :
    files.makeParents (FilePath.ofText text) = (.ok (), files) := by
  have noParents : FilePath.parents (FilePath.ofText text) = [] := by
    rw [FilePath.parents, FilePath.stations, names.pieces, FilePath.stationsFrom, names.leadsOn]
    rfl
  rw [FileTree.makeParents, noParents]
  rfl

/-- The path of an archive in the current folder is that of its name, whatever stands there. -/
theorem nameOf? (names : NamesArchive text) (files : Files) :
    files.nameOf? (FilePath.ofText text) = some [FilePath.ofText text] := by
  have named : files.nameNext? Place.current (FilePath.ofText text) =
      some [FilePath.ofText text] := by
    rw [Files.nameNext?, names.goesOn, names.visit_eq]
    cases files.node? [FilePath.ofText text] <;> rfl
  have isShort : ¬Files.greatestArchivePath < (Place.path [FilePath.ofText text]).length := by
    have short := names.isShort
    rw [Place.path, Place.origin, names.notTop]
    simp only [FileTree.greatestName] at short
    simp [Files.greatestArchivePath]
    omega
  rw [Files.nameOf?, names.pieces, names.fromHere, List.foldlM_cons, named]
  simp [names.isNotTop, isShort]

end NamesArchive

theorem namesArchive_store : NamesArchive "store.db" := by
  constructor <;> decide +kernel

/-- An archive with some rows rests in the file that a text names. -/
structure Rests (files : Files) (text : String) (rows : List Row) : Prop where
  inFile : files.node? [FilePath.ofText text] =
    some (.file (.archive (KeptArchive.withRows rows)))
  noJournal : files.node? (Place.beside [FilePath.ofText text] Files.journalEnding) = none
  noLog : files.node? (Place.beside [FilePath.ofText text] Files.logEnding) = none
  noIndex : files.node? (Place.beside [FilePath.ofText text] Files.indexEnding) = none

section Opening

variable
  {text : String}
  {files : Files}
  {rows : List Row}

/-- How an archive in the current folder is used. -/
def useOf (text : String) : ArchiveUse :=
  ⟨.ofFile (FilePath.ofText text), [FilePath.ofText text], []⟩

/-- The files after a log was begun for an archive. -/
def withLog (files : Files) (text : String) : Files :=
  (files.putBeside [FilePath.ofText text] Files.logEnding (.bytes [])).putBeside
    [FilePath.ofText text] Files.indexEnding .index

/-- The log that was begun for an archive. -/
def begunLog (files : Files) (text : String) : OpenLog :=
  { generation := files.generation (Place.beside [FilePath.ofText text] Files.logEnding)
    hasEntries := false
    isWhole := false
    isReadOnly := false
    hasIndex := true
    known := .versions }

/-- The archive that was opened where it rested. -/
def openedAs (files : Files) (text : String) (rows : List Row) : OpenArchive :=
  { kept := .withRows rows
    location := .ofFile (FilePath.ofText text)
    place := some [FilePath.ofText text]
    generation := files.generation [FilePath.ofText text]
    log := some (begunLog files text)
    obstacle := none }

theorem node?_withLog_log :
    (withLog files text).node? (Place.beside [FilePath.ofText text] Files.logEnding) =
      some (.file (.bytes [])) := by
  simp [withLog, Files.putBeside, FileTree.node?_put]

theorem node?_withLog_index :
    (withLog files text).node? (Place.beside [FilePath.ofText text] Files.indexEnding) =
      some (.file .index) := by
  simp [withLog, Files.putBeside, FileTree.node?_put]

theorem on_settleJournal
    (use : ArchiveUse)
    (noJournal : files.node? (use.place.beside Files.journalEnding) = none)
    (stage : ArchiveStage) :
    (use.settleJournal stage).on files = (.ok (), files) := by
  have noneBeside : files.beside? use.place Files.journalEnding = none := by
    rw [Files.beside?, noJournal]
  unfold ArchiveUse.settleJournal
  refine (Attempt.on_bind_ok Attempt.on_get).trans ?_
  rw [noneBeside]
  cases use.leavesJournal files <;> rfl

theorem on_checkLog
    {use : ArchiveUse}
    (allowsLog : use.location.allowsLog = true)
    (noneBeside : files.beside? use.place Files.logEnding = none)
    (stage : ArchiveStage)
    (content : StoredFile) :
    (use.checkLog stage content).on files = (.ok content.keepsLog, files) := by
  unfold ArchiveUse.checkLog
  refine (Attempt.on_bind_ok Attempt.on_get).trans ?_
  cases content.keepsLog with
  | true =>
      simp only [noneBeside, allowsLog, Bool.not_true, Bool.and_false, Bool.false_eq_true,
        ↓reduceIte, Bool.false_or]
      rfl
  | false =>
      simp only [noneBeside, Option.isNone_none, Bool.not_false, Bool.and_self, ↓reduceIte]
      rfl

theorem on_checkIndex
    {use : ArchiveUse}
    (hasIndex : use.location.hasIndexFile = true)
    (mayChange : use.location.isIndexReadOnly = false)
    (noFolder : files.node? (use.place.beside Files.indexEnding) ≠ some .folder)
    (stage : ArchiveStage) :
    (use.checkIndex stage).on files =
      (.ok false, files.putBeside use.place Files.indexEnding .index) := by
  unfold ArchiveUse.checkIndex
  refine (Attempt.on_bind_ok Attempt.on_get).trans ?_
  simp only [hasIndex, mayChange, Bool.not_true, Bool.false_eq_true, ↓reduceIte]
  cases stands : files.node? (use.place.beside Files.indexEnding) with
  | none =>
      rfl
  | some node =>
      cases node with
      | folder =>
          exact absurd stands noFolder
      | file content =>
          rfl

/-- The name of an archive leaves room for what stands beside it. -/
theorem isTooLong_eq_false
    {place : Place}
    {ending : String}
    (isShort : place.name.length + 8 ≤ FileTree.greatestName)
    (isBrief : (FilePath.ofText ending).length ≤ 8) :
    Files.isTooLong place ending = false := by
  have isName : (place.beside ending).name = place.name ++ FilePath.ofText ending := by
    simp [Place.beside, Place.name]
  rw [Files.isTooLong, isName, List.length_append, decide_eq_false_iff_not]
  omega

/-- Where no log stands, an empty one is begun, and an index of it. -/
theorem on_beginLog
    (names : NamesArchive text)
    (noLog : files.node? (Place.beside [FilePath.ofText text] Files.logEnding) = none)
    (noIndex : files.node? (Place.beside [FilePath.ofText text] Files.indexEnding) = none)
    (stage : ArchiveStage) :
    ((useOf text).beginLog stage).on files = (.ok (begunLog files text), withLog files text) := by
  have isShort : Files.isTooLong (useOf text).place Files.logEnding = false :=
    isTooLong_eq_false names.isShort (by simp)
  have isMissing : files.node? ((useOf text).place.beside Files.logEnding) = none := noLog
  have noRival : (useOf text).rival? files = none := rfl
  let begun := files.putBeside [FilePath.ofText text] Files.logEnding (.bytes [])
  have noFolder :
      begun.node? ((useOf text).place.beside Files.indexEnding) ≠ some .folder := by
    simp [begun, useOf, Files.putBeside, FileTree.node?_put, noIndex]
  have puts : (set begun : Attempt PUnit).on files = (.ok ⟨⟩, begun) := Attempt.on_set
  unfold ArchiveUse.beginLog
  refine (Attempt.on_bind_ok Attempt.on_get).trans ?_
  simp only [isShort, isMissing, noRival, Option.isNone_none, ↓reduceIte, Bool.false_eq_true,
    Option.bind_none]
  refine (Attempt.on_bind_ok puts).trans ?_
  exact Attempt.on_bind_ok (on_checkIndex rfl rfl noFolder stage)

/-- Of a log without entries nothing is read. -/
theorem on_readLogged
    {log : OpenLog}
    {content : List UInt8}
    (hasLog : files.node? (Place.beside [FilePath.ofText text] Files.logEnding) =
      some (.file (.bytes content)))
    (isEmpty : log.hasEntries = false) :
    ((useOf text).readLogged log (.archive (.withRows rows))).on files =
      (.ok (.withRows rows, { log with isWhole := false }), files) := by
  have isLog : files.node? ((useOf text).place.beside Files.logEnding) =
      some (.file (.bytes content)) := hasLog
  have found : (Attempt.found ArchiveStage.preparation
      (StoredFile.archive (KeptArchive.withRows rows)).kept).on files =
        (.ok (.withRows rows), files) := rfl
  unfold ArchiveUse.readLogged
  refine (Attempt.on_bind_ok Attempt.on_get).trans ?_
  simp only [isLog, isEmpty]
  refine (Attempt.on_bind_ok found).trans ?_
  simp only [KeptArchive.withRows_ne_blank]
  rfl

/-- Nothing has to be added to an archive that was made here. -/
theorem on_openKept
    {log : OpenLog}
    (mayChange : log.isReadOnly = false) :
    ((useOf text).openKept (.withRows rows) (some log)).on files =
      (.ok ⟨.withRows rows, (useOf text).location, some (useOf text).place,
        files.generation (useOf text).place, some log, none⟩, files) := by
  have isFree : ((useOf text).location.isReadOnly || (KeptArchive.withRows rows).isSealed ||
      (some log).any OpenLog.isReadOnly) = false := by
    rw [Option.any_some, mayChange]
    rfl
  have opens : (Attempt.checked ((KeptArchive.withRows rows).opened false)).on files =
      (.ok (.withRows rows), files) := by
    rw [KeptArchive.opened_withRows]
    rfl
  unfold ArchiveUse.openKept
  refine (Attempt.on_bind_ok Attempt.on_get).trans ?_
  simp only [isFree, Bool.false_eq_true, ↓reduceIte, Option.isSome_some]
  refine (Attempt.on_bind_ok opens).trans ?_
  simp only [bne_self_eq_false, Bool.false_and, Bool.false_eq_true, ↓reduceIte,
    OpenArchive.withKept, OpenArchive.keepAfter, beq_self_eq_true]
  rfl

theorem on_openLogged
    (names : NamesArchive text)
    (rests : Rests files text rows)
    (stage : ArchiveStage) :
    ((useOf text).openLogged stage (.archive (.withRows rows))).on files =
      (.ok (openedAs files text rows), withLog files text) := by
  unfold ArchiveUse.openLogged
  refine (Attempt.on_bind_ok Attempt.on_get).trans ?_
  refine (Attempt.on_bind_ok (on_beginLog names rests.noLog rests.noIndex stage)).trans ?_
  refine Attempt.on_tryCatch_ok ?_
  refine (Attempt.on_bind_ok (on_readLogged node?_withLog_log rfl)).trans ?_
  exact on_openKept rfl

theorem on_openPlace
    (names : NamesArchive text)
    (rests : Rests files text rows)
    (told : String) :
    ((useOf text).openPlace told).on files =
      (.ok (openedAs files text rows), withLog files text) := by
  have noModeFile : (useOf text).checkModeFile.on files = (.ok (), files) := rfl
  have stands : files.visit (useOf text).place =
      .ok (.file (.archive (KeptArchive.withRows rows))) :=
    names.visit rests.inFile
  have isMutable : (useOf text).location.isImmutable = false := rfl
  have allowsLog : (useOf text).location.allowsLog = true := rfl
  have isFull : (StoredFile.archive (KeptArchive.withRows rows)).isBlank = false := rfl
  unfold ArchiveUse.openPlace
  refine (Attempt.on_bind_ok noModeFile).trans ?_
  refine (Attempt.on_bind_ok Attempt.on_get).trans ?_
  simp only [stands]
  unfold ArchiveUse.openFile
  simp only [isMutable, allowsLog, Bool.false_eq_true, ↓reduceIte]
  unfold ArchiveUse.openForLog
  simp only [isFull, Bool.false_eq_true, ↓reduceIte]
  have noLog : files.beside? (useOf text).place Files.logEnding = none := by
    rw [Files.beside?, useOf, rests.noLog]
  refine (Attempt.on_bind_ok (on_settleJournal (useOf text) rests.noJournal _)).trans ?_
  refine (Attempt.on_bind_ok (on_checkLog rfl noLog _ _)).trans ?_
  have keepsLog : (StoredFile.archive (KeptArchive.withRows rows)).keepsLog = true := rfl
  simp only [keepsLog, ↓reduceIte]
  exact on_openLogged names rests _

/-- An archive at rest is opened with the rows that rest in its file. -/
theorem Rests.opens
    (names : NamesArchive text)
    (rests : Rests files text rows) :
    (OpenArchive.ofText text []).on files =
      (.ok (openedAs files text rows), withLog files text) :=
  (OpenArchive.on_ofText names.location names.isKept (names.makeParents files)
    (names.nameOf? files) []).trans (on_openPlace names rests text)

/-- All rows of an archive are reached that was opened where it rested. -/
theorem reach_openedAs (left : Files) :
    ((openedAs files text rows).reach .rows).on left = (.ok (openedAs files text rows), left) := by
  have again : ((openedAs files text rows).readAgain .use).on left =
      (.ok (openedAs files text rows), left) := rfl
  have isLaidOut :
      ((openedAs files text rows).kept.layout.table? ArchiveReading.rows.table).isNone = false := by
    have isTable : (openedAs files text rows).kept.layout.table? ArchiveReading.rows.table =
        some ⟨.table, Layout.rowTable, Layout.rowColumns⟩ :=
      Layout.table?_rowTable
    rw [isTable]
    rfl
  have canQuery :
      (Attempt.found ArchiveStage.use ((ArchiveReading.rows.query?.map
        (·.check (openedAs files text rows).kept.layout)).getD (.ok ()))).on left =
          (.ok (), left) := by
    have checked : Query.all.check (openedAs files text rows).kept.layout = .ok () :=
      Layout.check_all_standard
    rw [ArchiveReading.query?, Option.map_some, Option.getD_some, checked]
    rfl
  have readLog : ((openedAs files text rows).readLog
      ((openedAs files text rows).effective .rows)).on left =
        (.ok (openedAs files text rows), left) := rfl
  unfold OpenArchive.reach
  refine (Attempt.on_bind_ok again).trans ?_
  simp only [isLaidOut, Bool.false_eq_true, ↓reduceIte]
  refine (Attempt.on_bind_ok canQuery).trans ?_
  exact readLog

end Opening

section Closing

variable
  {text : String}
  {files : Files}
  {rows : List Row}

/-- What a log holds goes to the file of an archive when it is closed. -/
def filled (files : Files) (name : FileName) : Files :=
  match files.node? (Place.beside [name] Files.logEnding) with
  | some (.file (.log kept _)) => files.put [name] (.file (.archive kept))
  | _ => files

/-- A file beside an archive that is taken away is gone, and nothing else with it. -/
theorem node?_dropBeside
    {place other : Place}
    {ending : String}
    (noFolder : files.node? (place.beside ending) ≠ some .folder)
    (notGiven : other.isGiven = false) :
    (files.dropBeside place ending).node? other =
      if place.beside ending = other then none else files.node? other := by
  unfold Files.dropBeside
  cases stands : files.node? (place.beside ending) with
  | none =>
      dsimp only
      split
      · rename_i isOther
        rw [← isOther, stands]
      · rfl
  | some node =>
      cases node with
      | folder =>
          exact absurd stands noFolder
      | file content =>
          exact FileTree.node?_vacate files notGiven

theorem node?_filled_of_ne
    {name : FileName}
    {other : Place}
    (notGiven : other.isGiven = false)
    (elsewhere : [name] ≠ other) :
    (filled files name).node? other = files.node? other := by
  unfold filled
  split
  · rw [FileTree.node?_put _ _ notGiven, if_neg elsewhere]
  · rfl

/-- The files without the log of an archive and without the index of that. -/
def withoutLog (files : Files) (place : Place) : Files :=
  (files.dropBeside place Files.logEnding).dropBeside place Files.indexEnding

section WithoutLog

variable
  {place : Place}
  (noLogFolder : files.node? (place.beside Files.logEnding) ≠ some .folder)
  (noFolder : files.node? (place.beside Files.indexEnding) ≠ some .folder)

include noLogFolder noFolder

theorem noFolder_dropBeside_log :
    (files.dropBeside place Files.logEnding).node? (place.beside Files.indexEnding) ≠
      some .folder := by
  rw [node?_dropBeside noLogFolder Files.isGiven_index, if_neg (by simp)]
  exact noFolder

theorem node?_withoutLog
    {other : Place}
    (notGiven : other.isGiven = false) :
    (withoutLog files place).node? other =
      if place.beside Files.indexEnding = other then none
      else if place.beside Files.logEnding = other then none
      else files.node? other := by
  rw [withoutLog, node?_dropBeside (noFolder_dropBeside_log noLogFolder noFolder) notGiven,
    node?_dropBeside noLogFolder notGiven]

end WithoutLog

/-- Closing an archive fills its file and leaves neither the log nor the index of it. -/
theorem node?_closeLog
    {name : FileName}
    {log : OpenLog}
    {content indexed : StoredFile}
    (hasLog : files.node? (Place.beside [name] Files.logEnding) = some (.file content))
    (hasIndex : files.node? (Place.beside [name] Files.indexEnding) = some (.file indexed))
    (mayChange : log.isReadOnly = false)
    (withIndex : log.hasIndex = true)
    {other : Place}
    (notGiven : other.isGiven = false) :
    (files.closeLog [name] log).node? other =
      if Place.beside [name] Files.indexEnding = other then none
      else if Place.beside [name] Files.logEnding = other then none
      else (filled files name).node? other := by
  have filledLog : (filled files name).node? (Place.beside [name] Files.logEnding) =
      some (.file content) := by
    rw [node?_filled_of_ne Files.isGiven_log (by simp), hasLog]
  have filledIndex : (filled files name).node? (Place.beside [name] Files.indexEnding) =
      some (.file indexed) := by
    rw [node?_filled_of_ne Files.isGiven_index (by simp), hasIndex]
  have closed : files.closeLog [name] log = withoutLog (filled files name) [name] := by
    rw [Files.closeLog, mayChange, withIndex]
    rfl
  rw [closed]
  exact node?_withoutLog (by simp [filledLog]) (by simp [filledIndex]) notGiven

theorem node?_eq_of_isGiven
    {place : Place}
    (isGiven : place.isGiven = true)
    (other : Files) :
    files.node? place = other.node? place := by
  rw [FileTree.node?, FileTree.node?, isGiven, if_pos rfl, if_pos rfl]

/-- A place is that of an archive, of its log or of the index of that. -/
def IsAround (place touched : Place) : Prop :=
  touched = place ∨ touched = place.beside Files.logEnding ∨
    touched = place.beside Files.indexEnding

/-- Files are as others, but for an archive, its log and the index of that. -/
def AgreeAround (place : Place) (files other : Files) : Prop :=
  ∀ elsewhere, ¬IsAround place elsewhere → files.node? elsewhere = other.node? elsewhere

namespace AgreeAround

variable
  {place touched : Place}
  {other another : Files}

theorem refl (place : Place) (files : Files) : AgreeAround place files files :=
  fun _ _ => rfl

theorem trans
    (first : AgreeAround place files other)
    (second : AgreeAround place other another) :
    AgreeAround place files another := by
  intro elsewhere notAround
  rw [first elsewhere notAround, second elsewhere notAround]

theorem put
    (isAround : IsAround place touched)
    (node : FileNode StoredFile)
    (files : Files) :
    AgreeAround place (files.put touched node) files := by
  intro elsewhere notAround
  cases isGiven : elsewhere.isGiven with
  | true =>
      exact node?_eq_of_isGiven isGiven files
  | false =>
      refine (FileTree.node?_put files node isGiven).trans (if_neg ?_)
      rintro rfl
      exact notAround isAround

theorem dropBeside
    {ending : String}
    (isAround : IsAround place (place.beside ending))
    (noFolder : files.node? (place.beside ending) ≠ some .folder) :
    AgreeAround place (files.dropBeside place ending) files := by
  intro elsewhere notAround
  cases isGiven : elsewhere.isGiven with
  | true =>
      exact node?_eq_of_isGiven isGiven files
  | false =>
      refine (node?_dropBeside noFolder isGiven).trans (if_neg ?_)
      rintro rfl
      exact notAround isAround

theorem withoutLog
    (noLogFolder : files.node? (place.beside Files.logEnding) ≠ some .folder)
    (noFolder : files.node? (place.beside Files.indexEnding) ≠ some .folder) :
    AgreeAround place (withoutLog files place) files :=
  (AgreeAround.dropBeside (.inr (.inr rfl)) (noFolder_dropBeside_log noLogFolder noFolder)).trans
    (.dropBeside (.inr (.inl rfl)) noLogFolder)

/-- A journal is not among what is around an archive. -/
theorem noJournal
    (agree : AgreeAround place files other)
    (noJournal : other.node? (place.beside Files.journalEnding) = none) :
    files.node? (place.beside Files.journalEnding) = none := by
  rw [agree _ (by simp [IsAround]), noJournal]

end AgreeAround

/-- Files are as others, but for those around an archive in the current folder. -/
def AgreeBeside (text : String) (files other : Files) : Prop :=
  ∀ place : Place, [FilePath.ofText text] ≠ place →
    Place.beside [FilePath.ofText text] Files.logEnding ≠ place →
      Place.beside [FilePath.ofText text] Files.indexEnding ≠ place →
        files.node? place = other.node? place

theorem agreeBeside_of_agreeAround
    {other : Files}
    (agree : AgreeAround [FilePath.ofText text] files other) :
    AgreeBeside text files other := by
  intro place notArchive notLog notIndex
  refine agree place ?_
  rintro (rfl | rfl | rfl)
  · exact notArchive rfl
  · exact notLog rfl
  · exact notIndex rfl

theorem agreeAround_withLog :
    AgreeAround [FilePath.ofText text] (withLog files text) files :=
  (AgreeAround.put (.inr (.inr rfl)) _ _).trans (.put (.inr (.inl rfl)) _ _)

theorem agreeBeside_withLog : AgreeBeside text (withLog files text) files :=
  agreeBeside_of_agreeAround agreeAround_withLog

/-- An archive rests again after its log was closed, and all other files are as they were. -/
theorem rests_closeLog
    (names : NamesArchive text)
    (rests : Rests files text rows)
    {left : Files}
    {log : OpenLog}
    {content indexed : StoredFile}
    {after : List Row}
    (hasLog : left.node? (Place.beside [FilePath.ofText text] Files.logEnding) =
      some (.file content))
    (hasIndex : left.node? (Place.beside [FilePath.ofText text] Files.indexEnding) =
      some (.file indexed))
    (mayChange : log.isReadOnly = false)
    (withIndex : log.hasIndex = true)
    (isFilled : (filled left (FilePath.ofText text)).node? [FilePath.ofText text] =
      some (.file (.archive (.withRows after))))
    (agree : AgreeBeside text left files) :
    Rests (left.closeLog [FilePath.ofText text] log) text after ∧
      AgreeBeside text (left.closeLog [FilePath.ofText text] log) files := by
  have closed := @node?_closeLog left (FilePath.ofText text) log content indexed hasLog hasIndex
    mayChange withIndex
  have agrees : AgreeBeside text (left.closeLog [FilePath.ofText text] log) files := by
    intro place notArchive notLog notIndex
    cases isGiven : place.isGiven with
    | true =>
        exact node?_eq_of_isGiven isGiven files
    | false =>
        rw [closed isGiven, if_neg notIndex, if_neg notLog, node?_filled_of_ne isGiven notArchive]
        exact agree place notArchive notLog notIndex
  refine ⟨⟨?_, ?_, ?_, ?_⟩, agrees⟩
  · rw [closed names.notGiven, if_neg (by simp), if_neg (by simp), isFilled]
  · rw [agrees _ (by simp) (by simp) (by simp), rests.noJournal]
  · rw [closed Files.isGiven_log, if_neg (by simp), if_pos rfl]
  · rw [closed Files.isGiven_index, if_pos rfl]

/-- The files after changes of an archive went to its log. -/
def withEntries (files : Files) (text : String) (rows : List Row) : Files :=
  (withLog files text).put (Place.beside [FilePath.ofText text] Files.logEnding)
    (.file (.log (.withRows rows) false))

theorem keepInLog_withLog (after : List Row) :
    (withLog files text).keepInLog [FilePath.ofText text] (begunLog files text) (.withRows after) =
      withEntries files text after :=
  Files.keepInLog_eq rfl node?_withLog_log _

theorem node?_withEntries_log (after : List Row) :
    (withEntries files text after).node? (Place.beside [FilePath.ofText text] Files.logEnding) =
      some (.file (.log (.withRows after) false)) := by
  simp [withEntries, FileTree.node?_put]

theorem node?_withEntries_index (after : List Row) :
    (withEntries files text after).node? (Place.beside [FilePath.ofText text] Files.indexEnding) =
      some (.file .index) := by
  simp [withEntries, FileTree.node?_put, node?_withLog_index]

theorem agreeBeside_withEntries (after : List Row) :
    AgreeBeside text (withEntries files text after) files :=
  agreeBeside_of_agreeAround
    ((AgreeAround.put (.inr (.inl rfl)) _ _).trans agreeAround_withLog)

/-- An archive at rest that was opened rests again when it is closed, as it was or as changed. -/
theorem Rests.closes
    (names : NamesArchive text)
    (rests : Rests files text rows)
    {stored : OpenArchive}
    {after : List Row}
    (isStored : stored = (openedAs files text rows).withKept (.withRows after)) :
    let kept := stored.keepAfter (openedAs files text rows) (withLog files text)
    Rests (kept.1.close kept.2) text after ∧ AgreeBeside text (kept.1.close kept.2) files := by
  subst isStored
  dsimp only
  unfold OpenArchive.keepAfter
  split
  · rename_i isSame
    have sameRows : after = rows :=
      congrArg (fun kept : KeptArchive => kept.archive.rows) (beq_iff_eq.mp isSame)
    have notFilled : filled (withLog files text) (FilePath.ofText text) = withLog files text := by
      rw [filled, node?_withLog_log]
    refine rests_closeLog names rests node?_withLog_log node?_withLog_index rfl rfl ?_
      agreeBeside_withLog
    rw [notFilled, sameRows]
    simp [withLog, Files.putBeside, FileTree.node?_put, names.notGiven, rests.inFile]
  · have isKept : ((openedAs files text rows).withKept (.withRows after)).keep
        (withLog files text) =
          ({ (openedAs files text rows).withKept (.withRows after) with
              log := some { begunLog files text with hasEntries := true } },
            withEntries files text after) :=
      congrArg (Prod.mk _) (keepInLog_withLog after)
    rw [isKept]
    refine rests_closeLog names rests (node?_withEntries_log after)
      (node?_withEntries_index after) rfl rfl ?_ (agreeBeside_withEntries after)
    rw [filled, node?_withEntries_log, FileTree.node?_put _ _ names.notGiven, if_pos rfl]

end Closing

end ActivityCatalog
