import ActivityCatalog.Proofs.Archive.Reopening
import Mathlib.Data.List.Induction

namespace ActivityCatalog

/-!
# Schema versions of archives that are opened again and again

An archive that tells one schema version is opened and closed by visitors, any number of times and
several at once.  A supported version lets them in and stays the only one.  A newer one is the
reason to refuse them all.  But a number that cannot be read as a schema version is taken for none:
it is no reason to refuse anybody, however great it is, and each who is let in leaves the supported
version behind it once more.
-/

/-- What visitors do with an archive: one more opens it, or one of those who have it open goes. -/
inductive ArchiveVisit where
  | opening
  | closing (index : Nat)
  deriving DecidableEq, Repr

/-- Those who have an archive open, the last first, and the files. -/
structure Visitors where
  openings : List OpenArchive
  files : Files

/-- The archive with the same rows and with some numbers as its schema versions. -/
def Archive.telling (archive : Archive) (versions : List Int) : Archive :=
  { archive with schemaVersions := versions.map .integer }

theorem KeptArchive.TellsOnly.telling_eq
    {kept : KeptArchive}
    {version : Int}
    (tellsOnly : kept.TellsOnly version) :
    kept.archive.telling [version] = kept.archive :=
  congrArg (Archive.mk kept.archive.rows) tellsOnly.isOnly.symm

namespace Visitors

/-- Open an archive once more; with the answer go the visitors after it. -/
def opening (visitors : Visitors) (text : String) : Except ArchiveFault OpenArchive × Visitors :=
  let (answer, files) := (OpenArchive.ofText text visitors.openings).on visitors.files
  (answer, ⟨answer.toOption.toList ++ visitors.openings, files⟩)

/-- What is shown to one more who opens an archive. -/
def shown (visitors : Visitors) (text : String) : Except ArchiveFault Archive :=
  (visitors.opening text).1.map OpenArchive.archive

/-- Close an archive where it is open; only the last who goes touches the files. -/
def closing (visitors : Visitors) (index : Nat) : Visitors :=
  match visitors.openings[index]? with
  | none =>
      visitors
  | some opened =>
      let openings := visitors.openings.eraseIdx index
      ⟨openings, if openings.isEmpty then opened.close visitors.files else visitors.files⟩

/-- The visitors after a visit. -/
def visit (text : String) (visitors : Visitors) : ArchiveVisit → Visitors
  | .opening => (visitors.opening text).2
  | .closing index => visitors.closing index

/-- The visitors after some visits. -/
def run (visitors : Visitors) (text : String) (visits : List ArchiveVisit) : Visitors :=
  visits.foldl (visit text) visitors

/-- What visitors of a place keep there is an archive. -/
def Keep (visitors : Visitors) (place : Place) (archive : Archive) : Prop :=
  ∃ now, KeptAt place visitors.openings visitors.files now ∧ now.archive = archive

/-- Visitors of a place find what goes on from an archive there, with some schema versions. -/
structure Find (visitors : Visitors) (text : String) (place : Place) (kept : KeptArchive)
    (versions : List Int) : Prop where
  leads : LeadsToArchive text place visitors.files
  goesOn : ∃ now, KeptAt place visitors.openings visitors.files now ∧ kept.GoesOn versions now

variable
  {visitors : Visitors}
  {text : String}
  {place : Place}
  {kept : KeptArchive}
  {version : Int}
  {versions : List Int}

/-- Closing an archive leaves what the others find, or what is found when it is opened again. -/
theorem Find.closing
    (find : visitors.Find text place kept versions)
    (index : Nat) :
    (visitors.closing index).Find text place kept versions := by
  obtain ⟨now, isKept, goesOn⟩ := find.goesOn
  unfold Visitors.closing
  cases isOpen : visitors.openings[index]? with
  | none =>
      exact find
  | some opened =>
      dsimp only
      cases others : visitors.openings.eraseIdx index with
      | nil =>
          have closed := isKept.close find.leads.notGiven (List.mem_of_getElem? isOpen)
          exact ⟨find.leads.of_agree closed.2, now, closed.1, goesOn⟩
      | cons first rest =>
          refine ⟨find.leads, now, isKept.subset ?_, goesOn⟩
          rw [← others]
          exact List.eraseIdx_subset

/-- What is shown to one more visitor, and what others find afterwards. -/
theorem Find.opening (find : visitors.Find text place kept versions) :
    ∃ now, kept.GoesOn versions now ∧
      (visitors.shown text = now.openedInPlace.1.map fun _ => now.openedInPlace.2.archive) ∧
      ∀ {others}, kept.GoesOn others now.openedInPlace.2 →
        (visitors.opening text).2.Find text place kept others := by
  obtain ⟨now, isKept, goesOn⟩ := find.goesOn
  have opens := find.leads.opens isKept
  refine ⟨now, goesOn, ?_, ?_⟩
  · have shows := congrArg (fun shown => KeptArchive.archive <$> shown) opens.shows
    exact (Functor.map_map _ _ _).symm.trans (shows.trans (Functor.map_map _ _ _))
  · intro others goesOnThen
    exact ⟨find.leads.of_agree opens.agree, _, opens.isKept, goesOnThen⟩

/-- Visitors find what as many as opened the archive before them have made of it. -/
theorem Find.run
    (versions : Nat → List Int)
    (find : visitors.Find text place kept (versions 0))
    (opens : ∀ {count now}, kept.GoesOn (versions count) now →
      kept.GoesOn (versions (count + 1)) now.openedInPlace.2)
    (visits : List ArchiveVisit) :
    (visitors.run text visits).Find text place kept (versions (visits.count .opening)) := by
  induction visits using List.reverseRecOn with
  | nil =>
      exact find
  | append_singleton visits last inductionHypothesis =>
      rw [Visitors.run, List.foldl_append, List.count_append]
      cases last with
      | opening =>
          obtain ⟨now, goesOn, -, finds⟩ := inductionHypothesis.opening
          exact finds (opens goesOn)
      | closing index =>
          exact inductionHypothesis.closing index

theorem Find.keep (find : visitors.Find text place kept versions) :
    visitors.Keep place (kept.archive.telling versions) := by
  obtain ⟨now, isKept, goesOn⟩ := find.goesOn
  exact ⟨now, isKept, goesOn.isArchive⟩

/-- What is shown to one more visitor, if all that goes on from the archive is opened alike. -/
theorem Find.shown_eq
    {answer : Except ArchiveFault Unit}
    {others : List Int}
    (find : visitors.Find text place kept versions)
    (opens : ∀ {now}, kept.GoesOn versions now →
      now.openedInPlace.1 = answer ∧ kept.GoesOn others now.openedInPlace.2) :
    visitors.shown text = answer.map fun _ => kept.archive.telling others := by
  obtain ⟨now, goesOn, shows, -⟩ := find.opening
  obtain ⟨isAnswer, goesOnThen⟩ := opens goesOn
  have isShown : now.openedInPlace.2.archive = kept.archive.telling others := goesOnThen.isArchive
  rw [shows, isAnswer, isShown]

section Versions

variable
  (find : visitors.Find text place kept [version])
  (tellsOnly : kept.TellsOnly version)
  (visits : List ArchiveVisit)

include find tellsOnly

/-- A supported version is shown to all whom nothing else hinders, and stays the only one. -/
theorem Find.shown_of_supported
    (notNegative : 0 ≤ version)
    (supported : version ≤ Archive.currentSchema) :
    (visitors.run text visits).shown text = kept.prepared.map (fun _ => kept.archive) ∧
      (visitors.run text visits).Keep place kept.archive := by
  have opens : ∀ {now}, kept.GoesOn [version] now → _ := fun goesOn =>
    goesOn.of_supported tellsOnly rfl notNegative supported
  have found := find.run (fun _ => [version]) (fun goesOn => (opens goesOn).2) visits
  refine ⟨?_, tellsOnly.telling_eq ▸ found.keep⟩
  rw [found.shown_eq opens, tellsOnly.telling_eq]
  cases kept.prepared <;> rfl

/-- A newer version is the reason to refuse all whom nothing else hinders. -/
theorem Find.shown_of_newer
    (newer : Archive.currentSchema < version)
    (notTooGreat : version ≤ Archive.greatestSchema) :
    (visitors.run text visits).shown text =
        kept.prepared.bind (fun _ => .error (.newerSchema version Archive.currentSchema)) ∧
      (visitors.run text visits).Keep place kept.archive := by
  have opens : ∀ {now}, kept.GoesOn [version] now → _ := fun goesOn =>
    goesOn.of_newer rfl newer notTooGreat
  have found := find.run (fun _ => [version]) (fun goesOn => (opens goesOn).2) visits
  refine ⟨?_, tellsOnly.telling_eq ▸ found.keep⟩
  rw [found.shown_eq opens]
  cases kept.prepared <;> rfl

/-- Where no version can be added, one that cannot be read stays the only one. -/
theorem Find.shown_of_notMarkable
    {fault : ArchiveFault}
    (unreadable : version < 0 ∨ Archive.greatestSchema < version)
    (notMarkable : kept.markable = .error fault) :
    (visitors.run text visits).shown text = .error fault ∧
      (visitors.run text visits).Keep place kept.archive := by
  have opens : ∀ {now}, kept.GoesOn [version] now →
      now.openedInPlace.1 = .error fault ∧ kept.GoesOn [version] now.openedInPlace.2 := by
    intro now goesOn
    obtain ⟨answer, stays, -⟩ := goesOn.of_unread tellsOnly rfl unreadable
    exact ⟨answer.trans notMarkable, stays fault notMarkable⟩
  have found := find.run (fun _ => [version]) (fun goesOn => (opens goesOn).2) visits
  exact ⟨found.shown_eq opens, tellsOnly.telling_eq ▸ found.keep⟩

/-- A version that cannot be read is shown to everybody, and each adds the supported one to it. -/
theorem Find.shown_of_unread
    (unreadable : version < 0 ∨ Archive.greatestSchema < version)
    (isMarkable : kept.markable = .ok ()) :
    let added := List.replicate (visits.count .opening) Archive.currentSchema
    (visitors.run text visits).shown text =
        .ok (kept.archive.telling (version :: added ++ [Archive.currentSchema])) ∧
      (visitors.run text visits).Keep place (kept.archive.telling (version :: added)) := by
  have opens : ∀ {versions now}, kept.GoesOn (version :: versions) now →
      now.openedInPlace.1 = .ok () ∧
        kept.GoesOn (version :: versions ++ [Archive.currentSchema]) now.openedInPlace.2 := by
    intro versions now goesOn
    obtain ⟨answer, -, adds⟩ := goesOn.of_unread tellsOnly rfl unreadable
    exact ⟨answer.trans isMarkable, adds isMarkable⟩
  have found := find.run (fun count => version :: List.replicate count Archive.currentSchema)
    (fun goesOn => List.replicate_succ' ▸ (opens goesOn).2) visits
  exact ⟨found.shown_eq opens, found.keep⟩

end Versions

/--
Whoever opens an archive that tells one schema version, after any visits of others, is shown it by
that version.  A supported version lets everybody in whom nothing else hinders, and stays the only
one.  A newer version is the reason to refuse them.  But a number that cannot be read as a schema
version refuses nobody for whom the supported one can be added, which each has done before.
-/
theorem shown_by_version
    (leads : LeadsToArchive text place visitors.files)
    (isKept : KeptAt place visitors.openings visitors.files kept)
    (tellsOnly : kept.TellsOnly version)
    (visits : List ArchiveVisit) :
    let reached := visitors.run text visits
    let added := List.replicate (visits.count .opening) Archive.currentSchema
    (0 ≤ version → version ≤ Archive.currentSchema →
      reached.shown text = kept.prepared.map (fun _ => kept.archive) ∧
        reached.Keep place kept.archive) ∧
    (Archive.currentSchema < version → version ≤ Archive.greatestSchema →
      reached.shown text =
          kept.prepared.bind (fun _ => .error (.newerSchema version Archive.currentSchema)) ∧
        reached.Keep place kept.archive) ∧
    (version < 0 ∨ Archive.greatestSchema < version →
      match kept.markable with
      | .ok _ =>
          reached.shown text =
              .ok (kept.archive.telling (version :: added ++ [Archive.currentSchema])) ∧
            reached.Keep place (kept.archive.telling (version :: added))
      | .error fault =>
          reached.shown text = .error fault ∧ reached.Keep place kept.archive) := by
  have find : visitors.Find text place kept [version] := ⟨leads, kept, isKept, tellsOnly.goesOn⟩
  refine ⟨find.shown_of_supported tellsOnly visits, find.shown_of_newer tellsOnly visits, ?_⟩
  intro unreadable
  cases isMarkable : kept.markable with
  | ok _ =>
      exact find.shown_of_unread tellsOnly visits unreadable isMarkable
  | error fault =>
      exact find.shown_of_notMarkable tellsOnly visits unreadable isMarkable

end Visitors

/-- An archive without rows that tells a schema version. -/
def KeptArchive.versioned (version : Int) : KeptArchive :=
  { KeptArchive.fresh true with archive := ⟨[], [.integer version]⟩ }

/-- The file of such an archive. -/
def versionedFiles (version : Int) : Files :=
  ⟨[([FilePath.ofText "store.db"], .file (.archive (.versioned version)))], []⟩

/-- Nothing stands in any other place. -/
theorem node?_versionedFiles
    (version : Int)
    {place : Place}
    (notGiven : place.isGiven = false)
    (apart : ([FilePath.ofText "store.db"] == place) = false) :
    (versionedFiles version).node? place = none := by
  simp [FileTree.node?, versionedFiles, notGiven, apart]

theorem keptAt_versionedFiles (version : Int) :
    KeptAt [FilePath.ofText "store.db"] [] (versionedFiles version) (.versioned version) := by
  have noLog : (versionedFiles version).node?
      (Place.beside [FilePath.ofText "store.db"] Files.logEnding) = none :=
    node?_versionedFiles version (by decide +kernel) (by decide +kernel)
  have noIndex : (versionedFiles version).node?
      (Place.beside [FilePath.ofText "store.db"] Files.indexEnding) = none :=
    node?_versionedFiles version (by decide +kernel) (by decide +kernel)
  have noJournal : (versionedFiles version).node?
      (Place.beside [FilePath.ofText "store.db"] Files.journalEnding) = none :=
    node?_versionedFiles version (by decide +kernel) (by decide +kernel)
  have notGiven : Place.isGiven [FilePath.ofText "store.db"] = false := by
    decide +kernel
  have stands : (versionedFiles version).node? [FilePath.ofText "store.db"] =
      some (.file (.archive (.versioned version))) := by
    simp [FileTree.node?, versionedFiles, notGiven]
  exact
    { noJournal
      noFolder := by simp [noIndex]
      inPlace := ⟨_, stands, .inFile (.inl noLog) rfl⟩
      areHeld := by simp
      keepsLog := fun areSome => absurd rfl areSome }

theorem tellsOnly_versioned (version : Int) : (KeptArchive.versioned version).TellsOnly version :=
  ⟨rfl, _, Layout.versionColumnOf_standard, rfl⟩

theorem markable_versioned (version : Int) : (KeptArchive.versioned version).markable = .ok () := by
  have laidOut : (KeptArchive.versioned version).laidOut false =
      .ok (KeptArchive.versioned version) :=
    KeptArchive.laidOut_eq_ok.mpr ⟨_, Layout.completed_standard _, rfl⟩
  refine bind_eq_ok.mpr ⟨_, bind_eq_ok.mpr ⟨_, rfl, laidOut⟩, ?_⟩
  refine bind_eq_ok.mpr ⟨_, mapError_eq_ok.mpr Layout.versionColumnOf_standard, ?_⟩
  exact mapError_eq_ok.mpr Layout.checkRequired_standard

namespace Visitors

/-- Nobody is refused for a version that is too great to be read, and all add one to it. -/
theorem shown_by_version_great :
    shown (run ⟨[], versionedFiles 4294967296⟩ "store.db" [.opening, .opening, .closing 1])
        "store.db" =
      .ok ⟨[], [.integer 4294967296, .integer 1, .integer 1, .integer 1]⟩ := by
  have byVersion := @shown_by_version ⟨[], versionedFiles 4294967296⟩ _ _ _ _
    (namesArchive_store.leads _) (keptAt_versionedFiles 4294967296)
    (tellsOnly_versioned 4294967296) [.opening, .opening, .closing 1]
  have isShown := byVersion.2.2 (.inr (by decide))
  rw [markable_versioned] at isShown
  exact isShown.1

/-- An archive is opened though its version is newer than the supported one, which is added. -/
theorem shown_newer :
    Archive.currentSchema < 4294967296 ∧
      shown ⟨[], versionedFiles 4294967296⟩ "store.db" =
        .ok ⟨[], [.integer 4294967296, .integer 1]⟩ := by
  have find : Find ⟨[], versionedFiles 4294967296⟩ "store.db" [FilePath.ofText "store.db"]
      (.versioned 4294967296) [4294967296] :=
    ⟨namesArchive_store.leads _, _, keptAt_versionedFiles _, (tellsOnly_versioned _).goesOn⟩
  have isShown := find.shown_of_unread (tellsOnly_versioned _) [] (.inr (by decide))
    (markable_versioned _)
  exact ⟨by decide, isShown.1⟩

end Visitors

end ActivityCatalog
