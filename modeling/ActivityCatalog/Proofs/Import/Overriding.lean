import ActivityCatalog.Proofs.Import.Failing

namespace ActivityCatalog

/-!
# Imports that ask for a main activity besides

To designate a main activity and then another is to designate the other.  So two files with the
same records are imported alike if a main activity is asked for, whatever their own main
activities are, as long as each could be imported as it is.  The own main activity of a file is
designated all the same before the one that is asked for: if it is not stored, the file cannot be
imported, and if the one that is asked for is not stored, the own one stays.
-/

namespace OpenArchive

variable
  {opened designated : OpenArchive}

/-- What can be touched is not hindered at all. -/
theorem obstacle_of_checkWritable (writable : opened.checkWritable true = .ok ()) :
    opened.obstacle = none := by
  unfold checkWritable at writable
  cases hinders : opened.obstacle with
  | none =>
      rfl
  | some obstacle =>
      rw [hinders] at writable
      cases writable

theorem setRoot_of_setRoot
    {other : String}
    (designates : opened.setRoot other = .ok designated)
    (id : String) :
    designated.setRoot id = opened.setRoot id := by
  obtain ⟨marked, isDesignated⟩ := setRoot_eq_ok designates
  obtain ⟨_, writable, -⟩ := bind_eq_ok.mp designates
  -- The first designation has touched a row, so that nothing hinders the second one.
  have touches : opened.touchesRoot other = true := by
    obtain ⟨⟨row, isRow, hasId⟩, -⟩ := Archive.setRoot_eq_ok.mp marked
    refine List.any_eq_true.mpr ⟨row, isRow, ?_⟩
    rw [hasId, beq_self_eq_true, Bool.or_true]
  rw [touches] at writable
  have unhindered := obstacle_of_checkWritable writable
  have stillUnhindered : designated.obstacle = none := by
    rw [isDesignated]
    exact unhindered
  have sameElse : designated.withArchive = opened.withArchive := by
    rw [isDesignated]
    rfl
  rw [setRoot_of_obstacle stillUnhindered, setRoot_of_obstacle unhindered,
    Archive.setRoot_of_setRoot marked, sameElse]

theorem setRoot_of_setRoot?
    {root : Option String}
    (designates : opened.setRoot? root = .ok designated)
    (id : String) :
    designated.setRoot id = opened.setRoot id := by
  cases root with
  | none =>
      cases designates
      rfl
  | some other =>
      exact setRoot_of_setRoot designates id

/-- After two listings of the same records the same can be designated, with the same outcome. -/
theorem setRoot_of_importListing
    {first second : Listing}
    (sameActivities : first.activities = second.activities)
    {left right : OpenArchive}
    {leftCount rightCount : Nat}
    (leftImported : opened.importListing first = .ok (left, leftCount))
    (rightImported : opened.importListing second = .ok (right, rightCount))
    (id : String) :
    left.setRoot id = right.setRoot id ∧ leftCount = rightCount := by
  obtain ⟨stored, leftStored, leftRest⟩ := bind_eq_ok.mp leftImported
  obtain ⟨_, leftMarked, leftFinished⟩ := bind_eq_ok.mp leftRest
  obtain ⟨_, rightStored, rightRest⟩ := bind_eq_ok.mp rightImported
  obtain ⟨_, rightMarked, rightFinished⟩ := bind_eq_ok.mp rightRest
  cases leftFinished
  cases rightFinished
  rw [← sameActivities, leftStored] at rightStored
  cases rightStored
  rw [setRoot_of_setRoot? leftMarked, setRoot_of_setRoot? rightMarked, sameActivities]
  exact ⟨rfl, rfl⟩

end OpenArchive

namespace Import

/-- Two imports both succeed or both fail, and leave the same files. -/
def Alike (first second : Except Fault Report × Files) : Prop :=
  first.1.isOk = second.1.isOk ∧ first.2 = second.2

section Stores

variable
  {opened : OpenArchive}
  {listing first second : Listing}
  {root : Option String}
  {id : String}

/-- What can be stored with a main activity that is asked for can be stored as it is. -/
theorem storeIn_none_of_ok (isOk : (storeIn opened listing root).1.isOk = true) :
    (storeIn opened listing none).1.isOk = true := by
  cases imported : opened.importListing listing with
  | error cause =>
      rw [storeIn_of_refused imported] at isOk
      cases isOk
  | ok made =>
      rw [storeIn_none_of_imported imported]
      rfl

/-- What fails to be stored leaves what is left if no main activity is asked for. -/
theorem storeIn_none_of_error (isError : (storeIn opened listing root).1.isOk = false) :
    (storeIn opened listing root).2 = (storeIn opened listing none).2 := by
  cases imported : opened.importListing listing with
  | error cause =>
      rw [storeIn_of_refused imported, storeIn_of_refused imported]
  | ok made =>
      cases root with
      | none =>
          rfl
      | some id =>
          cases outcome : made.1.setRoot id with
          | error cause =>
              rw [storeIn_of_unstored imported outcome, storeIn_none_of_imported imported]
          | ok designated =>
              rw [storeIn_of_designated imported outcome] at isError
              cases isError

/-- Listings of the same records that can both be stored are stored alike with a main activity. -/
theorem storeIn_alike
    (sameActivities : first.activities = second.activities)
    (firstOk : (storeIn opened first none).1.isOk = true)
    (secondOk : (storeIn opened second none).1.isOk = true) :
    (storeIn opened first (some id)).1 = (storeIn opened second (some id)).1 ∧
      ((storeIn opened first (some id)).1.isOk = true →
        (storeIn opened first (some id)).2 = (storeIn opened second (some id)).2) := by
  cases firstImported : opened.importListing first with
  | error cause =>
      rw [storeIn_of_refused firstImported] at firstOk
      cases firstOk
  | ok left =>
      cases secondImported : opened.importListing second with
      | error cause =>
          rw [storeIn_of_refused secondImported] at secondOk
          cases secondOk
      | ok right =>
          obtain ⟨sameOutcome, sameCount⟩ :=
            OpenArchive.setRoot_of_importListing sameActivities firstImported secondImported id
          cases outcome : left.1.setRoot id with
          | error cause =>
              have rightOutcome := sameOutcome ▸ outcome
              rw [storeIn_of_unstored firstImported outcome,
                storeIn_of_unstored secondImported rightOutcome]
              exact ⟨rfl, nofun⟩
          | ok designated =>
              have rightOutcome := sameOutcome ▸ outcome
              rw [storeIn_of_designated firstImported outcome,
                storeIn_of_designated secondImported rightOutcome, sameCount]
              exact ⟨rfl, fun _ => rfl⟩

theorem listing_of_readChecked
    {files : Files}
    {file : String}
    (isListing : files.readListing file = .ok first)
    (isRead : readChecked files file = .ok second) :
    first = second := by
  obtain ⟨listing, hasListing, rest⟩ := bind_eq_ok.mp isRead
  obtain ⟨catalog, -, finished⟩ := bind_eq_ok.mp rest
  cases finished
  exact Except.ok.inj (isListing.symm.trans (mapError_eq_ok.mp hasListing))

end Stores

section Runs

variable
  {file firstFile secondFile archive : String}
  {root : Option String}
  {files : Files}

theorem run_none_of_ok (isOk : (run file archive root files).1.isOk = true) :
    (run file archive none files).1.isOk = true := by
  rcases run_cases file archive files with
    ⟨fault, after, -, -, fails⟩ | ⟨listing, opened, after, -, -, stores⟩
  · rw [fails root] at isOk
    cases isOk
  · rw [stores root] at isOk
    rw [stores none]
    exact storeIn_none_of_ok isOk

theorem run_none_of_error (isError : (run file archive root files).1.isOk = false) :
    (run file archive root files).2 = (run file archive none files).2 := by
  rcases run_cases file archive files with
    ⟨fault, after, -, -, fails⟩ | ⟨listing, opened, after, -, -, stores⟩
  · rw [fails root, fails none]
  · rw [stores root] at isError
    rw [stores root, stores none, storeIn_none_of_error isError]

/-- Files with the same records that can both be imported give the same with a main activity. -/
theorem run_alike
    {first second : Listing}
    (firstRead : files.readListing firstFile = .ok first)
    (secondRead : files.readListing secondFile = .ok second)
    (sameActivities : first.activities = second.activities)
    (firstOk : (run firstFile archive none files).1.isOk = true)
    (secondOk : (run secondFile archive none files).1.isOk = true)
    (id : String) :
    (run firstFile archive (some id) files).1 = (run secondFile archive (some id) files).1 ∧
      ((run firstFile archive (some id) files).1.isOk = true →
        (run firstFile archive (some id) files).2 =
          (run secondFile archive (some id) files).2) := by
  rcases run_cases firstFile archive files with
    ⟨fault, after, -, -, fails⟩ | ⟨listing, opened, after, isRead, attempt, stores⟩
  · rw [fails none] at firstOk
    cases firstOk
  · rcases run_cases secondFile archive files with
      ⟨fault, after, -, -, fails⟩ | ⟨other, again, left, otherRead, otherAttempt, otherStores⟩
    · rw [fails none] at secondOk
      cases secondOk
    · rw [attempt] at otherAttempt
      cases otherAttempt
      obtain rfl := listing_of_readChecked firstRead isRead
      obtain rfl := listing_of_readChecked secondRead otherRead
      rw [stores none] at firstOk
      rw [otherStores none] at secondOk
      obtain ⟨sameOutcome, sameArchive⟩ := storeIn_alike sameActivities firstOk secondOk
      rw [stores, otherStores]
      refine ⟨sameOutcome, fun isOk => ?_⟩
      rw [sameArchive isOk]

/--
Two files with the same records, but different main activities or none, are imported with a main
activity that is asked for.  If one of the imports succeeds, they are alike exactly when both
files can be imported as they are.  If both fail, they are alike exactly when the files as they
are leave the same.
-/
theorem override_alike_iff
    {first second : Listing}
    (firstRead : files.readListing firstFile = .ok first)
    (secondRead : files.readListing secondFile = .ok second)
    (sameActivities : first.activities = second.activities)
    (id : String) :
    Alike (run firstFile archive (some id) files) (run secondFile archive (some id) files) ↔
      if (run firstFile archive (some id) files).1.isOk ||
          (run secondFile archive (some id) files).1.isOk then
        (run firstFile archive none files).1.isOk = true ∧
          (run secondFile archive none files).1.isOk = true
      else
        (run firstFile archive none files).2 = (run secondFile archive none files).2 := by
  by_cases succeeds : (run firstFile archive (some id) files).1.isOk = true ∨
      (run secondFile archive (some id) files).1.isOk = true
  · rw [if_pos (Bool.or_eq_true_iff.mpr succeeds)]
    constructor
    · rintro ⟨sameSuccess, -⟩
      rcases succeeds with firstOk | secondOk
      · exact ⟨run_none_of_ok firstOk, run_none_of_ok (sameSuccess ▸ firstOk)⟩
      · exact ⟨run_none_of_ok (sameSuccess ▸ secondOk), run_none_of_ok secondOk⟩
    · rintro ⟨firstPlain, secondPlain⟩
      obtain ⟨sameReport, sameFiles⟩ :=
        run_alike firstRead secondRead sameActivities firstPlain secondPlain id
      refine ⟨congrArg Except.isOk sameReport, ?_⟩
      rcases succeeds with firstOk | secondOk
      · exact sameFiles firstOk
      · exact sameFiles (sameReport ▸ secondOk)
  -- Imports that fail leave what they leave if no main activity is asked for.
  · obtain ⟨firstFails, secondFails⟩ := not_or.mp succeeds
    rw [Bool.not_eq_true] at firstFails secondFails
    rw [firstFails, secondFails, Bool.or_self, if_neg Bool.false_ne_true, Alike,
      firstFails, secondFails, run_none_of_error firstFails, run_none_of_error secondFails]
    exact and_iff_right rfl

end Runs

/-- The hotel as a value that has its id. -/
def hotelValue : Json.Value :=
  .object [("id", .string "hotel")]

/-- A listing of the hotel whose main activity is stored nowhere. -/
def goneValue : Json.Value :=
  .object [("activities", .array [hotelValue]), ("root", .string "gone")]

/-- A listing of the hotel without a main activity. -/
def noneValue : Json.Value :=
  .array [hotelValue]

/-- The files of the hotel and of both listings, and an archive without rows. -/
def hotelFiles : Files :=
  ⟨[ ([FilePath.ofText "store.db"], .file (.archive (.withRows []))),
     ([FilePath.ofText "own.json"], .file (.bytes hotelValue.text.toUTF8.toList)),
     ([FilePath.ofText "gone.json"], .file (.bytes goneValue.text.toUTF8.toList)),
     ([FilePath.ofText "none.json"], .file (.bytes noneValue.text.toUTF8.toList)) ], []⟩

theorem readListing_of_text
    {files : Files}
    {file : String}
    {value : Json.Value}
    {listing : Listing}
    (hasText : files.readText file = .ok value.text)
    (kept : value.Kept)
    (fits : value.depth ≤ Json.Reader.textRoom)
    (isListing : Listing.ofValue value.canonical = .ok listing) :
    files.readListing file = .ok listing := by
  have isRead : Listing.ofText value.text = .ok listing := by
    rw [Listing.ofText, Json.Value.ofText_text kept fits]
    exact isListing
  rw [Files.readListing, hasText]
  exact mapError_eq_ok.mpr isRead

theorem readListing_hotelFiles :
    Rests hotelFiles "store.db" [] ∧
      hotelFiles.readListing "own.json" = .ok ⟨some "hotel", [hotel]⟩ ∧
      hotelFiles.readListing "gone.json" = .ok ⟨some "gone", [hotel]⟩ ∧
      hotelFiles.readListing "none.json" = .ok ⟨none, [hotel]⟩ := by
  have rests : Rests hotelFiles "store.db" [] := by
    constructor <;> decide +kernel
  have ownText : hotelFiles.readText "own.json" = .ok hotelValue.text := by
    decide +kernel
  have goneText : hotelFiles.readText "gone.json" = .ok goneValue.text := by
    decide +kernel
  have noneText : hotelFiles.readText "none.json" = .ok noneValue.text := by
    decide +kernel
  refine ⟨rests, ?_, ?_, ?_⟩
  · apply readListing_of_text ownText (Json.Value.kept_of_fitsWord rfl) (by decide)
    rfl
  · apply readListing_of_text goneText (Json.Value.kept_of_fitsWord rfl) (by decide)
    rfl
  · apply readListing_of_text noneText (Json.Value.kept_of_fitsWord rfl) (by decide)
    rfl

/-- A listing of the hotel makes a catalog, whatever its main activity is. -/
theorem readChecked_of_hotel
    {files : Files}
    {file : String}
    {root : Option String}
    (isListing : files.readListing file = .ok ⟨root, [hotel]⟩) :
    readChecked files file = .ok ⟨root, [hotel]⟩ := by
  obtain ⟨catalog, built⟩ : ∃ catalog, Catalog.build ⟨root, [hotel]⟩ = .ok catalog :=
    ⟨_, Catalog.build_eq_ok.mpr ⟨_, _, rfl, rfl, rfl⟩⟩
  exact readChecked_of_built isListing built

/-- What comes of an import of the hotel is what comes of storing it. -/
theorem run_of_hotel
    {files : Files}
    (rests : Rests files "store.db" [])
    {file : String}
    {own : Option String}
    (isListing : files.readListing file = .ok ⟨own, [hotel]⟩)
    (root : Option String) :
    (run file "store.db" root files).1 =
      (storeIn (openedAs files "store.db" []) ⟨own, [hotel]⟩ root).1 := by
  have restsHere : Rests (Run.mk files file root).files "store.db" [] := rests
  obtain ⟨isOpened, -, -⟩ :=
    Run.rests_of_read namesArchive_store restsHere (readChecked_of_hotel isListing)
  have outcome := Run.perform_of_opened? isOpened
  rw [Run.perform] at outcome
  exact outcome

/-- The hotel can be stored unless its listing designates what is stored nowhere. -/
theorem storeIn_of_hotel (files : Files) :
    let opened := openedAs files "store.db" []
    (storeIn opened ⟨some "hotel", [hotel]⟩ none).1 = .ok ⟨1, 1⟩ ∧
      (storeIn opened ⟨none, [hotel]⟩ none).1 = .ok ⟨1, 1⟩ ∧
      (storeIn opened ⟨none, [hotel]⟩ (some "hotel")).1 = .ok ⟨1, 1⟩ ∧
      (storeIn opened ⟨some "gone", [hotel]⟩ (some "hotel")).1 =
        .error (.refused (.notStored "gone")) := by
  dsimp only
  rw [storeIn_openedAs files ⟨[], []⟩, storeIn_openedAs files ⟨[], []⟩,
    storeIn_openedAs files ⟨[], []⟩, storeIn_openedAs files ⟨[], []⟩]
  dsimp only
  decide +kernel

/-- The hotel is imported alike from the files that designate it or none. -/
theorem override_alike_hotel :
    hotelFiles.readListing "own.json" = .ok ⟨some "hotel", [hotel]⟩ ∧
      hotelFiles.readListing "none.json" = .ok ⟨none, [hotel]⟩ ∧
      Alike (run "own.json" "store.db" (some "hotel") hotelFiles)
        (run "none.json" "store.db" (some "hotel") hotelFiles) := by
  obtain ⟨rests, ownRead, -, noneRead⟩ := readListing_hotelFiles
  obtain ⟨ownOk, plainOk, askedOk, -⟩ := storeIn_of_hotel hotelFiles
  have ownRun := (run_of_hotel rests ownRead none).trans ownOk
  have plainRun := (run_of_hotel rests noneRead none).trans plainOk
  have askedRun := (run_of_hotel rests noneRead (some "hotel")).trans askedOk
  refine ⟨ownRead, noneRead, ?_⟩
  apply (override_alike_iff ownRead noneRead rfl "hotel").mpr
  rw [ownRun, plainRun, askedRun, Except.isOk, Except.toBool, Bool.or_true, if_pos rfl]
  exact ⟨rfl, rfl⟩

/-- Imports with a main activity that is asked for may differ by those of their files. -/
theorem override_not_alike :
    ∃ firstFile secondFile archive id files first second,
      files.readListing firstFile = .ok first ∧ files.readListing secondFile = .ok second ∧
        first.activities = second.activities ∧
          ¬Alike (run firstFile archive (some id) files)
            (run secondFile archive (some id) files) := by
  obtain ⟨rests, -, goneRead, noneRead⟩ := readListing_hotelFiles
  obtain ⟨-, -, askedOk, refused⟩ := storeIn_of_hotel hotelFiles
  have goneRun := (run_of_hotel rests goneRead (some "hotel")).trans refused
  have askedRun := (run_of_hotel rests noneRead (some "hotel")).trans askedOk
  refine ⟨_, _, "store.db", "hotel", _, _, _, goneRead, noneRead, rfl, ?_⟩
  rintro ⟨sameSuccess, -⟩
  rw [goneRun, askedRun] at sameSuccess
  cases sameSuccess

end Import

end ActivityCatalog
