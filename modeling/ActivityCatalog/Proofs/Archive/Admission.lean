import ActivityCatalog.Proofs.Archive.Rows
import ActivityCatalog.Proofs.Catalog.Building

namespace ActivityCatalog

/-!
# Listings that an archive refuses although they make a catalog

Both a catalog and an archive compare a record with the first one of its key.  A catalog
compares their normal forms, from which the bytes of a blob are gone that also has a reference.
An archive compares what is given with what is read back of the stored text, bytes included.

So of the listings that make a catalog an archive without rows takes those in which records of
one key hold the same bytes.  The others it refuses for such a key.
-/

namespace Activity

/-- The text of the bytes that the blob of a record holds. -/
def heldBytes? (activity : Activity) : Option String :=
  activity.blob.bind Blob.bytesBase64

/-- The first record of a key and a later one that has it. -/
structure Repeated (activities : List Activity) (key : Key) (first later : Activity) : Prop where
  keyed : later.key? = some key
  follows :
    ∃ done rest, activities = done ++ later :: rest ∧ firstWith? key done = some first

/-- Records that have the key of an earlier one hold the bytes that the first one holds. -/
def SameBytes (activities : List Activity) : Prop :=
  ∀ key first later, Repeated activities key first later → first.heldBytes? = later.heldBytes?

theorem normalBlob_inj
    {left right : Blob}
    (sameForm : normalBlob left = normalBlob right)
    (sameBytes : left.bytesBase64 = right.bytesBase64) :
    left = right := by
  have manifest_eq : ∀ blob : Blob, (normalBlob blob).manifest = blob.manifest := by
    intro blob
    unfold normalBlob
    split <;> rfl
  have blobRef_eq : ∀ blob : Blob, (normalBlob blob).blobRef = blob.blobRef := by
    intro blob
    unfold normalBlob
    split <;> rfl
  have sameManifest : left.manifest = right.manifest := by
    rw [← manifest_eq, sameForm, manifest_eq]
  have sameRef : left.blobRef = right.blobRef := by
    rw [← blobRef_eq, sameForm, blobRef_eq]
  cases left
  cases right
  congr

theorem blob_eq_iff
    {left right : Option Blob} :
    left = right ↔
      left.map normalBlob = right.map normalBlob ∧
        left.bind Blob.bytesBase64 = right.bind Blob.bytesBase64 := by
  constructor
  · rintro rfl
    exact ⟨rfl, rfl⟩
  · rintro ⟨sameForm, sameBytes⟩
    cases left with
    | none =>
        cases right with
        | none => rfl
        | some other => cases sameForm
    | some blob =>
        cases right with
        | none => cases sameForm
        | some other => exact congrArg some (normalBlob_inj (Option.some.inj sameForm) sameBytes)

/-- Records are equal if their normal forms are and they hold the same bytes. -/
theorem same_iff_normalForm (left right : Activity) :
    left.same right = true ↔
      left.normalForm.same right.normalForm = true ∧ left.heldBytes? = right.heldBytes? := by
  cases left with
  | mk schema id version label period participations subs supers attributeSets blob =>
      have sameBlob : blob = right.blob ↔ _ := blob_eq_iff
      simp only [normalForm, same, heldBytes?, Bool.and_eq_true, beq_iff_eq, sameBlob, and_assoc]

theorem Repeated.mem
    {activities : List Activity}
    {key : Key}
    {first later : Activity}
    (repeated : Repeated activities key first later) :
    first ∈ activities ∧ later ∈ activities := by
  obtain ⟨-, done, rest, rfl, isFirst⟩ := repeated
  have isEarlier := (firstWith?_some isFirst).1
  exact ⟨List.mem_append_left _ isEarlier, List.mem_append_right _ List.mem_cons_self⟩

/-- A record that is added as the last is repeated if there was one of its key. -/
theorem repeated_concat
    {earlier : List Activity}
    {activity first later : Activity}
    {key : Key} :
    Repeated (earlier ++ [activity]) key first later ↔
      Repeated earlier key first later ∨
        later = activity ∧ later.key? = some key ∧ firstWith? key earlier = some first := by
  constructor
  · rintro ⟨keyed, done, rest, split, isFirst⟩
    rcases List.eq_nil_or_concat rest with rfl | ⟨before, last, rfl⟩
    · obtain ⟨rfl, sameLast⟩ := List.append_inj' split rfl
      obtain rfl := List.singleton_inj.mp sameLast
      exact .inr ⟨rfl, keyed, isFirst⟩
    · have split : earlier ++ [activity] = (done ++ later :: before) ++ [last] := by
        rw [split, List.concat_eq_append, List.append_assoc, List.cons_append]
      obtain ⟨rfl, -⟩ := List.append_inj' split rfl
      exact .inl ⟨keyed, done, before, rfl, isFirst⟩
  · rintro (⟨keyed, done, rest, rfl, isFirst⟩ | ⟨rfl, keyed, isFirst⟩)
    · exact ⟨keyed, done, rest ++ [activity], by rw [List.append_assoc, List.cons_append], isFirst⟩
    · exact ⟨keyed, earlier, [], rfl, isFirst⟩

/-- Records that have the key of an earlier one equal the first one that has it. -/
def Agree (activities : List Activity) : Prop :=
  ∀ key first later, Repeated activities key first later → first.same later = true

/-- One more record agrees with those before it if it equals the first of its key. -/
theorem Agree.concat
    {earlier : List Activity}
    (agree : Agree earlier)
    {activity : Activity}
    {key : Key}
    (keyed : activity.key? = some key)
    (isSame : ∀ first, firstWith? key earlier = some first → first.same activity = true) :
    Agree (earlier ++ [activity]) := by
  intro other first later repeated
  rcases repeated_concat.mp repeated with isEarlier | ⟨rfl, otherKeyed, isFirst⟩
  · exact agree other first later isEarlier
  · obtain rfl : key = other := Option.some.inj (keyed.symm.trans otherKeyed)
    exact isSame first isFirst

end Activity

/-- In a listing that makes a catalog, a record and the first of its key agree. -/
theorem Catalog.same_of_build
    {listing : Listing}
    {catalog : Catalog}
    (built : build listing = .ok catalog)
    {key : Key}
    {first later : Activity}
    (repeated : Activity.Repeated listing.activities key first later) :
    first.normalForm.same later.normalForm = true := by
  obtain ⟨firstListed, laterListed⟩ := repeated.mem
  obtain ⟨keyed, done, rest, -, isFirst⟩ := repeated
  obtain ⟨-, firstKeyed⟩ := Activity.firstWith?_some isFirst
  have agree := (exists_build_iff.mp ⟨catalog, built⟩).agree
  exact agree _ (List.mem_map_of_mem firstListed) _ (List.mem_map_of_mem laterListed)
    (firstKeyed.trans keyed.symm)

namespace Archive

/-- Under each key there is the text of the first record that has it, and nothing else. -/
def Stores (archive : Archive) (records : List Activity) : Prop :=
  ∀ key, (archive.row? key).map Row.payload =
    (Activity.firstWith? key records).map fun first => .text first.text

theorem stores_nil
    {archive : Archive}
    (noRows : archive.rows = []) :
    archive.Stores [] := by
  intro key
  rw [row?, noRows]
  rfl

section Insert

variable
  {archive : Archive}
  {records : List Activity}
  {activity : Activity}
  {key : Key}

theorem Stores.insert_new
    (stores : archive.Stores records)
    (keyed : activity.key? = some key)
    (isNew : Activity.firstWith? key records = none) :
    ∃ after, archive.insert activity = .ok (after, key) ∧
      after.Stores (records ++ [activity]) := by
  have noRow := stores key
  rw [isNew, Option.map_none, Option.map_eq_none_iff] at noRow
  refine ⟨_, insert_of_row?_none keyed noRow, ?_⟩
  intro other
  rw [Activity.firstWith?_concat, row?, List.find?_append, Option.map_or, ← row?, stores other,
    keyed, Option.map_or]
  by_cases isKey : key = other
  · simp [isKey]
  · simp [isKey]

/-- A record with the key of earlier ones changes nothing about what is stored. -/
theorem Stores.insert_repeated
    (stores : archive.Stores records)
    (keyed : activity.key? = some key)
    {first : Activity}
    (isFirst : Activity.firstWith? key records = some first) :
    archive.Stores (records ++ [activity]) := by
  intro other
  rw [Activity.firstWith?_concat, stores other]
  by_cases isKey : key = other
  · subst isKey
    rw [isFirst, Option.some_or]
  · rw [keyed, if_neg (fun same => isKey (Option.some.inj same)), Option.or_none]

/-- A record with the key of earlier ones is compared with the first of them. -/
theorem Stores.insert_eq
    (stores : archive.Stores records)
    (keyed : activity.key? = some key)
    {first : Activity}
    (isFirst : Activity.firstWith? key records = some first)
    (readBack : Activity.ofText first.text = .ok first) :
    archive.insert activity =
      if first.same activity then .ok (archive, key) else .error (.conflict key) := by
  have hasRow := stores key
  rw [isFirst, Option.map_some] at hasRow
  exact insert_of_text keyed hasRow (mapError_eq_ok.mpr readBack)

/-- One more record is stored and agrees, or it differs from the first of its key. -/
theorem Stores.insert_cases
    (stores : archive.Stores records)
    (agree : Activity.Agree records)
    (keyed : activity.key? = some key)
    (readBack : ∀ first, Activity.Repeated (records ++ [activity]) key first activity →
      Activity.ofText first.text = .ok first) :
    (∃ after, (archive.insert activity).map Prod.fst = .ok after ∧
        after.Stores (records ++ [activity]) ∧ Activity.Agree (records ++ [activity])) ∨
      ∃ first, Activity.Repeated (records ++ [activity]) key first activity ∧
        ¬first.same activity ∧ (archive.insert activity).map Prod.fst = .error (.conflict key) := by
  cases isFirst : Activity.firstWith? key records with
  | none =>
      obtain ⟨after, inserted, afterStores⟩ := stores.insert_new keyed isFirst
      refine .inl ⟨after, map_eq_ok.mpr ⟨_, inserted, rfl⟩, afterStores, ?_⟩
      apply agree.concat keyed
      intro first isOther
      cases isFirst.symm.trans isOther
  | some first =>
      have repeated : Activity.Repeated (records ++ [activity]) key first activity :=
        Activity.repeated_concat.mpr (.inr ⟨rfl, keyed, isFirst⟩)
      rw [stores.insert_eq keyed isFirst (readBack first repeated)]
      by_cases isSame : first.same activity = true
      · rw [if_pos isSame]
        refine .inl ⟨archive, rfl, stores.insert_repeated keyed isFirst, ?_⟩
        apply agree.concat keyed
        intro other isOther
        obtain rfl : first = other := Option.some.inj (isFirst.symm.trans isOther)
        exact isSame
      · rw [if_neg isSame]
        exact .inr ⟨first, repeated, isSame, rfl⟩

end Insert

/-- Either all records are stored and agree, or one differs from the first of its key. -/
theorem insertAll_cases
    {archive : Archive}
    (noRows : archive.rows = [])
    {activities : List Activity}
    (keyed : ∀ activity ∈ activities, ∃ key, activity.key? = some key)
    (readBack : ∀ key first later, Activity.Repeated activities key first later →
      Activity.ofText first.text = .ok first) :
    (∃ stored,
        activities.foldlM (fun held activity => (held.insert activity).map Prod.fst) archive =
            .ok stored ∧
          stored.Stores activities ∧ Activity.Agree activities) ∨
      ∃ key first later, Activity.Repeated activities key first later ∧ ¬first.same later ∧
        activities.foldlM (fun held activity => (held.insert activity).map Prod.fst) archive =
          .error (.conflict key) := by
  induction activities using List.reverseRecOn with
  | nil =>
      refine .inl ⟨archive, rfl, stores_nil noRows, ?_⟩
      rintro key first later ⟨-, done, rest, split, -⟩
      cases done <;> cases split
  | append_singleton earlier activity inductionHypothesis =>
      obtain ⟨earlierKeyed, lastKeyed⟩ := List.forall_mem_append.mp keyed
      obtain ⟨key, isKey⟩ := lastKeyed activity (List.mem_singleton_self activity)
      have earlierRead : ∀ key first later, Activity.Repeated earlier key first later →
          Activity.ofText first.text = .ok first :=
        fun key first later repeated =>
          readBack key first later (Activity.repeated_concat.mpr (.inl repeated))
      rcases inductionHypothesis earlierKeyed earlierRead with
        ⟨stored, ran, stores, agree⟩ | ⟨clash, first, later, repeated, differ, ran⟩
      · rw [foldlM_concat_of_ok ran]
        rcases stores.insert_cases agree isKey fun first => readBack key first activity with
          stored | ⟨first, repeated, differ, refused⟩
        · exact .inl stored
        · exact .inr ⟨key, first, activity, repeated, differ, refused⟩
      · exact .inr ⟨clash, first, later, Activity.repeated_concat.mpr (.inl repeated), differ,
          foldlM_concat_of_error ran⟩

/-- The main activity is designated if some record that is stored has its id. -/
theorem Stores.exists_setRoot?
    {archive : Archive}
    {records : List Activity}
    (stores : archive.Stores records)
    (keyed : ∀ activity ∈ records, ∃ key, activity.key? = some key)
    {root : Option String}
    (isListed : ∀ id, root = some id → ∃ activity ∈ records, activity.id = some id) :
    ∃ after, archive.setRoot? root = .ok after := by
  cases root with
  | none =>
      exact ⟨archive, rfl⟩
  | some id =>
      obtain ⟨activity, isRecord, hasId⟩ := isListed id rfl
      obtain ⟨key, isKey⟩ := keyed activity isRecord
      have isId : key.id = id :=
        Option.some.inj ((Activity.id_eq_of_key? isKey).symm.trans hasId)
      have hasRow := stores key
      cases found : archive.row? key with
      | none =>
          rw [found, Option.map_none, eq_comm, Option.map_eq_none_iff] at hasRow
          exact absurd isKey (Activity.firstWith?_eq_none.mp hasRow activity isRecord)
      | some row =>
          obtain ⟨isRow, rowKey⟩ := row?_eq_some found
          exact ⟨_, setRoot_eq_ok.mpr ⟨⟨row, isRow, by rw [rowKey, isId]⟩, rfl⟩⟩

/--
A listing that makes a catalog and has its main activity among its records is taken by an
archive without rows if records of one key hold the same bytes in it, and else it is refused
for a key of which two records differ in that, provided that what is stored of records whose
key comes again is read back as it was given.
-/
theorem importListing_of_built
    {start : Archive}
    (noRows : start.rows = [])
    {listing : Listing}
    {catalog : Catalog}
    (built : Catalog.build listing = .ok catalog)
    (rootListed :
      ∀ id, listing.root = some id → ∃ activity ∈ listing.activities, activity.id = some id)
    (readBack : ∀ key first later, Activity.Repeated listing.activities key first later →
      Activity.ofText first.text = .ok first) :
    ((∃ archive, start.importListing listing = .ok (archive, listing.activities.length)) ↔
        Activity.SameBytes listing.activities) ∧
      (¬Activity.SameBytes listing.activities →
        ∃ key first later, Activity.Repeated listing.activities key first later ∧
          first.heldBytes? ≠ later.heldBytes? ∧
            start.importListing listing = .error (.conflict key)) := by
  have keyed : ∀ activity ∈ listing.activities, ∃ key, activity.key? = some key := by
    intro activity isListed
    have isValid := Catalog.allValid_of_build built activity (List.mem_append_left _ isListed)
    exact Catalog.key?_of_validate isValid
  have same_iff : ∀ {key first later}, Activity.Repeated listing.activities key first later →
      (first.same later = true ↔ first.heldBytes? = later.heldBytes?) := by
    intro key first later repeated
    rw [Activity.same_iff_normalForm, and_iff_right (Catalog.same_of_build built repeated)]
  rcases insertAll_cases noRows keyed readBack with
    ⟨stored, ran, stores, agree⟩ | ⟨key, first, later, repeated, differ, ran⟩
  · have sameBytes : Activity.SameBytes listing.activities :=
      fun key first later repeated => (same_iff repeated).mp (agree key first later repeated)
    obtain ⟨after, designated⟩ := stores.exists_setRoot? keyed rootListed
    refine ⟨⟨fun _ => sameBytes, fun _ => ⟨after, ?_⟩⟩, fun differ => absurd sameBytes differ⟩
    exact bind_eq_ok.mpr ⟨stored, ran, bind_eq_ok.mpr ⟨after, designated, rfl⟩⟩
  · have bytesDiffer : first.heldBytes? ≠ later.heldBytes? :=
      fun sameBytes => differ ((same_iff repeated).mpr sameBytes)
    have refused : start.importListing listing = .error (.conflict key) := by
      rw [importListing, ran]
      rfl
    refine ⟨⟨?_, ?_⟩, fun _ => ⟨key, first, later, repeated, bytesDiffer, refused⟩⟩
    · rintro ⟨archive, imported⟩
      cases refused.symm.trans imported
    · intro sameBytes
      exact absurd (sameBytes key first later repeated) bytesDiffer

/-- A photo that refers to its bytes and may hold them too. -/
def photo (bytesBase64 : Option String) : Activity :=
  { Activity.stub "photo" "1" with blob := some ⟨none, bytesBase64, some "s3://photo"⟩ }

/-- What a catalog holds of the photo, be its bytes given or not. -/
def photoCatalog (root : Option String) : Catalog :=
  let found : Catalog := ⟨[⟨⟨"photo", "1"⟩, photo none, true⟩], 1, none, []⟩
  { found with root, issues := found.findIssues }

/-- The photo with its bytes both times, as the main activity. -/
def photoTwice : Listing :=
  ⟨some "photo", [photo (some "YQ=="), photo (some "YQ==")]⟩

theorem validate_photo : (photo (some "YQ==")).validate = .ok [.blobConflict "photo"] := by
  decide +kernel

/-- A catalog is made of the photo with its bytes and the photo once more, given or not. -/
theorem build_photos
    (root : Option String)
    {bytesBase64 : Option String}
    {warnings : List RecordWarning}
    (valid : (photo bytesBase64).validate = .ok warnings) :
    Catalog.build ⟨root, [photo (some "YQ=="), photo bytesBase64]⟩ = .ok (photoCatalog root) := by
  let held : Catalog := ⟨[⟨⟨"photo", "1"⟩, photo none, true⟩], 1, none, []⟩
  have isSame : (photo none).same (photo bytesBase64).normalForm = true := by
    cases bytesBase64 <;> rfl
  have isAdded : Catalog.empty.addTop (photo (some "YQ==")) = .ok held :=
    Catalog.addTop_eq_ok.mpr ⟨⟨"photo", "1"⟩, ⟨_, validate_photo⟩, rfl, .inl ⟨rfl, rfl⟩⟩
  have isHeld : held.addTop (photo bytesBase64) = .ok held :=
    Catalog.addTop_eq_ok.mpr ⟨⟨"photo", "1"⟩, ⟨_, valid⟩, rfl, .inr ⟨_, rfl, isSame, rfl⟩⟩
  exact Catalog.build_eq_ok.mpr ⟨held, held,
    bind_eq_ok.mpr ⟨held, isAdded, bind_eq_ok.mpr ⟨held, isHeld, rfl⟩⟩, rfl, rfl⟩

theorem build_photoTwice : Catalog.build photoTwice = .ok (photoCatalog (some "photo")) :=
  build_photos (some "photo") validate_photo

/-- The photo is stored once, and both records count. -/
theorem importListing_of_built_photo :
    ∃ archive, fresh.importListing photoTwice = .ok (archive, 2) := by
  have storable : (photo (some "YQ==")).Storable :=
    Activity.storable_of_reader_written rfl (by decide) rfl
  have isPhoto : ∀ activity ∈ photoTwice.activities, activity = photo (some "YQ==") := by
    simp [photoTwice]
  refine (importListing_of_built rfl build_photoTwice ?_ ?_).1.mpr ?_
  · intro id isRoot
    exact ⟨photo (some "YQ=="), List.mem_cons_self, isRoot⟩
  · intro key first later repeated
    rw [isPhoto first repeated.mem.1]
    exact storable.ofText_text
  · intro key first later repeated
    rw [isPhoto first repeated.mem.1, isPhoto later repeated.mem.2]

/-- The photo with its bytes and then without them. -/
def photoStripped : Listing :=
  ⟨none, [photo (some "YQ=="), photo none]⟩

/-- A weight, of which the text that is written is read as the next number. -/
def weighing : Activity :=
  { Activity.stub "weighing" "1" with
    attributeSets :=
      [("scale", ⟨none, [("grams", .number (.double ⟨false, 5317534439203659, -49⟩))]⟩)] }

/-- The weight listed twice, without a main activity. -/
def weighingTwice : Listing :=
  ⟨none, [weighing, weighing]⟩

/-- The catalog in which the weight is held once. -/
def weighingCatalog : Catalog :=
  let found : Catalog := ⟨[⟨⟨"weighing", "1"⟩, weighing, true⟩], 1, none, []⟩
  { found with issues := found.findIssues }

/--
A photo that comes with its bytes and then without them makes a catalog but cannot be stored,
nor can a record be stored twice that is not read back from its text as it was given.
-/
theorem importListing_refuses_built :
    Listing.ofValue (.array (photoStripped.activities.map Activity.toValue)) = .ok photoStripped ∧
      Catalog.build photoStripped = .ok (photoCatalog none) ∧
      fresh.importListing photoStripped = .error (.conflict ⟨"photo", "1"⟩) ∧
      Listing.ofValue (.array (weighingTwice.activities.map Activity.toValue)) = .ok weighingTwice ∧
      Catalog.build weighingTwice = .ok weighingCatalog ∧
      fresh.importListing weighingTwice = .error (.conflict ⟨"weighing", "1"⟩) := by
  have photoBuilt : Catalog.build photoStripped = .ok (photoCatalog none) :=
    build_photos none (rfl : (photo none).validate = .ok [])
  have weighingBuilt : Catalog.build weighingTwice = .ok weighingCatalog :=
    Catalog.build_eq_ok.mpr
      ⟨⟨[⟨⟨"weighing", "1"⟩, weighing, true⟩], 1, none, []⟩, _, by rfl, rfl, rfl⟩
  exact ⟨rfl, photoBuilt, by decide +kernel, rfl, weighingBuilt, by decide +kernel⟩

end Archive

end ActivityCatalog
