import ActivityCatalog.Activity.Embedded
import ActivityCatalog.Activity.Validation

namespace ActivityCatalog

/-!
# Normal forms of records

Bringing a record to normal form only ever takes bytes out of its blob.  So the
normal form has the key and the links of the record and is a stub exactly when
the record is one; it passes the check that the record passed, without a
warning, and is its own normal form.
-/

namespace Activity

@[simp] theorem idText_normalForm (activity : Activity) :
    activity.normalForm.idText = activity.idText :=
  rfl

@[simp] theorem versionText_normalForm (activity : Activity) :
    activity.normalForm.versionText = activity.versionText :=
  rfl

@[simp] theorem key?_normalForm (activity : Activity) :
    activity.normalForm.key? = activity.key? :=
  rfl

@[simp] theorem linked_normalForm (activity : Activity) (direction : Direction) :
    activity.normalForm.linked direction = activity.linked direction := by
  cases direction <;> rfl

/-- The normal form of a stub is a stub, and no other is. -/
@[simp] theorem isStub_normalForm (activity : Activity) :
    activity.normalForm.isStub = activity.isStub := by
  cases activity with
  | mk schema id version label period participations subs supers attributeSets blob =>
      cases blob <;> rfl

/-- A blob in normal form does not both hold and refer to its bytes. -/
theorem hasConflict_normalBlob (blob : Blob) :
    (normalBlob blob).hasConflict = false := by
  unfold normalBlob
  split
  · simp [Blob.hasConflict]
  · simp_all

theorem normalBlob_normalBlob (blob : Blob) :
    normalBlob (normalBlob blob) = normalBlob blob := by
  rw [normalBlob, hasConflict_normalBlob]
  rfl

theorem normalForm_normalForm (activity : Activity) :
    activity.normalForm.normalForm = activity.normalForm := by
  have sameBlob :
      (activity.blob.map normalBlob).map normalBlob =
        activity.blob.map normalBlob := by
    cases activity.blob with
    | none =>
        rfl
    | some blob =>
        exact congrArg some (normalBlob_normalBlob blob)
  simp only [normalForm, sameBlob]

/-- The normal form of a blob has the media type of the blob. -/
theorem mediaType?_normalBlob (blob : Blob) :
    (normalBlob blob).mediaType? = blob.mediaType? := by
  unfold normalBlob
  split <;> rfl

/-- Where the bytes of a blob can be read, so can those of its normal form. -/
theorem checkBytes_normalBlob
    {id : String}
    {blob : Blob}
    (readable : checkBytes id blob = .ok ()) :
    checkBytes id (normalBlob blob) = .ok () := by
  unfold normalBlob
  split
  · rfl
  · exact readable

/-- A checked blob has a media type and bytes that can be read. -/
theorem checkBlob_some
    {id : String}
    {blob : Blob}
    {warnings : List RecordWarning} :
    checkBlob id (some blob) = .ok warnings ↔
      checkMediaType id blob = .ok () ∧ checkBytes id blob = .ok () ∧
        warnings = if blob.hasConflict then [.blobConflict id] else [] := by
  cases mediaType : checkMediaType id blob with
  | error fault =>
      simp [checkBlob, mediaType, bind, Except.bind]
  | ok =>
      cases bytes : checkBytes id blob with
      | error fault =>
          simp [checkBlob, mediaType, bytes, bind, Except.bind]
      | ok =>
          simp only [checkBlob, mediaType, bytes, bind, Except.bind, pure, Except.pure,
            Except.ok.injEq, true_and]
          exact eq_comm

/-- The normal form of a checked blob is checked without a warning. -/
theorem checkBlob_normalBlob
    {id : String}
    {blob : Option Blob}
    {warnings : List RecordWarning}
    (checked : checkBlob id blob = .ok warnings) :
    checkBlob id (blob.map normalBlob) = .ok [] := by
  cases blob with
  | none =>
      rfl
  | some blob =>
      obtain ⟨mediaType, bytes, -⟩ := checkBlob_some.mp checked
      refine checkBlob_some.mpr ⟨?_, checkBytes_normalBlob bytes, ?_⟩
      · rw [checkMediaType, mediaType?_normalBlob]
        exact mediaType
      · simp [hasConflict_normalBlob]

/-- A record is valid if it has an id, and its period and blob are checked. -/
theorem validate_eq_ok
    {activity : Activity}
    {warnings : List RecordWarning} :
    activity.validate = .ok warnings ↔
      activity.idText ≠ "" ∧
        checkPeriod activity.idText activity.period = .ok () ∧
        checkBlob activity.idText activity.blob = .ok warnings := by
  unfold validate
  by_cases blank : activity.idText = ""
  · simp [blank]
  · cases period : checkPeriod activity.idText activity.period with
    | error fault =>
        simp [blank, period, bind, Except.bind]
    | ok =>
        simp [blank, period, bind, Except.bind]

/-- The normal form of a valid record is valid without a warning. -/
theorem validate_normalForm
    {activity : Activity}
    {warnings : List RecordWarning}
    (valid : activity.validate = .ok warnings) :
    activity.normalForm.validate = .ok [] := by
  obtain ⟨hasId, period, blob⟩ := validate_eq_ok.mp valid
  exact validate_eq_ok.mpr ⟨hasId, period, checkBlob_normalBlob blob⟩

/-- The normal form of a valid record is its own normal form, without a warning. -/
theorem normalized_normalForm
    {activity : Activity}
    {warnings : List RecordWarning}
    (valid : activity.validate = .ok warnings) :
    activity.normalForm.normalized = .ok (activity.normalForm, []) := by
  rw [normalized, validate_normalForm valid, Except.map, normalForm_normalForm]

/-- A record has a key exactly when its id is not empty. -/
theorem hasKey_iff {activity : Activity} :
    activity.hasKey ↔ activity.idText ≠ "" := by
  by_cases blank : activity.idText = "" <;>
    simp [hasKey, key?, blank]

/-- The key of a record is made of its id, which is not empty, and its version. -/
theorem key?_eq_some
    {activity : Activity}
    {key : Key} :
    activity.key? = some key ↔
      activity.idText ≠ "" ∧ key = ⟨activity.idText, activity.versionText⟩ := by
  by_cases blank : activity.idText = "" <;>
    simp [key?, blank, eq_comm]

/-- A record with a key has the id of its key. -/
theorem id_eq_of_key?
    {activity : Activity}
    {key : Key}
    (keyed : activity.key? = some key) :
    activity.id = some key.id := by
  obtain ⟨hasId, rfl⟩ := key?_eq_some.mp keyed
  unfold idText at hasId ⊢
  cases isId : activity.id with
  | none =>
      rw [isId] at hasId
      exact absurd rfl hasId
  | some id =>
      rfl

end Activity

end ActivityCatalog
