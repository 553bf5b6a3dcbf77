import ActivityCatalog.Activity.Validation
import ActivityCatalog.Proofs.Stepwise

namespace ActivityCatalog

/-!
# Which check a fault of a record comes from

A record is checked for an id first, then for its period and then for its blob.  Each check has
faults of its own, so that the fault that is told says which check failed.
-/

namespace RecordFault

/-- The faults of the period of a record with an id. -/
inductive OfPeriod (id : String) : RecordFault → Prop where
  | invalidTimestamp (field value : String) : OfPeriod id (.invalidTimestamp id field value)
  | invertedPeriod (startTime endTime : String) : OfPeriod id (.invertedPeriod id startTime endTime)

/-- The faults of the blob of a record with an id. -/
inductive OfBlob (id : String) : RecordFault → Prop where
  | invalidMediaType (fault : MediaType.Fault) : OfBlob id (.invalidMediaType id fault)
  | invalidBase64 (fault : Base64.Fault) : OfBlob id (.invalidBase64 id fault)

end RecordFault

namespace Activity

variable
  {activity : Activity}
  {id : String}
  {fault : RecordFault}

/-- What follows a check is reached if the check passes. -/
theorem bind_check_eq_error
    {Result : Type}
    {check : Except RecordFault Unit}
    {next : Unit → Except RecordFault Result} :
    (check >>= next) = .error fault ↔
      check = .error fault ∨ check = .ok () ∧ next () = .error fault := by
  cases check with
  | error other =>
      simp [bind, Except.bind]
  | ok passed =>
      simp [bind, Except.bind]

theorem ofPeriod_of_readTimestamp?
    {field : String}
    {value : Option String}
    (failed : readTimestamp? id field value = .error fault) :
    fault.OfPeriod id := by
  cases value with
  | none =>
      cases failed
  | some text =>
      simp only [readTimestamp?, readTimestamp] at failed
      cases read : Timestamp.parse? text with
      | none =>
          rw [read] at failed
          cases failed
          exact .invalidTimestamp field text
      | some time =>
          rw [read] at failed
          cases failed

/-- The check of the period fails with its own faults only. -/
theorem ofPeriod_of_checkPeriod
    {period : Option Period}
    (failed : checkPeriod id period = .error fault) :
    fault.OfPeriod id := by
  cases period with
  | none =>
      cases failed
  | some period =>
      rcases bind_eq_error.mp failed with boundsFailed | ⟨bounds, -, compared⟩
      · rcases bind_eq_error.mp boundsFailed with startFailed | ⟨_, -, rest⟩
        · exact ofPeriod_of_readTimestamp? startFailed
        · rcases bind_eq_error.mp rest with endFailed | ⟨_, -, finished⟩
          · exact ofPeriod_of_readTimestamp? endFailed
          · cases finished
      · split at compared
        · split at compared
          · cases compared
            exact .invertedPeriod _ _
          · cases compared
        · cases compared

/-- The check of a media type fails if it cannot be read. -/
theorem checkMediaType_eq_error
    {blob : Blob} :
    checkMediaType id blob = .error fault ↔
      ∃ unread, blob.mediaType? = some (.error unread) ∧ fault = .invalidMediaType id unread := by
  unfold checkMediaType
  split
  · rename_i unread isUnread
    simp [isUnread, eq_comm]
  · rename_i isRead
    constructor
    · intro failed
      cases failed
    · rintro ⟨unread, isUnread, -⟩
      exact absurd isUnread (isRead unread)

/-- The check of the bytes fails with its own fault only. -/
theorem exists_fault_of_checkBytes
    {blob : Blob}
    (failed : checkBytes id blob = .error fault) :
    ∃ unread, fault = .invalidBase64 id unread := by
  unfold checkBytes at failed
  split at failed
  · cases failed
    exact ⟨_, rfl⟩
  · cases failed

/-- The media type of a blob is checked before its bytes. -/
theorem checkBlob_eq_error
    {blob : Blob} :
    checkBlob id (some blob) = .error fault ↔
      checkMediaType id blob = .error fault ∨
        checkMediaType id blob = .ok () ∧ checkBytes id blob = .error fault := by
  rw [checkBlob, bind_check_eq_error, bind_check_eq_error]
  simp [pure, Except.pure]

/-- The check of the blob fails with its own faults only. -/
theorem ofBlob_of_checkBlob
    {blob : Option Blob}
    (failed : checkBlob id blob = .error fault) :
    fault.OfBlob id := by
  cases blob with
  | none =>
      cases failed
  | some blob =>
      rcases checkBlob_eq_error.mp failed with mediaTypeFailed | ⟨-, bytesFailed⟩
      · obtain ⟨unread, -, rfl⟩ := checkMediaType_eq_error.mp mediaTypeFailed
        exact .invalidMediaType unread
      · obtain ⟨unread, rfl⟩ := exists_fault_of_checkBytes bytesFailed
        exact .invalidBase64 unread

/-- The id is checked first, then the period and then the blob. -/
theorem validate_eq_error :
    activity.validate = .error fault ↔
      activity.idText = "" ∧ fault = .missingId ∨
        activity.idText ≠ "" ∧
          (checkPeriod activity.idText activity.period = .error fault ∨
            checkPeriod activity.idText activity.period = .ok () ∧
              checkBlob activity.idText activity.blob = .error fault) := by
  unfold validate
  by_cases blank : activity.idText = ""
  · simp [blank, eq_comm]
  · simp [blank, bind_check_eq_error]

/-- A record is refused for want of an id exactly if its id is empty. -/
theorem validate_eq_missingId : activity.validate = .error .missingId ↔ activity.idText = "" := by
  rw [validate_eq_error]
  constructor
  · rintro (⟨isBlank, -⟩ | ⟨-, periodFailed | ⟨-, blobFailed⟩⟩)
    · exact isBlank
    · cases ofPeriod_of_checkPeriod periodFailed
    · cases ofBlob_of_checkBlob blobFailed
  · intro isBlank
    exact Or.inl ⟨isBlank, rfl⟩

/-- A fault of the period is told of a record exactly if the check of its period tells it. -/
theorem validate_eq_error_of_period
    (hasId : activity.idText ≠ "")
    (ofPeriod : fault.OfPeriod id) :
    activity.validate = .error fault ↔
      checkPeriod activity.idText activity.period = .error fault := by
  rw [validate_eq_error]
  constructor
  · rintro (⟨isBlank, -⟩ | ⟨-, periodFailed | ⟨-, blobFailed⟩⟩)
    · exact absurd isBlank hasId
    · exact periodFailed
    · cases ofBlob_of_checkBlob blobFailed <;> cases ofPeriod
  · intro periodFailed
    exact Or.inr ⟨hasId, Or.inl periodFailed⟩

/-- A record is refused for its media type only if this cannot be read. -/
theorem mediaType?_of_validate
    {unread : MediaType.Fault}
    (failed : activity.validate = .error (.invalidMediaType id unread)) :
    ∃ blob, activity.blob = some blob ∧ blob.mediaType? = some (.error unread) := by
  rcases validate_eq_error.mp failed with ⟨-, isMissing⟩ | ⟨-, periodFailed | ⟨-, blobFailed⟩⟩
  · cases isMissing
  · cases ofPeriod_of_checkPeriod periodFailed
  · cases shape : activity.blob with
    | none =>
        rw [shape] at blobFailed
        cases blobFailed
    | some blob =>
        rw [shape, checkBlob_eq_error] at blobFailed
        rcases blobFailed with mediaTypeFailed | ⟨-, bytesFailed⟩
        · obtain ⟨_, isUnread, same⟩ := checkMediaType_eq_error.mp mediaTypeFailed
          cases same
          exact ⟨blob, rfl, isUnread⟩
        · obtain ⟨_, same⟩ := exists_fault_of_checkBytes bytesFailed
          cases same

end Activity

end ActivityCatalog
