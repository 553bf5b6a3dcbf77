import ActivityCatalog.Activity.Written

namespace ActivityCatalog

/-!
# What a directory asks of a record

A record needs an id, a period whose times can be read and do not run backwards,
and a blob whose media type and bytes can be read.  A blob that both holds and
refers to its bytes is only worth a warning; the normal form of the record keeps
the reference.  The records inside a record are not looked at.
-/

/-- A record that a directory cannot hold. -/
inductive RecordFault where
  | missingId
  | invalidTimestamp (id field value : String)
  | invertedPeriod (id startTime endTime : String)
  | invalidBase64 (id : String) (fault : Base64.Fault)
  | invalidMediaType (id : String) (fault : MediaType.Fault)
  | duplicateVersion (key : Key)
  | malformed (detail : String)
  deriving Repr, DecidableEq

namespace RecordFault

/-- The short name of the kind of fault. -/
def kind : RecordFault → String
  | .missingId => "missing_id"
  | .invalidTimestamp .. => "invalid_timestamp"
  | .invertedPeriod .. => "inverted_period"
  | .invalidBase64 .. => "invalid_base64"
  | .invalidMediaType .. => "invalid_media_type"
  | .duplicateVersion _ => "duplicate_version"
  | .malformed _ => "malformed"

/-- The text of a fault. -/
def message : RecordFault → String
  | .missingId =>
      "activity has no id"
  | .invalidTimestamp id field value =>
      "activity " ++ id ++ ": invalid " ++ field ++ " timestamp " ++ Text.quoted value
  | .invertedPeriod id startTime endTime =>
      "activity " ++ id ++ ": period ends before it starts (" ++ startTime ++ " > " ++
        endTime ++ ")"
  | .invalidBase64 id fault =>
      "activity " ++ id ++ ": blob bytes are not valid base64: " ++ fault.message
  | .invalidMediaType id fault =>
      "activity " ++ id ++ ": invalid blob media type: " ++ fault.message
  | .duplicateVersion key =>
      "duplicate activity version " ++ key.text
  | .malformed detail =>
      "malformed activity record: " ++ detail

/-- The fault of a record that does not read from JSON. -/
def ofRead (error : Json.ReadError) : RecordFault :=
  .malformed error.message

end RecordFault

/-- A finding that does not keep a record out of a directory. -/
inductive RecordWarning where
  | blobConflict (id : String)
  deriving Repr, DecidableEq

namespace RecordWarning

/-- The short name of the kind of warning. -/
def kind : RecordWarning → String
  | .blobConflict _ => "blob_representation_conflict"

/-- The id of the record that is warned about. -/
def id : RecordWarning → String
  | .blobConflict id => id

end RecordWarning

/-- Read a time of a field of a record. -/
def readTimestamp (id field value : String) : Except RecordFault Timestamp :=
  match Timestamp.parse? value with
  | some time => .ok time
  | none => .error (.invalidTimestamp id field value)

/-- Read a time that may be absent. -/
def readTimestamp? (id field : String) : Option String →
    Except RecordFault (Option Timestamp)
  | none =>
      .ok none
  | some value =>
      (readTimestamp id field value).map some

/-- The times of a period; the id is that of the record in the error. -/
def Period.bounds (period : Period) (id : String) :
    Except RecordFault (Option Timestamp × Option Timestamp) := do
  let startTime ← readTimestamp? id "startTime" period.startTime
  let endTime ← readTimestamp? id "endTime" period.endTime
  pure (startTime, endTime)

namespace Activity

/-- Check the period of a record. -/
def checkPeriod (id : String) : Option Period → Except RecordFault Unit
  | none =>
      .ok ()
  | some period => do
      match ← period.bounds id with
      | (some startTime, some endTime) =>
          if startTime.isAfter endTime then
            throw <| .invertedPeriod id (period.startTime.getD "") (period.endTime.getD "")
          else
            pure ()
      | _ =>
          pure ()

/-- Check the media type of a blob. -/
def checkMediaType (id : String) (blob : Blob) : Except RecordFault Unit :=
  match blob.mediaType? with
  | some (.error fault) => .error (.invalidMediaType id fault)
  | _ => .ok ()

/-- Check the bytes of a blob. -/
def checkBytes (id : String) (blob : Blob) : Except RecordFault Unit :=
  match blob.bytes with
  | .error fault => .error (.invalidBase64 id fault)
  | .ok _ => .ok ()

/-- Check the blob of a record, with warnings. -/
def checkBlob (id : String) : Option Blob → Except RecordFault (List RecordWarning)
  | none =>
      .ok []
  | some blob => do
      checkMediaType id blob
      checkBytes id blob
      pure (if blob.hasConflict then [.blobConflict id] else [])

/-- Check a record, with warnings. -/
def validate (activity : Activity) : Except RecordFault (List RecordWarning) :=
  let id := activity.idText
  if id = "" then
    .error .missingId
  else do
    checkPeriod id activity.period
    checkBlob id activity.blob

/-- The blob that keeps the reference where it has both. -/
def normalBlob (blob : Blob) : Blob :=
  if blob.hasConflict then { blob with bytesBase64 := none } else blob

/-- The record with its warnings resolved. -/
def normalForm (activity : Activity) : Activity :=
  { activity with blob := activity.blob.map normalBlob }

/-- Check a record and bring it to normal form. -/
def normalized (activity : Activity) : Except RecordFault (Activity × List RecordWarning) :=
  activity.validate.map fun warnings => (activity.normalForm, warnings)

end Activity

end ActivityCatalog
