import ActivityCatalog.Base64
import ActivityCatalog.Label
import ActivityCatalog.MediaType
import ActivityCatalog.Participation
import ActivityCatalog.Timestamp
import ActivityCatalog.Version

namespace ActivityCatalog

/-!
# Activities

An activity record is one immutable version of an activity.  It may name the
activities that are part of it and those it is part of by records of their own,
which are often stubs: an id and a version and nothing else.

A record is addressed by its `key?` if its id is not empty.
-/

/-- The time in which an activity is current, as it is written. -/
structure Period where
  startTime : Option String
  endTime : Option String
  deriving Repr, DecidableEq, Inhabited

/-- The description of a set of attributes. -/
structure AttributeManifest where
  id : Option String
  deriving Repr, DecidableEq, Inhabited

/-- A set of attributes of any values. -/
structure AttributeSet where
  manifest : Option AttributeManifest
  attributes : Dictionary Json.Value
  deriving Repr, BEq, Inhabited

/-- The description of a blob. -/
structure BlobManifest where
  mediaType : Option String
  deriving Repr, DecidableEq, Inhabited

/-- Content without structure: bytes in the record, or a reference to them. -/
structure Blob where
  manifest : Option BlobManifest
  bytesBase64 : Option String
  blobRef : Option String
  deriving Repr, DecidableEq, Inhabited

/-- One version of an activity. -/
structure Activity where
  schema : Option String
  id : Option String
  version : Option String
  label : Label
  period : Option Period
  participations : List Participation
  subs : List Activity
  supers : List Activity
  attributeSets : Dictionary AttributeSet
  blob : Option Blob
  deriving Repr, BEq

/-- The two directions in which activities link to one another. -/
inductive Direction where
  | down
  | up
  deriving Repr, DecidableEq

namespace Direction

/-- The name of the list that a direction follows. -/
def listName : Direction → String
  | .down => "subs"
  | .up => "supers"

/-- The name of a link in a direction. -/
def linkName : Direction → String
  | .down => "sub"
  | .up => "super"

/-- The other direction. -/
def opposite : Direction → Direction
  | .down => .up
  | .up => .down

end Direction

namespace Period

/-- The period that is open at its end. -/
def starting (startTime : String) : Period :=
  ⟨some startTime, none⟩

/-- The period between two times. -/
def between (startTime endTime : String) : Period :=
  ⟨some startTime, some endTime⟩

end Period

namespace Blob

/-- The blob that holds bytes. -/
def inline (mediaType : String) (bytes : List UInt8) : Blob :=
  ⟨some ⟨some mediaType⟩, some (Base64.encode bytes), none⟩

/-- The blob that refers to its bytes. -/
def reference (mediaType blobRef : String) : Blob :=
  ⟨some ⟨some mediaType⟩, none, some blobRef⟩

/-- Whether the blob both holds and refers to its bytes. -/
def hasConflict (blob : Blob) : Bool :=
  blob.bytesBase64.isSome && blob.blobRef.isSome

/-- The bytes that the blob holds. -/
def bytes (blob : Blob) : Except Base64.Fault (Option (List UInt8)) :=
  match blob.bytesBase64 with
  | none => .ok none
  | some text => (Base64.decode text).map some

/-- The media type that the manifest gives. -/
def mediaType? (blob : Blob) : Option (Except MediaType.Fault MediaType) :=
  (blob.manifest.bind BlobManifest.mediaType).map MediaType.parse

end Blob

namespace Activity

/-- The record without any field. -/
def blank : Activity where
  schema := none
  id := none
  version := none
  label := .empty
  period := none
  participations := []
  subs := []
  supers := []
  attributeSets := []
  blob := none

instance : Inhabited Activity :=
  ⟨blank⟩

/-- The record of an id and a version only. -/
def stub (id version : String) : Activity :=
  { blank with id := some id, version := some version }

/-- The id, empty if it is absent. -/
def idText (activity : Activity) : String :=
  activity.id.getD ""

/-- The version, empty if it is absent. -/
def versionText (activity : Activity) : String :=
  activity.version.getD ""

/-- The address of the record, if its id is not empty. -/
def key? (activity : Activity) : Option Key :=
  if activity.idText = "" then
    none
  else
    some ⟨activity.idText, activity.versionText⟩

/-- Whether the record has nothing but an id and a version. -/
def isStub (activity : Activity) : Bool :=
  activity.label.isEmpty && activity.period.isNone && activity.participations.isEmpty &&
    activity.subs.isEmpty && activity.supers.isEmpty && activity.attributeSets.isEmpty &&
    activity.blob.isNone

/-- The records that a record links to in a direction. -/
def linked (activity : Activity) : Direction → List Activity
  | .down => activity.subs
  | .up => activity.supers

/-- Whether a record links to an id in a direction. -/
def lists (activity : Activity) (direction : Direction) (id : String) : Bool :=
  (activity.linked direction).any fun link => link.id == some id

/-- Set the text of a language. -/
def withLabel (activity : Activity) (language text : String) : Activity :=
  { activity with label := activity.label.insert language text }

/-- Add a sub after the others. -/
def withSub (activity sub : Activity) : Activity :=
  { activity with subs := activity.subs ++ [sub] }

/-- Add a super after the others. -/
def withSuper (activity super : Activity) : Activity :=
  { activity with supers := activity.supers ++ [super] }

end Activity

/-- Equality of attribute sets, comparing numbers as numbers. -/
def AttributeSet.same (left right : AttributeSet) : Bool :=
  left.manifest == right.manifest &&
    Json.Value.sameMembers left.attributes right.attributes

/-- Equality of lists by an equality of their members. -/
def sameList {Item : Type} (same : Item → Item → Bool) : List Item → List Item → Bool
  | [], [] =>
      true
  | left :: leftRest, right :: rightRest =>
      same left right && sameList same leftRest rightRest
  | _, _ =>
      false

namespace Activity

mutual

/-- Equality of records, comparing the numbers in them as numbers. -/
def same : Activity → Activity → Bool
  | ⟨schema, id, version, label, period, participations, subs, supers, attributeSets, blob⟩,
    other =>
      schema == other.schema && id == other.id && version == other.version &&
        label == other.label && period == other.period &&
        sameList Participation.same participations other.participations &&
        sameAll subs other.subs && sameAll supers other.supers &&
        sameList (fun left right => left.1 == right.1 && left.2.same right.2)
          attributeSets other.attributeSets &&
        blob == other.blob

/-- Equality of two lists of records. -/
def sameAll : List Activity → List Activity → Bool
  | [], [] =>
      true
  | left :: leftRest, right :: rightRest =>
      left.same right && sameAll leftRest rightRest
  | _, _ =>
      false

end

end Activity

end ActivityCatalog
