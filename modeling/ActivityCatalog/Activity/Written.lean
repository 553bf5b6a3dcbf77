import ActivityCatalog.Activity.Basic

namespace ActivityCatalog

/-!
# The JSON form of activities

`Activity.written` is a record as a JSON object whose members stand in the order
of the fields; an absent field, an empty list and an empty dictionary are left
out.  `Activity.text` is its text, and `Activity.toValue` the same object with
its members by name.

`Activity.reader` reads records back.
-/

namespace Period

/-- The period as a JSON object. -/
def written (period : Period) : Json.Value :=
  .object <|
    Json.textMember "startTime" period.startTime ++
    Json.textMember "endTime" period.endTime

/-- Read a period. -/
def reader : Json.Reader Period :=
  Json.Reader.record "struct Period"
    [ .of "startTime" (Json.Reader.optional Json.Reader.text)
        fun period startTime => { period with startTime },
      .of "endTime" (Json.Reader.optional Json.Reader.text)
        fun period endTime => { period with endTime } ]
    ⟨none, none⟩

end Period

namespace AttributeManifest

/-- The manifest as a JSON object. -/
def written (manifest : AttributeManifest) : Json.Value :=
  .object (Json.textMember "id" manifest.id)

/-- Read a manifest. -/
def reader : Json.Reader AttributeManifest :=
  Json.Reader.record "struct AttributeSetManifest"
    [ .of "id" (Json.Reader.optional Json.Reader.text) fun _ id => ⟨id⟩ ]
    ⟨none⟩

end AttributeManifest

namespace AttributeSet

/-- The attribute set as a JSON object. -/
def written (attributeSet : AttributeSet) : Json.Value :=
  .object <|
    Json.optionalMember "manifest" AttributeManifest.written attributeSet.manifest ++
    Json.dictionaryMember "attributes" attributeSet.attributes

/-- Read an attribute set. -/
def reader : Json.Reader AttributeSet :=
  Json.Reader.record "struct AttributeSet"
    [ .of "manifest" (Json.Reader.optional AttributeManifest.reader)
        fun attributeSet manifest => { attributeSet with manifest },
      .of "attributes" (Json.Reader.dictionary Json.Reader.value)
        fun attributeSet attributes => { attributeSet with attributes } ]
    ⟨none, []⟩

end AttributeSet

namespace BlobManifest

/-- The manifest as a JSON object. -/
def written (manifest : BlobManifest) : Json.Value :=
  .object (Json.textMember "mediaType" manifest.mediaType)

/-- Read a manifest. -/
def reader : Json.Reader BlobManifest :=
  Json.Reader.record "struct BlobManifest"
    [ .of "mediaType" (Json.Reader.optional Json.Reader.text)
        fun _ mediaType => ⟨mediaType⟩ ]
    ⟨none⟩

end BlobManifest

namespace Blob

/-- The blob as a JSON object. -/
def written (blob : Blob) : Json.Value :=
  .object <|
    Json.optionalMember "manifest" BlobManifest.written blob.manifest ++
    Json.textMember "bytesBase64" blob.bytesBase64 ++
    Json.textMember "blobRef" blob.blobRef

/-- Read a blob. -/
def reader : Json.Reader Blob :=
  Json.Reader.record "struct Blob"
    [ .of "manifest" (Json.Reader.optional BlobManifest.reader)
        fun blob manifest => { blob with manifest },
      .of "bytesBase64" (Json.Reader.optional Json.Reader.text)
        fun blob bytesBase64 => { blob with bytesBase64 },
      .of "blobRef" (Json.Reader.optional Json.Reader.text)
        fun blob blobRef => { blob with blobRef } ]
    ⟨none, none, none⟩

end Blob

namespace Activity

mutual

/-- The record as a JSON object, its members in the order of the fields. -/
def written : Activity → Json.Value
  | ⟨schema, id, version, label, period, participations, subs, supers, attributeSets, blob⟩ =>
      .object <|
        Json.textMember "$schema" schema ++
        Json.textMember "id" id ++
        Json.textMember "version" version ++
        (if label.isEmpty then [] else [("label", label.written)]) ++
        Json.optionalMember "period" Period.written period ++
        Json.listMember "participations" (participations.map Participation.written) ++
        Json.listMember "subs" (writtenAll subs) ++
        Json.listMember "supers" (writtenAll supers) ++
        Json.dictionaryMember "attributeSets"
          (attributeSets.map fun (name, attributeSet) => (name, attributeSet.written)) ++
        Json.optionalMember "blob" Blob.written blob

/-- The JSON object of each record. -/
def writtenAll : List Activity → List Json.Value
  | [] =>
      []
  | activity :: rest =>
      activity.written :: writtenAll rest

end

/-- The JSON text of the record. -/
def text (activity : Activity) : String :=
  activity.written.text

/-- The record as a JSON value, its members by name. -/
def toValue (activity : Activity) : Json.Value :=
  activity.written.canonical

/-- The fields of a record; subs and supers are read by a reader of records. -/
def fields (nested : Json.Reader Activity) : List (Json.Field Activity) :=
  [ .of "$schema" (Json.Reader.optional Json.Reader.text)
      fun activity schema => { activity with schema },
    .of "id" (Json.Reader.optional Json.Reader.text)
      fun activity id => { activity with id },
    .of "version" (Json.Reader.optional Json.Reader.text)
      fun activity version => { activity with version },
    .of "label" Label.reader
      fun activity label => { activity with label },
    .of "period" (Json.Reader.optional Period.reader)
      fun activity period => { activity with period },
    .of "participations" (Json.Reader.list Participation.reader)
      fun activity participations => { activity with participations },
    .of "subs" (Json.Reader.list nested)
      fun activity subs => { activity with subs },
    .of "supers" (Json.Reader.list nested)
      fun activity supers => { activity with supers },
    .of "attributeSets" (Json.Reader.dictionary AttributeSet.reader)
      fun activity attributeSets => { activity with attributeSets },
    .of "blob" (Json.Reader.optional Blob.reader)
      fun activity blob => { activity with blob } ]

/-- Read a record; one inside another stands two containers deeper. -/
def reader : Json.Reader Activity
  | room + 2, document =>
      Json.Reader.record "struct ActivityVersion" (fields fun _ nested => reader room nested)
        blank (room + 2) document
  | room, document =>
      Json.Reader.record "struct ActivityVersion" (fields fun _ _ => .error .tooDeep)
        blank room document

/-- Read a record from a text. -/
def ofText (text : String) : Except Json.ReadError Activity :=
  Json.Reader.ofText reader text

/-- Read a record from a value. -/
def ofValue (value : Json.Value) : Except Json.ReadError Activity :=
  Json.Reader.ofValue reader value

end Activity

end ActivityCatalog
