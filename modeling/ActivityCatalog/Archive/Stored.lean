import ActivityCatalog.Files

namespace ActivityCatalog

/-!
# The files of archives

The file of an archive has a first line that tells it from other files, and then the
JSON text of its rows, the versions of their schema, what is laid out in it and how it
is kept.  Bytes that are no text are written in base64, and fractions by their bits.

A log and its index are emptied when they are left, since the archive holds all that was
in them then.
-/

namespace Cell

/-- The cell as a JSON value. -/
def written : Cell → Json.Value
  | .null => .null
  | .integer value => .ofInt value
  | .real bits => .object [("real", .ofNat bits.toNat)]
  | .text content => .string content
  | .bytes content => .object [("base64", .string (Base64.encode content))]

/-- The cell of bytes in base64, none of them if it is not base64. -/
def ofBase64 (content : String) : Cell :=
  .bytes ((Base64.decode content).toOption.getD [])

/-- Read a cell. -/
def reader : Json.Reader Cell
  | _, .null =>
      .ok .null
  | _, .number (some (.integer value)) =>
      .ok (.integer value)
  | _, .string (some content) =>
      .ok (.text content)
  | room, document =>
      Json.Reader.record "a cell"
        [ .of "base64" Json.Reader.text fun _ content => ofBase64 content,
          .of "real" (Json.Reader.natural "bits" 0xffffffffffffffff)
            fun _ bits => .real (UInt64.ofNat bits) ]
        .null room document

end Cell

namespace Row

/-- The row as a JSON object. -/
def written (row : Row) : Json.Value :=
  .object
    [ ("id", .string row.key.id),
      ("version", .string row.key.version),
      ("payload", row.payload.written),
      ("isRoot", .bool row.isRoot) ]

/-- The row without content. -/
def blank : Row :=
  ⟨⟨"", ""⟩, .text "", false⟩

/-- Read a row. -/
def reader : Json.Reader Row :=
  Json.Reader.record "a row"
    [ .of "id" Json.Reader.text fun row id => { row with key := { row.key with id } },
      .of "version" Json.Reader.text
        fun row version => { row with key := { row.key with version } },
      .of "payload" Cell.reader fun row payload => { row with payload },
      .of "isRoot" Json.Reader.bool fun row isRoot => { row with isRoot } ]
    blank

end Row

/-- Read what is told by a name. -/
def Json.Reader.named {Result : Type} (names : List (String × Result)) : Json.Reader Result :=
  fun room document => do
    let name ← Json.Reader.text room document
    match names.find? fun known => known.1 == name with
    | some known => pure known.2
    | none => throw (.unknownVariant name (names.map Prod.fst))

namespace Column

/-- The names of affinities. -/
def affinities : List (String × Affinity) :=
  [("integer", .integer), ("text", .text), ("real", .real), ("none", .none)]

/-- The column as a JSON object. -/
def written (column : Column) : Json.Value :=
  let affinity := affinities.find? fun known => known.2 == column.affinity
  .object
    [ ("name", .string column.name),
      ("affinity", .ofText? (affinity.map Prod.fst)),
      ("isRowNumber", .bool column.isRowNumber),
      ("isRequired", .bool column.isRequired) ]

/-- Read a column. -/
def reader : Json.Reader Column :=
  Json.Reader.record "a column"
    [ .of "name" Json.Reader.text fun column name => { column with name },
      .of "affinity" (Json.Reader.named affinities)
        fun column affinity => { column with affinity },
      .of "isRowNumber" Json.Reader.bool
        fun column isRowNumber => { column with isRowNumber },
      .of "isRequired" Json.Reader.bool
        fun column isRequired => { column with isRequired } ]
    ⟨"", .none, false, false⟩

end Column

namespace LaidObject

/-- The names of kinds of objects. -/
def kinds : List (String × ObjectKind) :=
  [("table", .table), ("index", .index), ("view", .view)]

/-- The object as a JSON object. -/
def written (laid : LaidObject) : Json.Value :=
  let kind := kinds.find? fun known => known.2 == laid.kind
  .object
    [ ("kind", .ofText? (kind.map Prod.fst)),
      ("name", .string laid.name),
      ("columns", .array (laid.columns.map Column.written)) ]

/-- Read an object. -/
def reader : Json.Reader LaidObject :=
  Json.Reader.record "an object"
    [ .of "kind" (Json.Reader.named kinds) fun laid kind => { laid with kind },
      .of "name" Json.Reader.text fun laid name => { laid with name },
      .of "columns" (Json.Reader.list Column.reader)
        fun laid columns => { laid with columns } ]
    ⟨.table, "", []⟩

end LaidObject

namespace KeptArchive

/-- The archive as a JSON object. -/
def written (kept : KeptArchive) : Json.Value :=
  .object
    [ ("keepsLog", .bool kept.keepsLog),
      ("isSealed", .bool kept.isSealed),
      ("canGrow", .bool kept.canGrow),
      ("layout", .array (kept.layout.map LaidObject.written)),
      ("schema", .array (kept.archive.schemaVersions.map Cell.written)),
      ("rows", .array (kept.archive.rows.map Row.written)) ]

/-- Read an archive. -/
def reader : Json.Reader KeptArchive :=
  Json.Reader.record "an archive"
    [ .of "keepsLog" Json.Reader.bool fun kept keepsLog => { kept with keepsLog },
      .of "isSealed" Json.Reader.bool fun kept isSealed => { kept with isSealed },
      .of "canGrow" Json.Reader.bool fun kept canGrow => { kept with canGrow },
      .of "layout" (Json.Reader.list LaidObject.reader)
        fun kept layout => { kept with layout },
      .of "schema" (Json.Reader.list Cell.reader)
        fun kept schemaVersions => { kept with archive := { kept.archive with schemaVersions } },
      .of "rows" (Json.Reader.list Row.reader)
        fun kept rows => { kept with archive := { kept.archive with rows } } ]
    (blank false)

end KeptArchive

namespace StoredFile

/-- The first line of the file of an archive. -/
def archiveLine : List UInt8 :=
  "activity archive\n".toUTF8.toList

/-- The bytes of a file. -/
def toBytes : StoredFile → List UInt8
  | .bytes content => content
  | .archive kept => archiveLine ++ kept.written.text.toUTF8.toList
  | .log _ _ | .index | .sink => []

/-- The archive of the bytes after the first line. -/
def archiveOf? (content : List UInt8) : Option KeptArchive := do
  let text ← (Text.Utf8.decode content).toOption
  (Json.Reader.ofText KeptArchive.reader text).toOption

/-- The file of bytes. -/
def ofBytes (content : List UInt8) : StoredFile :=
  if archiveLine.isPrefixOf content then
    match archiveOf? (content.drop archiveLine.length) with
    | some kept => .archive kept
    | none => .bytes content
  else
    .bytes content

end StoredFile

end ActivityCatalog
