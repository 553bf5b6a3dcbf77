import ActivityCatalog.Archive.Fault

namespace ActivityCatalog

/-!
# Layouts of archives

An archive lays out its rows and schema versions in two tables, and finds rows by two
indexes.  Whatever of that is missing is made by statements when it is opened, where a
table, an index or a view that has the name already counts as made; other objects stay
as they are.

A statement that fails is told with all that was still to be done.  Names are the same
without regard to capitals.
-/

/-- What kind of object has a name. -/
inductive ObjectKind where
  | table
  | index
  | view
  deriving Repr, DecidableEq

/-- A column of a table; one may stand for the number of the row, others have to be filled. -/
structure Column where
  name : String
  affinity : Affinity
  isRowNumber : Bool
  isRequired : Bool
  deriving Repr, DecidableEq

/-- An object that is laid out. -/
structure LaidObject where
  kind : ObjectKind
  name : String
  columns : List Column
  deriving Repr, DecidableEq

/-- The objects that are laid out. -/
abbrev Layout :=
  List LaidObject

/-- A statement that makes a table, or an index of one column. -/
inductive LayoutStatement where
  | table (lead name body : String) (columns : List Column)
  | index (lead name owner column : String)
  deriving Repr, DecidableEq

namespace LayoutStatement

/-- The text of a statement up to what it says of its object. -/
def head : LayoutStatement → String
  | .table lead name _ _ => lead ++ "CREATE TABLE IF NOT EXISTS " ++ name ++ " ("
  | .index lead name owner _ =>
      lead ++ "CREATE INDEX IF NOT EXISTS " ++ name ++ " ON " ++ owner ++ "("

/-- The text of a statement. -/
def text (statement : LayoutStatement) : String :=
  match statement with
  | .table _ _ body _ => statement.head ++ body ++ ");"
  | .index _ _ _ column => statement.head ++ column ++ ");"

end LayoutStatement

namespace Layout

/-- The table of the rows. -/
def rowTable : String :=
  "activity_versions"

/-- The table of the schema versions. -/
def versionTable : String :=
  "schema_version"

/-- The column of the schema versions. -/
def versionColumn : String :=
  "version"

/-- What is said of the columns of the rows. -/
def rowBody : String :=
  "\n    seq INTEGER PRIMARY KEY AUTOINCREMENT,\n    id TEXT NOT NULL,\n" ++
  "    version TEXT NOT NULL DEFAULT '',\n    payload TEXT NOT NULL,\n" ++
  "    is_root INTEGER NOT NULL DEFAULT 0,\n    stored_at TEXT NOT NULL,\n" ++
  "    UNIQUE (id, version)\n"

/-- The columns of the rows. -/
def rowColumns : List Column :=
  [ ⟨"seq", .integer, true, false⟩,
    ⟨"id", .text, false, true⟩,
    ⟨"version", .text, false, false⟩,
    ⟨"payload", .text, false, true⟩,
    ⟨"is_root", .integer, false, false⟩,
    ⟨"stored_at", .text, false, true⟩ ]

/-- The columns of the schema versions. -/
def versionColumns : List Column :=
  [⟨versionColumn, .integer, false, true⟩]

/-- The statements that lay out an archive. -/
def statements : List LayoutStatement :=
  [ .table "\n" rowTable rowBody rowColumns,
    .index "\n\n" "idx_activity_versions_id" rowTable "id",
    .index "\n" "idx_activity_versions_root" rowTable "is_root",
    .table "\n\n" versionTable "\n    version INTEGER NOT NULL\n" versionColumns ]

/-- The text of statements that are to be done. -/
def textOf (statements : List LayoutStatement) : String :=
  String.join (statements.map LayoutStatement.text) ++ "\n"

/-- Whether two names are the same. -/
def isSame (left right : String) : Bool :=
  left.toLower == right.toLower

/-- The object that has a name, if it is of one of the kinds. -/
def find? (layout : Layout) (kinds : List ObjectKind) (name : String) : Option LaidObject :=
  List.find? (fun object => kinds.contains object.kind && isSame object.name name) layout

/-- The table or view of a name. -/
def table? (layout : Layout) (name : String) : Option LaidObject :=
  layout.find? [.table, .view] name

/-- Do the first of the statements that are to be done. -/
def perform (layout : Layout) (statement : LayoutStatement) (toDo : String) :
    Except StorageFailure Layout :=
  match statement with
  | .table _ name _ columns =>
      if (layout.table? name).isSome then
        .ok layout
      else if (layout.find? [.index] name).isSome then
        .error (.nameOfIndex name)
      else
        .ok (layout ++ [⟨.table, name, columns⟩])
  | .index _ name owner column =>
      match layout.table? owner with
      | none =>
          .error (.noTable owner)
      | some ⟨.view, _, _⟩ =>
          .error .indexedView
      | some indexed =>
          if (layout.table? name).isSome then
            .error (.nameOfTable name)
          else if (layout.find? [.index] name).isSome then
            .ok layout
          else if indexed.columns.any fun held => isSame held.name column then
            .ok (layout ++ [⟨.index, name, []⟩])
          else
            .error (.noColumn column toDo statement.head.utf8ByteSize)

/-- Do statements one after another, none of which makes anything where that is refused. -/
def performAll (refusal : Option StorageFailure) (layout : Layout) :
    List LayoutStatement → Except StorageFailure Layout
  | [] =>
      .ok layout
  | statement :: rest => do
      let next ← layout.perform statement (textOf (statement :: rest))
      if next != layout then
        refusal.forM throw
      next.performAll refusal rest

/-- The layout with all that an archive needs. -/
def completed (refusal : Option StorageFailure) (layout : Layout) :
    Except StorageFailure Layout :=
  layout.performAll refusal statements

/-- The layout of an archive that was made here. -/
def standard : Layout :=
  [ ⟨.table, rowTable, rowColumns⟩,
    ⟨.index, "idx_activity_versions_id", []⟩,
    ⟨.index, "idx_activity_versions_root", []⟩,
    ⟨.table, versionTable, versionColumns⟩ ]

/-- Whether nothing of an archive is laid out. -/
def isBlank (layout : Layout) : Bool :=
  (layout.table? rowTable).isNone && (layout.table? versionTable).isNone

/-- The column of the schema versions, or why none can be stored. -/
def versionColumnOf (layout : Layout) : Except StorageFailure Column :=
  match layout.table? versionTable with
  | none =>
      .error (.noTable versionTable)
  | some ⟨.view, _, _⟩ =>
      .error (.changedView versionTable)
  | some table =>
      match table.columns.find? fun column => isSame column.name versionColumn with
      | none => .error (.noColumnToFill versionTable versionColumn)
      | some column => .ok column

/-- The first column of an object that is required and not among those that are filled. -/
def unfilled? (laid : LaidObject) (filled : List String) : Option Column :=
  laid.columns.find? fun column => column.isRequired && !filled.any (isSame column.name)

/-- Refuse to fill only some columns of a table where another one is required. -/
def checkRequired (layout : Layout) (name : String) (filled : List String) :
    Except StorageFailure Unit :=
  match layout.table? name with
  | none =>
      .ok ()
  | some table =>
      match unfilled? table filled with
      | none => .ok ()
      | some column => .error (.nullRefused table.name column.name)

/-- The schema versions after whole numbers were stored among them. -/
def storedVersions (layout : Layout) (versions : List Cell) : List Cell :=
  match layout.versionColumnOf with
  | .error _ =>
      versions
  | .ok column =>
      versions.map fun version =>
        version.integer?.elim version column.affinity.stored

end Layout

end ActivityCatalog
