import ActivityCatalog.Archive.Layout

namespace ActivityCatalog

/-!
# Queries of archives

The rows of an archive are read by queries, each a text that names columns.  One that is
not laid out is told with the text and its place there.  A row is stored by filling
columns, where one that is not laid out is told alone.
-/

/-- A query: each column it names after the text before it, and the text after the last one. -/
structure Query where
  parts : List (String × String)
  rest : String
  deriving Repr, DecidableEq

namespace Query

/-- The text of parts of a query. -/
def textOf (parts : List (String × String)) : String :=
  String.join (parts.map fun part => part.1 ++ part.2)

/-- The text of a query. -/
def text (query : Query) : String :=
  textOf query.parts ++ query.rest

/-- Refuse the first column that is not among those laid out, given the parts before. -/
def checkFrom (query : Query) (columns : List Column) (before : List (String × String)) :
    List (String × String) → Except StorageFailure Unit
  | [] =>
      .ok ()
  | (lead, name) :: rest =>
      if columns.any fun column => Layout.isSame column.name name then
        query.checkFrom columns (before ++ [(lead, name)]) rest
      else
        .error (.noColumn name query.text (textOf before ++ lead).utf8ByteSize)

/-- Refuse the first column that is not laid out in the table of the rows. -/
def check (query : Query) (layout : Layout) : Except StorageFailure Unit :=
  match layout.table? Layout.rowTable with
  | none => .error (.noTable Layout.rowTable)
  | some ⟨.table, _, columns⟩ => query.checkFrom columns [] query.parts
  | some _ => .ok ()

/-- The query of the row that is marked as the main one. -/
def marked : Query :=
  ⟨[("SELECT ", "id"), (" FROM activity_versions WHERE ", "is_root")], " = 1 LIMIT 1"⟩

/-- The query of all rows. -/
def all : Query :=
  ⟨[("SELECT ", "payload"), (" FROM activity_versions ORDER BY ", "seq")], ""⟩

/-- The query of the row under a key. -/
def keyed : Query :=
  ⟨[("SELECT ", "payload"), (" FROM activity_versions WHERE ", "id"), (" = ?1 AND ", "version")],
    " = ?2"⟩

end Query

namespace Layout

/-- The columns that are filled when a row is stored. -/
def filledColumns : List String :=
  ["id", "version", "payload", "is_root", "stored_at"]

/-- Refuse to store a row where one of its columns is not laid out. -/
def checkFilled (layout : Layout) : Except StorageFailure Unit :=
  match layout.table? rowTable with
  | some ⟨.view, _, _⟩ =>
      .error (.changedView rowTable)
  | some table =>
      let has (name : String) := table.columns.any fun held => isSame held.name name
      match filledColumns.find? fun name => !has name with
      | some name => .error (.noColumnToFill rowTable name)
      | none => .ok ()
  | none =>
      .error (.noTable rowTable)

end Layout

end ActivityCatalog
