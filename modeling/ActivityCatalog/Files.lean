import ActivityCatalog.Archive.Image
import ActivityCatalog.Text.Utf8

namespace ActivityCatalog

/-!
# Files

The files that are read and written are archives, their logs and the indexes of those,
bytes of any other kind, or sinks, which are read as empty whatever was written to them.
A text is read from bytes that are UTF-8, and a listing from a text.

A log holds an archive with its latest changes.  It is whole if all of the archive is in
it, and not only what changed.
-/

/-- A file: an archive, its log, the index of a log, bytes of any other kind, or a sink. -/
inductive StoredFile where
  | bytes (bytes : List UInt8)
  | archive (kept : KeptArchive)
  | log (kept : KeptArchive) (isWhole : Bool)
  | index
  | sink
  deriving Repr, DecidableEq

/-- The files that are read and written. -/
abbrev Files :=
  FileTree StoredFile

namespace StoredFile

/-- Whether a file is one that becomes an archive when it is opened. -/
def isBlank : StoredFile → Bool
  | .bytes content => content.length ≤ 1
  | _ => false

/-- Whether nothing is in a file. -/
def isEmpty : StoredFile → Bool
  | .bytes content => content.isEmpty
  | _ => false

/-- The archive that a file holds, where a blank one holds an archive that is not laid out. -/
def kept (file : StoredFile) : Except StorageFailure KeptArchive :=
  match file with
  | .archive kept => .ok kept
  | .bytes content => if file.isBlank then .ok (.blank false) else KeptArchive.ofBytes content
  | .log _ _ | .index | .sink => .error .notArchive

/-- Whether a file holds an archive whose changes go to a log first. -/
def keepsLog : StoredFile → Bool
  | .archive kept => kept.keepsLog
  | .bytes content => Image.asksForLog content
  | .log _ _ | .index | .sink => false

end StoredFile

namespace Files

/-- The text of a file. -/
def readText (files : Files) (path : String) : Except FileFault String := do
  match ← files.read (FilePath.ofText path) with
  | .archive _ | .log _ _ | .index => throw .notText
  | .sink => pure ""
  | .bytes bytes => (Text.Utf8.decode bytes).mapError fun _ => .notText

/-- Read the listing of a JSON file. -/
def readListing (files : Files) (path : String) : Except DirectoryFault Listing :=
  match files.readText path with
  | .error fault => .error (.unavailable (path ++ ": " ++ fault.message))
  | .ok text => (Listing.ofText text).mapError .invalid

end Files

end ActivityCatalog
