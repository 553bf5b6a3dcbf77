import ActivityCatalog.Archive.Opening
import ActivityCatalog.Catalog.Basic

namespace ActivityCatalog.Import

/-!
# Importing a file into an archive

The listing of a file is checked as a whole before the archive is touched.  Then
its records are stored and its main activity is designated; a main activity that
is asked for besides is designated afterwards, and may be any record of the
archive.
-/

/-- What was imported: the records of the file, and the rows of the archive after it. -/
structure Report where
  written : Nat
  stored : Nat
  deriving Repr, DecidableEq

/-- Why an import fails. -/
inductive Fault where
  | unreadable (file : String) (fault : DirectoryFault)
  | invalid (file : String) (fault : RecordFault)
  | cannotOpen (archive : String) (fault : ArchiveFault)
  | refused (fault : ArchiveFault)
  | noSuchRoot (root : String) (fault : ArchiveFault)
  deriving Repr, DecidableEq

namespace Fault

/-- The text of a fault. -/
def message : Fault → String
  | .unreadable file _ => "Failed to read " ++ file
  | .invalid file _ => file ++ " holds invalid activities"
  | .cannotOpen archive _ => "Failed to open database " ++ archive
  | .refused _ => "Import failed"
  | .noSuchRoot root _ => "Failed to mark " ++ root ++ " as the main activity"

/-- The texts of what the fault stems from, nearest first. -/
def causes : Fault → List String
  | .unreadable _ fault => fault.chain
  | .invalid _ fault => [fault.message]
  | .cannotOpen _ fault => [fault.message]
  | .refused fault => fault.toDirectoryFault.chain
  | .noSuchRoot _ fault => fault.toDirectoryFault.chain

end Fault

/-- Read the listing of a file and check that its records make a catalog. -/
def readChecked (files : Files) (file : String) : Except Fault Listing := do
  let listing ← (files.readListing file).mapError (.unreadable file)
  let _ ← (Catalog.build listing).mapError (.invalid file)
  pure listing

/-- Store a listing in an archive; with the archive goes what there is to report. -/
def storeIn (opened : OpenArchive) (listing : Listing) (root : Option String) :
    Except Fault Report × OpenArchive :=
  match opened.importListing listing with
  | .error fault =>
      (.error (.refused fault), opened)
  | .ok (stored, written) =>
      match root with
      | none =>
          (.ok ⟨written, stored.archive.count⟩, stored)
      | some id =>
          match stored.setRoot id with
          | .ok designated => (.ok ⟨written, designated.archive.count⟩, designated)
          | .error fault => (.error (.noSuchRoot id fault), stored)

/-- Import a file into the archive that a text tells. -/
def run (file archive : String) (root : Option String) (files : Files) :
    Except Fault Report × Files :=
  match readChecked files file with
  | .error fault =>
      (.error fault, files)
  | .ok listing =>
      match (OpenArchive.ofText archive []).on files with
      | (.error fault, files) =>
          (.error (.cannotOpen archive fault), files)
      | (.ok opened, files) =>
          let (report, stored) := storeIn opened listing root
          let (kept, files) := stored.keepAfter opened files
          (report, kept.close files)

end ActivityCatalog.Import
