import ActivityCatalog.Archive.Keeping
import ActivityCatalog.Catalog.Basic
import ActivityCatalog.Sample

namespace ActivityCatalog

/-!
# Sources

A source is where a directory has its listing from: a listing given once and for
all, a JSON file, or an archive.  A file is read each time the source is loaded,
so that loading may give another answer later.
-/

/-- Where a directory has its listing from. -/
inductive Source where
  | fixed (listing : Listing)
  | jsonFile (path : String)
  | archive (path : String)
  deriving Repr, BEq

namespace Source

/-- What a source is called. -/
def description : Source → String
  | .fixed listing => "static (" ++ toString listing.activities.length ++ " activities)"
  | .jsonFile path => "json file " ++ path
  | .archive path => "sqlite " ++ path

/-- Load an archive that is open. -/
def loadArchive (files : Files) (opened : OpenArchive) : Except ArchiveFault Listing := do
  let reached ← ((opened.reach .rows).on files).1
  reached.archive.listing

/-- Load a source, given the files and the archive that is open. -/
def load (files : Files) (opened : OpenArchive) : Source → Except DirectoryFault Listing
  | .fixed listing =>
      .ok listing
  | .jsonFile path =>
      files.readListing path
  | .archive _ =>
      (loadArchive files opened).mapError ArchiveFault.toDirectoryFault

end Source

end ActivityCatalog
