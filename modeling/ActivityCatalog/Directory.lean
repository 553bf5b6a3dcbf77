import ActivityCatalog.Catalog.Walk
import ActivityCatalog.Fault
import ActivityCatalog.Navigation

namespace ActivityCatalog

/-!
# Directories

A directory answers questions about the activities of a source.  The first
question loads the source; the catalog built then serves all later ones until a
reload puts a newer one in its place.  Where loading or building fails the
directory stays as it was, so that the next question tries again.

What a load would give at the moment is a parameter of every operation that may
load, and `Directory.loads` counts how often that was used.
-/

/-- What loading the source gives at the moment. -/
abbrev Load :=
  Unit → Except DirectoryFault Listing

/-- A directory: its own choice of a main activity, and the catalog it holds. -/
structure Directory where
  root : Option String
  catalog : Option Catalog
  loads : Nat
  deriving Repr, BEq

/-- What is known of a directory without loading it. -/
structure DirectoryStats where
  source : String
  loaded : Bool
  records : Nat
  root : Option String
  consistencyIssues : Nat
  deriving Repr, DecidableEq

namespace Catalog

/-- The record of the latest version of an id. -/
def latest (catalog : Catalog) (id : String) : Except DirectoryFault Activity :=
  match catalog.get? id none with
  | some activity => .ok activity
  | none => .error (.noActivity id)

/-- The record of an id and a version, or of the latest version. -/
def record (catalog : Catalog) (id : String) (version : Option String) :
    Except DirectoryFault Activity :=
  match catalog.get? id version, version with
  | some activity, _ => .ok activity
  | none, none => .error (.noActivity id)
  | none, some version => .error (.noActivity (Key.text ⟨id, version⟩))

/-- The records that the latest version of an id links to. -/
def linkedTo (catalog : Catalog) (id : String) (direction : Direction) :
    Except DirectoryFault (List Activity) :=
  (catalog.latest id).map fun activity => catalog.resolveAll (activity.linked direction)

/-- The records reached from the latest version of an id, with their depths. -/
def walkFrom (catalog : Catalog) (id : String) (direction : Direction)
    (limit : Option Nat) : Except DirectoryFault (List (Nat × Activity)) :=
  (catalog.latest id).map fun activity => catalog.walk activity direction limit

/-- The main activity: the given choice, or else that of the catalog. -/
def mainActivity (catalog : Catalog) (choice : Option String) :
    Except DirectoryFault Activity :=
  match choice <|> catalog.root with
  | none => .error (.notFound "no main activity designated")
  | some root =>
      match catalog.get? root none with
      | some activity => .ok activity
      | none => .error (.notFound ("main activity " ++ root))

end Catalog

namespace Directory

/-- A directory that is not loaded. -/
def unloaded (root : Option String) : Directory :=
  ⟨root, none, 0⟩

/-- The catalog that loading gives at the moment. -/
def loadCatalog (load : Load) : Except DirectoryFault Catalog := do
  let listing ← load ()
  (Catalog.build listing).mapError .invalid

/-- The directory that holds a catalog, if loading gave one. -/
def hold (directory : Directory) : Except DirectoryFault Catalog → Directory
  | .ok catalog =>
      { directory with catalog := some catalog, loads := directory.loads + 1 }
  | .error _ =>
      { directory with loads := directory.loads + 1 }

/-- The catalog, loaded if there is none yet. -/
def current (load : Load) (directory : Directory) :
    Except DirectoryFault Catalog × Directory :=
  match directory.catalog with
  | some catalog => (.ok catalog, directory)
  | none =>
      let loaded := loadCatalog load
      (loaded, directory.hold loaded)

/-- Answer a question about the catalog. -/
def ask {Answer : Type} (query : Catalog → Except DirectoryFault Answer) (load : Load)
    (directory : Directory) : Except DirectoryFault Answer × Directory :=
  let (catalog, directory) := directory.current load
  (catalog.bind query, directory)

/-- Load again, and hold what was loaded; the answer is the number of records. -/
def reload (load : Load) (directory : Directory) :
    Except DirectoryFault Nat × Directory :=
  let loaded := loadCatalog load
  (loaded.map Catalog.size, directory.hold loaded)

/-- The main activity. -/
def mainActivity (load : Load) (directory : Directory) :
    Except DirectoryFault Activity × Directory :=
  directory.ask (fun catalog => catalog.mainActivity directory.root) load

/-- The number of records held. -/
def size (directory : Directory) : Nat :=
  match directory.catalog with
  | some catalog => catalog.size
  | none => 0

/-- Whether a catalog is held. -/
def isLoaded (directory : Directory) : Bool :=
  directory.catalog.isSome

/-- What is known of the directory of a source with a description. -/
def stats (directory : Directory) (source : String) : DirectoryStats where
  source := source
  loaded := directory.isLoaded
  records := directory.size
  root := directory.root <|> directory.catalog.bind Catalog.root
  consistencyIssues :=
    match directory.catalog with
    | some catalog => catalog.issues.length
    | none => 0

end Directory

namespace DirectoryStats

/-- What is known of a directory as a JSON value. -/
def toValue (stats : DirectoryStats) : Json.Value :=
  Json.Value.canonical <| .object <|
    [ ("source", .string stats.source),
      ("loaded", .bool stats.loaded),
      ("records", .ofNat stats.records) ] ++
    Json.textMember "root" stats.root ++
    [ ("consistencyIssues", .ofNat stats.consistencyIssues) ]

end DirectoryStats

/-- What a navigation pane is shown with. -/
structure Presenter where
  defaultLocale : String
  maxDepth : Nat
  deriving Repr, DecidableEq

namespace Presenter

/-- No tree is deeper than this. -/
def greatestDepth : Nat :=
  256

/-- The presenter of a locale and a depth, which is cut to the greatest one. -/
def of (defaultLocale : String) (maxDepth : Nat) : Presenter :=
  ⟨defaultLocale, min maxDepth greatestDepth⟩

/-- The depth of the tree that is asked for. -/
def depthFor (presenter : Presenter) : Option Nat → Nat
  | some depth => min depth presenter.maxDepth
  | none => presenter.maxDepth

/-- The navigation tree of the main activity. -/
def navTree (presenter : Presenter) (locale : Option String) (depth : Option Nat)
    (load : Load) (directory : Directory) : Except DirectoryFault NavNode × Directory :=
  directory.ask
    (fun catalog => (catalog.mainActivity directory.root).map fun root =>
      catalog.navTree root (locale.getD presenter.defaultLocale) (presenter.depthFor depth))
    load

end Presenter

/-- What a navigation pane shows: a tree, or why there is none. -/
def NavView.written : Except DirectoryFault NavNode → Json.Value
  | .ok tree =>
      .object [("state", .string "ready"), ("tree", tree.written)]
  | .error fault =>
      .object
        [ ("state", .string "error"),
          ("kind", .string fault.kind),
          ("code", .string fault.code),
          ("message", .string fault.message) ]

end ActivityCatalog
