import ActivityCatalog.Directory

namespace ActivityCatalog

/-!
# Services

A service answers calls about a directory.  It shows the navigation tree with
its presenter and tells the source of the directory by its description.

Asking for the health of a directory loads it if it is not loaded: it is healthy
if a catalog is held afterwards.
-/

/-- What answers calls about a directory. -/
structure Service where
  presenter : Presenter
  source : String
  deriving Repr, DecidableEq

/-- What is known of a directory once loading was tried, and why it failed if it did. -/
structure Health where
  stats : DirectoryStats
  fault : Option DirectoryFault
  deriving Repr, DecidableEq

/-- A fault as a JSON object. -/
def DirectoryFault.written (fault : DirectoryFault) : Json.Value :=
  .object [("code", .string fault.code), ("message", .string fault.message)]

/-- The fault of a result that is one. -/
def faultOf? {Fault Result : Type} : Except Fault Result → Option Fault
  | .ok _ =>
      none
  | .error fault =>
      some fault

namespace Health

/-- Whether the directory can be used. -/
def isHealthy (health : Health) : Bool :=
  health.fault.isNone

/-- The word for the state of the directory. -/
def status (health : Health) : String :=
  if health.isHealthy then "healthy" else "degraded"

/-- The health of a directory as a JSON value. -/
def toValue (health : Health) : Json.Value :=
  Json.Value.canonical <| .object <|
    [ ("status", .string health.status),
      ("components", .object [("directory", health.stats.toValue)]) ] ++
    (health.fault.map fun fault => ("error", fault.written)).toList

end Health

namespace Service

/-- The health of a directory. -/
def health (service : Service) (load : Load) (directory : Directory) :
    Health × Directory :=
  let (loaded, directory) := directory.current load
  (⟨directory.stats service.source, faultOf? loaded⟩, directory)

/-- The navigation tree of the main activity. -/
def navTree (service : Service) (locale : Option String) (depth : Option Nat)
    (load : Load) (directory : Directory) : Except DirectoryFault NavNode × Directory :=
  service.presenter.navTree locale depth load directory

end Service

end ActivityCatalog
